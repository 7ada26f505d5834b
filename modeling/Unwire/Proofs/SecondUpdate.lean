import Unwire.Proofs.ConstructorArguments
import Unwire.Proofs.SetupBounds
import Unwire.Proofs.TreeRemains

namespace Unwire

open Syntax

namespace Syntax.SyntaxTree

variable (t : SyntaxTree)

/-- The function and its argument lists stand between tokens, its name is a name, and its body is no instantiation. -/
structure Bracketed (i : NodeId) : Prop where
  delimited : t.Delimited i
  arguments : ∀ a ∈ t.descendants i, (t.node a).kind = .argumentList → t.Delimited a
  name : ∀ c ∈ t.childByField? i "name", (t.node c).kind = .identifier
  body : ∀ b ∈ t.childByField? i "body", (t.node b).kind ≠ .newExpression

instance (i : NodeId) : Decidable (t.Bracketed i) :=
  decidable_of_iff
    (t.Delimited i ∧ (∀ a ∈ t.descendants i, (t.node a).kind = .argumentList → t.Delimited a) ∧
      (∀ c ∈ t.childByField? i "name", (t.node c).kind = .identifier) ∧
      ∀ b ∈ t.childByField? i "body", (t.node b).kind ≠ .newExpression)
    ⟨fun h => ⟨h.1, h.2.1, h.2.2.1, h.2.2.2⟩, fun h => ⟨h.delimited, h.arguments, h.name, h.body⟩⟩

def declared (i : NodeId) : NodeId :=
  if (t.node i).kind == .exportStatement then (t.childByField? i "declaration").getD i else i

variable {t} {i j x : Nat}

theorem mem_declarations : i ∈ t.declarations ↔ ∃ c ∈ t.significantChildren root, t.declared c = i := List.mem_map

theorem below_declared (i : Nat) : t.Below i (t.declared i) := by
  rw [declared]
  split
  · cases hc : t.childByField? i "declaration" with
    | none => exact .self
    | some c => exact .child .self (List.mem_of_find?_eq_some hc)
  · exact .self

theorem Linked.declarations_apart (h : t.Linked) (hi : i ∈ t.declarations) (hj : j ∈ t.declarations)
    (hix : t.Below i x) (hjx : t.Below j x) : i = j := by
  obtain ⟨c, hc, rfl⟩ := mem_declarations.mp hi
  obtain ⟨d, hd, rfl⟩ := mem_declarations.mp hj
  have hcm := (mem_significantChildren.mp hc).1
  have hdm := (mem_significantChildren.mp hd).1
  -- Both statements are above `x`, so they are the same one.
  rcases h.below_or_below (h.lt_size_of_mem hcm) (h.lt_size_of_mem hdm) ((below_declared c).trans hix)
    ((below_declared d).trans hjx) with hb | hb
  · rw [h.eq_of_siblings hcm hdm hb]
  · rw [h.eq_of_siblings hdm hcm hb]

end Syntax.SyntaxTree

namespace Removal

variable {t t' : SyntaxTree} {setup i x : Nat} {stale : List String} {origin : NodeId → NodeId}

def plannedSpans (t : SyntaxTree) (setup : NodeId) (stale : List String) : List Span :=
  (plan t setup stale .listAware).map (·.span)

theorem mem_plannedSpans {s : Span} :
    s ∈ plannedSpans t setup stale ↔
      ∃ n ∈ removedNodes t setup stale, listAwareSpan t (isRemoved t setup stale) n = s := by
  rw [plannedSpans, plan_spans]
  exact List.mem_map

section Lost

variable (h : t.Orderly) (hwf : t.WellFormed)
include h hwf

theorem untouched_apart (hdel : t.Delimited setup) (hk : (t.node setup).kind = .functionDeclaration)
    (hx : x < t.nodes.size) (hout : ¬t.Below setup x) (hover : ¬t.Below x setup) :
    Untouched t (plannedSpans t setup stale) x := by
  intro s hs
  refine Bool.eq_false_iff.mpr fun htouch => ?_
  rw [Span.touches_iff] at htouch
  obtain ⟨r, hr, rfl⟩ := List.mem_map.mp hs
  have hin := plan_span_inside h hwf.toNamed hdel hk hr
  rcases h.below_or_before hx (lt_size_of_kind (by simp [hk]) : setup < _) with hb | hb | hb | hb
  · exact hover hb
  · exact hout hb
  · have hle := h.stop_le_start hb
    omega
  · have hle := h.stop_le_start hb
    omega

theorem isLost_of_mem {n : Nat} (hn : n ∈ removedNodes t setup stale) (hb : t.Below n i) :
    isLost t (plannedSpans t setup stale) i = true := by
  have hcover := listAwareSpan_covers h (isRemoved t setup stale) (isTarget_of_mem h hwf.toNamed hn).isItem.not_trivia
  exact List.any_eq_true.mpr ⟨_, mem_plannedSpans.mpr ⟨n, hn, rfl⟩, covers_of_below h hcover hb⟩

theorem isLost_name_iff (hk : (t.node i).kind = .identifier) :
    isLost t (plannedSpans t setup stale) i = true ↔ ∃ n ∈ removedNodes t setup stale, t.Below n i := by
  constructor
  · intro hlost
    obtain ⟨s, hs, hcover⟩ := List.any_eq_true.mp hlost
    obtain ⟨n, hn, rfl⟩ := mem_plannedSpans.mp hs
    exact ⟨n, hn, (touches_name_iff h hwf .listAware hk hn).mp (Span.touches_of_covers hcover (hwf.name_nonempty hk))⟩
  · rintro ⟨n, hn, hb⟩
    exact isLost_of_mem h hwf hn hb

theorem untouched_name (hk : (t.node i).kind = .identifier) (hkept : isLost t (plannedSpans t setup stale) i = false) :
    Untouched t (plannedSpans t setup stale) i := by
  intro s hs
  obtain ⟨n, hn, rfl⟩ := mem_plannedSpans.mp hs
  refine Bool.eq_false_iff.mpr fun htouch => ?_
  have hb := (touches_name_iff h hwf .listAware hk hn).mp htouch
  simp [isLost_of_mem h hwf hn hb] at hkept

end Lost

theorem exists_stale_of_mem (h : t.Linked) {n : Nat} (hn : n ∈ removedNodes t setup stale) : ∃ name, name ∈ stale := by
  rcases (mem_removedNodes h).mp hn with ⟨_, _, _, _, name, _, hname⟩ | hu
  · exact ⟨name, hname⟩
  · exact ⟨_, hu.mem_stale⟩

section Found

variable (h : t.Orderly) (hwf : t.WellFormed) (hbr : t.Bracketed setup)
include h hwf hbr

theorem isLost_function_name {c : NodeId} (hc : t.childByField? setup "name" = some c) (hfresh : t.textOf c ∉ stale) :
    isLost t (plannedSpans t setup stale) c = false := by
  have hname := hbr.name c hc
  refine Bool.eq_false_iff.mpr fun hlost => ?_
  obtain ⟨n, hn, hb⟩ := (isLost_name_iff h hwf hname).mp hlost
  rcases (mem_removedNodes h.toLinked).mp hn with hd | hu
  · -- The statement is below the body, and the name is not.
    obtain ⟨body, hbody, hdb, hkd, _⟩ := hd
    rcases (h.below_child_iff (List.mem_of_find?_eq_some hc)).mp hb with rfl | hb
    · simp [hname] at hkd
    · have hlt := h.lt_of_mem (List.mem_of_find?_eq_some hbody)
      have hlt' := h.lt_of_mem (SyntaxTree.mem_significantChildren.mp hdb).1
      have hle := h.le_of_below hb
      omega
  · obtain rfl := hwf.name_not_nested hu.name (h.mem_descendants.mpr hb) hname
    exact hfresh hu.mem_stale

theorem text_functions (hr : Remains t setup (plannedSpans t setup stale) t' origin) {c : NodeId}
    (hc : (setup, c) ∈ t.functions) (hfresh : t.textOf c ∉ stale) :
    ∀ f ∈ t'.functions, t'.textOf f.2 = t.textOf (origin f.2) := by
  obtain ⟨hdecl, hk, hname⟩ := SyntaxTree.mem_functions.mp hc
  intro f hf
  have hmem : (origin f.1, origin f.2) ∈ t.functions := hr.functions ▸ List.mem_map_of_mem hf
  obtain ⟨hdecl', _, hname'⟩ := SyntaxTree.mem_functions.mp hmem
  refine hr.text f hf ?_
  by_cases hsame : origin f.1 = setup
  · -- The name of the function itself is not stale.
    rw [hsame] at hname'
    obtain rfl := Option.some.inj (hname.symm.trans hname')
    exact untouched_name h hwf (hbr.name _ hname) (isLost_function_name h hwf hbr hname hfresh)
  · -- The names of other functions are elsewhere.
    have hchild := List.mem_of_find?_eq_some hname'
    refine untouched_apart h hwf hbr.delimited hk (h.lt_size_of_mem hchild) (fun hb => hsame ?_) fun hb => hsame ?_
    · exact h.declarations_apart hdecl' hdecl (.child .self hchild) hb
    · exact h.declarations_apart hdecl' hdecl ((SyntaxTree.Below.child .self hchild).trans hb) .self

theorem findSetup_again {start : String} {f : SetupFunction} (hnode : f.node = setup)
    (hr : Remains t setup (plannedSpans t setup stale) t' origin) (hf : t.findSetup? start = some f)
    (hfresh : f.name ∉ stale) :
    ∃ g ∈ t'.functions, t'.findSetup? start = some ⟨g.1, f.name⟩ ∧ origin g.1 = setup := by
  rw [SyntaxTree.findSetup?_eq, ← hr.functions, List.findSome?_map] at hf
  obtain ⟨pre, g, post, hsplit, hg, hpre⟩ := List.findSome?_eq_some_iff.mp hf
  have hmem : g ∈ t'.functions := by simp [hsplit]
  dsimp only [Function.comp, Prod.map] at hg hpre
  split at hg
  · next hfits =>
      cases hg
      dsimp only at hnode hfresh
      have hold : (setup, origin g.2) ∈ t.functions := hnode ▸ hr.functions ▸ List.mem_map_of_mem hmem
      have htext := text_functions h hwf hbr hr hold hfresh
      refine ⟨g, hmem, ?_, hnode⟩
      rw [SyntaxTree.findSetup?_eq, List.findSome?_eq_some_iff]
      refine ⟨pre, g, post, hsplit, by rw [htext g hmem, if_pos hfits], fun x hx => ?_⟩
      have hno := hpre x hx
      rw [htext x (by simp [hsplit, hx])]
      split at hno
      · cases hno
      · next hnot => rw [if_neg hnot]
  · cases hg

variable (hk : (t.node setup).kind = .functionDeclaration)
include hk

theorem isLost_arguments {className : String} {inst arguments : NodeId} {desired : List Dependency}
    (hfound : t.findInstantiation? setup className = some inst)
    (hstale : stale = staleNames (t.wiredNames inst) desired)
    (hfirst : t.arguments? inst = some arguments)
    (hout : ∀ d, IsStaleStatement t setup stale d → ¬t.Below d inst) :
    isLost t (plannedSpans t setup stale) arguments = false := by
  have hw : Wiring t setup className inst arguments := ⟨hk, hbr.body, hfound, hfirst⟩
  have hkind : (t.node arguments).kind = .argumentList := by simpa using List.find?_some hfirst
  have hbelow := (hw.below_setup h.toLinked).trans (hw.below_inst h.toLinked)
  have hdel := hbr.arguments arguments (h.mem_descendants.mpr hbelow) hkind
  have hsize : arguments < t.nodes.size := lt_size_of_kind (by simp [hkind])
  refine List.any_eq_false.mpr fun s hs hcover => ?_
  obtain ⟨n, hn, rfl⟩ := mem_plannedSpans.mp hs
  have htarget := isTarget_of_mem h hwf.toNamed hn
  -- Something is stale, so there is a name among the arguments.
  obtain ⟨name, hname⟩ := exists_stale_of_mem h.toLinked hn
  rw [hstale] at hname
  obtain ⟨a, ha, x, hax, hkx, _⟩ := h.mem_wiredNames.mp (mem_staleNames.mp hname).1
  obtain rfl := Option.some.inj (hfirst.symm.trans ha)
  have hrange := h.range_of_below hax
  have hpos := hwf.name_nonempty hkx
  rcases cases_of_touches h htarget.isItem.not_trivia (by simp [SyntaxTree.isTrivia, hkind, Kind.isTrivia])
    htarget.lt_size hsize (outsideCommas_of_named hwf.toNamed n arguments)
    (Span.touches_of_covers hcover (by omega)) with hb | hb | htakes
  · rcases (mem_removedNodes h.toLinked).mp hn with hd | hu
    · exact hw.arguments_outside h.toLinked hd (hout n hd) hb
    · obtain rfl := hwf.name_not_nested hu.name (h.mem_descendants.mpr (hb.trans hax)) hkx
      obtain rfl := Nat.le_antisymm (h.le_of_below hax) (h.le_of_below hb)
      simp [hkind] at hkx
  · have hin := (spanOf_inside h hdel hsize htarget hb .listAware (isRemoved t setup stale)).2.2
    rw [spanOf, hcover] at hin
    cases hin
  · have hcomma := htakes.1
    simp [isComma, hkind] at hcomma

/-- Without arguments nothing is wired, so nothing is stale. -/
theorem isLost_instantiation {className : String} {inst : NodeId} {desired : List Dependency}
    (hfound : t.findInstantiation? setup className = some inst)
    (hstale : stale = staleNames (t.wiredNames inst) desired)
    (hout : ∀ d, IsStaleStatement t setup stale d → ¬t.Below d inst) :
    isLost t (plannedSpans t setup stale) inst = false := by
  cases hfirst : t.arguments? inst with
  | none =>
      have hnil : stale = [] := by
        rw [hstale, SyntaxTree.wiredNames, ← SyntaxTree.arguments?, hfirst]
        rfl
      simp [hnil, isLost, plannedSpans, plan]
  | some arguments =>
      have hlost := isLost_arguments h hwf hbr hk hfound hstale hfirst hout
      exact isLost_above h hlost (h.mem_descendants.mp (List.mem_of_find?_eq_some hfirst))

end Found

section Again

variable (h : t.Orderly) (hwf : t.WellFormed) {stale' : List String} {s' : Nat}
  (hr : RemainsIn t (plannedSpans t setup stale) t' origin s') (h' : t'.Linked)
include h hwf hr h'

theorem text_name {u : NodeId} (hu : t'.Below s' u) (hname : (t'.node u).kind = .identifier) :
    t.Below (origin s') (origin u) ∧ (t.node (origin u)).kind = .identifier ∧
      isLost t (plannedSpans t setup stale) (origin u) = false ∧ t'.textOf u = t.textOf (origin u) := by
  have hw := h'.mem_watched_of_name hu hname
  obtain ⟨hold, hlost⟩ := hr.mem_watched List.mem_cons_self hw
  have hname' : (t.node (origin u)).kind = .identifier := hr.kind u hw ▸ hname
  exact ⟨(h.mem_watched.mp hold).1, hname', hlost, hr.text u hw hname (untouched_name h hwf hname' hlost)⟩

variable (horigin : origin s' = setup) (hsub : stale' ⊆ stale)
include horigin hsub

/-- A statement that is stale the second time was stale the first time too, and went away. -/
theorem not_isStaleStatement {d : Nat} : ¬IsStaleStatement t' s' stale' d := by
  rintro ⟨body, hbody, hdb, hkd, name, hname, hstale⟩
  obtain ⟨hold, hlost, hnames⟩ := hr.statements d (SyntaxTree.mem_variableStatements.mpr ⟨body, hbody, hdb, hkd⟩)
  rw [SyntaxTree.declaredNames_eq] at hname
  obtain ⟨x, hx, rfl⟩ := List.mem_map.mp hname
  obtain ⟨hdx, hkx⟩ := SyntaxTree.mem_declaredNodes hx
  have hbelow : t'.Below s' d :=
    .child (.child .self (List.mem_of_find?_eq_some hbody)) (SyntaxTree.mem_significantChildren.mp hdb).1
  obtain ⟨_, _, _, htext⟩ := text_name h hwf hr h' (hbelow.trans hdx) hkx
  rw [horigin] at hold
  obtain ⟨body', hbody', hdb', hkd'⟩ := SyntaxTree.mem_variableStatements.mp hold
  have hdecl : t'.textOf x ∈ declaredNames t (origin d) := by
    rw [SyntaxTree.declaredNames_eq, htext]
    exact List.mem_map_of_mem (hnames x hx)
  have hgone : IsStaleStatement t setup stale (origin d) := ⟨body', hbody', hdb', hkd', _, hdecl, hsub hstale⟩
  rw [isLost_of_mem h hwf ((mem_removedNodes h.toLinked).mpr (Or.inl hgone)) .self] at hlost
  cases hlost

/-- A name that was left the first time is the name in a declaration, and it still is. -/
theorem not_isStaleUsage {u : Nat} : ¬IsStaleUsage t' s' stale' u := by
  intro hu
  obtain ⟨hbelow, hname, hlost, htext⟩ := text_name h hwf hr h' hu.below hu.name
  rw [horigin] at hbelow
  have hstale : t.textOf (origin u) ∈ stale := htext ▸ hsub hu.mem_stale
  have hdecl : IsKeptName t setup stale (origin u) := by
    by_contra hnot
    obtain ⟨n, hn, hb⟩ := exists_removed_above h hbelow hname hstale hnot
    simp [isLost_of_mem h hwf hn hb] at hlost
  have hnot := hu.not_declared
  rw [hr.declared u (h'.mem_watched_of_name hu.below hu.name) hu.name, hdecl.1] at hnot
  cases hnot

theorem removedNodes_again : removedNodes t' s' stale' = [] :=
  List.eq_nil_iff_forall_not_mem.mpr fun _ hn =>
    ((mem_removedNodes h').mp hn).elim (not_isStaleStatement h hwf hr h' horigin hsub)
      (not_isStaleUsage h hwf hr h' horigin hsub)

end Again

end Removal

theorem UpdatePlan.ofTree_again {t t' : SyntaxTree} {path className : String} {desired : List Dependency}
    {config : Config} {setup : SetupFunction} {inst : NodeId} {stale : List String} {origin : NodeId → NodeId}
    (h : t.Orderly) (h' : t'.Linked) (hwf : t.WellFormed) (hbr : t.Bracketed setup.node)
    (hsetup : t.findSetup? config.setupPrefix = some setup)
    (hinst : t.findInstantiation? setup.node className = some inst)
    (hstale : stale = staleNames (t.wiredNames inst) desired) (hname : setup.name ∉ stale)
    (hout : ∀ d, Removal.IsStaleStatement t setup.node stale d → ¬t.Below d inst)
    (hr : Removal.Remains t setup.node (Removal.plannedSpans t setup.node stale) t' origin)
    (hmention : ∀ setup', t'.findSetup? config.setupPrefix = some setup' →
      ∀ i ∈ t'.descendants setup'.node, (t'.node i).kind = .newExpression →
        Text.occursIn className.toList (t'.textOf i).toList =
          Text.occursIn className.toList (t.textOf (origin i)).toList) :
    ∃ again, ofTree t' path desired className config = .ok again ∧ again.setup = setup.name ∧ again.edits = [] := by
  have hk := SyntaxTree.findSetup_kind hsetup
  have hkept := Removal.isLost_instantiation h hwf hbr hk hinst hstale hout
  obtain ⟨g, hg, hsetup', horigin⟩ := Removal.findSetup_again h hwf hbr rfl hr hsetup hname
  have hin := hr.inside g hg horigin
  obtain ⟨inst', hw, hinst', hio⟩ := hin.findInstantiation?
    (fun x hx => hmention _ hsetup' x (List.mem_filter.mp hx).1) (horigin.symm ▸ hinst) hkept
  have hwired : t'.wiredNames inst' ⊆ t.wiredNames inst := by
    rw [← hio]
    refine hin.wiredNames_subset h' hw h.toLinked (fun a ha => ?_) fun x => Removal.untouched_name h hwf
    exact Removal.isLost_arguments h hwf hbr hk hinst hstale (hio ▸ ha) hout
  -- What is wired the second time was wired the first time, so nothing new is stale.
  have hsub : staleNames (t'.wiredNames inst') desired ⊆ stale := by
    intro name hmem
    rw [hstale, mem_staleNames]
    exact (mem_staleNames.mp hmem).imp_left fun hw => hwired hw
  refine ⟨_, ofTree_eq_ok_iff.mpr ⟨_, inst', hsetup', hinst', rfl⟩, rfl, ?_⟩
  rw [ofWiring, (Removal.plan_eq_nil_iff _).mpr (Removal.removedNodes_again h hwf hin h' horigin hsub)]
  rfl

/-- Once an update has been carried out, the same update removes nothing, if what it looks at in the text that is left is
read as what is left of it. It has to find the function and the instantiation again: the function keeps its name, no
removed statement holds the instantiation, and no `new` expression of the function gains or loses its mention of the
class. -/
theorem update_again_removes_nothing (reader : Reader) (path text className : String) (desired : List Dependency)
    (config : Config) (hlist : config.separators = .listAware) (plan : UpdatePlan) (setup : SetupFunction) (inst : NodeId)
    (hwf : (SyntaxTree.read reader path text).WellFormed)
    (hbr : (SyntaxTree.read reader path text).Bracketed setup.node)
    (hplan : UpdatePlan.make reader path text desired className config = .ok plan)
    (hsetup : (SyntaxTree.read reader path text).findSetup? config.setupPrefix = some setup)
    (hinst : (SyntaxTree.read reader path text).findInstantiation? setup.node className = some inst)
    (hname : setup.name ∉ plan.stale)
    (hout : ∀ d, Removal.IsStaleStatement (.read reader path text) setup.node plan.stale d →
      ¬(SyntaxTree.read reader path text).Below d inst) :
    let t := SyntaxTree.read reader path text
    let spans := (Removal.plan t setup.node plan.stale config.separators).map (·.span)
    ∃ left, applyEdits text plan.edits = .ok left ∧
      let t' := SyntaxTree.read reader path left
      ∀ origin, Removal.Remains t setup.node spans t' origin →
        (∀ setup', t'.findSetup? config.setupPrefix = some setup' →
          ∀ i ∈ t'.descendants setup'.node, (t'.node i).kind = .newExpression →
            Text.occursIn className.toList (t'.textOf i).toList =
              Text.occursIn className.toList (t.textOf (origin i)).toList) →
        ∃ again, UpdatePlan.make reader path left desired className config = .ok again ∧ again.setup = plan.setup ∧
          again.edits = [] := by
  intro t spans
  have h : t.Orderly := hwf.toNested.orderly
  obtain ⟨_, _, hsetup', hinst', rfl⟩ := UpdatePlan.ofTree_eq_ok_iff.mp hplan
  obtain rfl := Option.some.inj (hsetup.symm.trans hsetup')
  obtain rfl := Option.some.inj (hinst.symm.trans hinst')
  refine ⟨_, Removal.applyEdits_plan h hwf path text rfl _ _ _, ?_⟩
  intro t' origin hr hmention
  simp only [spans, hlist] at hr
  exact UpdatePlan.ofTree_again h (SyntaxTree.ofParse_linked _ _) hwf hbr hsetup hinst rfl hname hout hr hmention

def leftText : String := "function f() \x7b \x7b let b; \x7d new C( d /* é */); \x7d"

def leftTree : Parse.ParseTree where
  root := .node "program" none 0 47 [
    .node "function_declaration" none 0 47 [
      .node "function" none 0 8 [],
      .node "identifier" (some "name") 9 10 [],
      .node "formal_parameters" (some "parameters") 10 12 [.node "(" none 10 11 [], .node ")" none 11 12 []],
      .node "statement_block" (some "body") 13 47 [
        .node "\x7b" none 13 14 [],
        .node "statement_block" none 15 25 [
          .node "\x7b" none 15 16 [],
          .node "lexical_declaration" none 17 23 [
            .node "let" (some "kind") 17 20 [],
            .node "variable_declarator" none 21 22 [.node "identifier" (some "name") 21 22 []],
            .node ";" none 22 23 []],
          .node "\x7d" none 24 25 []],
        .node "expression_statement" none 26 45 [
          .node "new_expression" none 26 44 [
            .node "new" none 26 29 [],
            .node "identifier" (some "constructor") 30 31 [],
            .node "arguments" (some "arguments") 31 44 [
              .node "(" none 31 32 [],
              .node "identifier" none 33 34 [],
              .node "comment" none 35 43 [],
              .node ")" none 43 44 []]],
          .node ";" none 44 45 []],
        .node "\x7d" none 46 47 []]]]
  faulty := false

def leftOrigin (i : NodeId) : NodeId :=
  [0, 1, 2, 3, 4, 5, 6, 7, 8, 16, 17, 18, 19, 20, 21, 22, 23, 24, 25, 26, 27, 28, 29, 32, 33, 36, 37, 38].getD i 0

def leftReader : Reader := fun _ text => if text = Removal.setupText then Removal.setupTree else leftTree

theorem read_setup :
    SyntaxTree.read leftReader "f.ts" Removal.setupText = .ofParse Removal.setupText Removal.setupTree := by
  rw [SyntaxTree.read, leftReader, if_pos rfl]

theorem read_left : SyntaxTree.read leftReader "f.ts" leftText = .ofParse leftText leftTree := by
  rw [SyntaxTree.read, leftReader, if_neg (by decide)]

theorem setup_spans :
    (Removal.plan (.ofParse Removal.setupText Removal.setupTree) 1 ["a", "b"] .listAware).map (·.span) =
      [⟨14, 25⟩, ⟨43, 45⟩, ⟨56, 59⟩] := by
  rw [Removal.plan_spans]
  decide +kernel

theorem setup_wiring :
    let t := SyntaxTree.ofParse Removal.setupText Removal.setupTree
    t.WellFormed ∧ t.Bracketed 1 ∧ t.findSetup? "f" = some ⟨1, "f"⟩ ∧
      t.findInstantiation? 1 "C" = some 25 ∧ staleNames (t.wiredNames 25) [⟨"d", none⟩] = ["a", "b"] ∧
      ∀ d, Removal.IsStaleStatement t 1 ["a", "b"] d → ¬t.Below d 25 := by
  intro t
  have hwf : t.WellFormed := by decide +kernel
  exact ⟨hwf, by decide +kernel, by decide +kernel, by decide +kernel, by decide +kernel,
    (Removal.outside_iff hwf.toNested.orderly.toLinked).mp (by decide +kernel)⟩

theorem setup_patched (path : String) :
    let t := SyntaxTree.ofParse Removal.setupText Removal.setupTree
    applyEdits Removal.setupText ((Removal.plan t 1 ["a", "b"] .listAware).map (Edit.ofRemoval path t)) =
      .ok leftText := by
  intro t
  have htaken : Removal.isTaken (Removal.plan t 1 ["a", "b"] .listAware) =
      fun n => [⟨14, 25⟩, ⟨43, 45⟩, ⟨56, 59⟩].any fun s : Span => s.start ≤ n && n < s.stop := by
    funext n
    rw [Removal.isTaken_eq_any_span, setup_spans]
  have hwf := setup_wiring.1
  rw [Removal.applyEdits_plan hwf.toNested.orderly hwf path Removal.setupText rfl, htaken]
  decide +kernel

theorem left_functions : (SyntaxTree.ofParse leftText leftTree).functions = [(1, 3)] := by decide +kernel

theorem setup_remains :
    Removal.Remains (.ofParse Removal.setupText Removal.setupTree) 1 [⟨14, 25⟩, ⟨43, 45⟩, ⟨56, 59⟩]
      (.ofParse leftText leftTree) leftOrigin := by
  refine ⟨by decide +kernel, by decide +kernel, fun f hf _ => ?_⟩
  rw [left_functions] at hf
  obtain rfl := List.mem_singleton.mp hf
  exact ⟨by decide +kernel, by decide +kernel, by decide +kernel, by decide +kernel, by decide +kernel⟩

theorem setup_mentions :
    let t := SyntaxTree.ofParse Removal.setupText Removal.setupTree
    let t' := SyntaxTree.ofParse leftText leftTree
    ∀ setup', t'.findSetup? "f" = some setup' →
      ∀ i ∈ t'.descendants setup'.node, (t'.node i).kind = .newExpression →
        Text.occursIn "C".toList (t'.textOf i).toList = Text.occursIn "C".toList (t.textOf (leftOrigin i)).toList := by
  intro t t' setup' hsetup'
  have hfound : t'.findSetup? "f" = some ⟨1, "f"⟩ := by decide +kernel
  obtain rfl := Option.some.inj (hfound.symm.trans hsetup')
  decide +kernel

theorem setup_again_removes_nothing :
    let config : Config := ⟨"f", .listAware⟩
    ∃ plan, UpdatePlan.make leftReader "f.ts" Removal.setupText [⟨"d", none⟩] "C" config = .ok plan ∧
      plan.stale = ["a", "b"] ∧ applyEdits Removal.setupText plan.edits = .ok leftText ∧
      ∃ again, UpdatePlan.make leftReader "f.ts" leftText [⟨"d", none⟩] "C" config = .ok again ∧ again.edits = [] := by
  intro config
  have hread := read_setup
  have hread' := read_left
  have hspans := setup_spans
  have hpatched := setup_patched "f.ts"
  have hremains := setup_remains
  have hmention := setup_mentions
  obtain ⟨hwf, hbr, hsetup, hinst, hstale, hout⟩ := setup_wiring
  generalize SyntaxTree.ofParse Removal.setupText Removal.setupTree = t at *
  generalize SyntaxTree.ofParse leftText leftTree = t' at *
  subst hread hread'
  have hplan : UpdatePlan.make leftReader "f.ts" Removal.setupText [⟨"d", none⟩] "C" config =
      .ok (.ofWiring (.read leftReader "f.ts" Removal.setupText) "f.ts" [⟨"d", none⟩] .listAware ⟨1, "f"⟩ 25) :=
    UpdatePlan.ofTree_eq_ok_iff.mpr ⟨⟨1, "f"⟩, 25, hsetup, hinst, rfl⟩
  rw [UpdatePlan.ofWiring, hstale] at hplan
  obtain ⟨left, hleft, hagain⟩ := update_again_removes_nothing leftReader "f.ts" Removal.setupText "C" [⟨"d", none⟩]
    config rfl _ ⟨1, "f"⟩ 25 hwf hbr hplan hsetup hinst (by decide) hout
  obtain rfl := Except.ok.inj (hpatched.symm.trans hleft)
  obtain ⟨again, hmake, _, hedits⟩ := hagain leftOrigin (hspans ▸ hremains) hmention
  exact ⟨_, hplan, rfl, hpatched, again, hmake, hedits⟩

end Unwire
