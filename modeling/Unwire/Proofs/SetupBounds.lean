import Unwire.Proofs.KeptText
import Unwire.Proofs.StaleReferences
import Unwire.UpdatePlan

namespace Unwire

open Syntax

namespace Syntax.SyntaxTree

variable (t : SyntaxTree)

def isLeaf (i : NodeId) : Bool := (t.children i).isEmpty

def firstLeaf? (i : NodeId) : Option NodeId := (t.descendants i).find? t.isLeaf

def lastLeaf? (i : NodeId) : Option NodeId := ((t.descendants i).filter t.isLeaf).getLast?

def IsFree (i l : NodeId) : Prop :=
  ∀ x ∈ t.descendants i, (t.node x).kind = .identifier ∨ (t.node x).kind = .variableStatement → l ∉ t.descendants x

/-- A node starts with a token and ends with a token or a comment, and both are in none of its names and variable
statements. -/
structure Delimited (i : NodeId) : Prop where
  first : ∀ f ∈ t.firstLeaf? i, t.isTrivia f = false ∧ (t.node f).start < (t.node f).stop ∧ t.IsFree i f
  last : ∀ g ∈ t.lastLeaf? i, (t.node g).start < (t.node g).stop ∧ t.IsFree i g

section Decidable

instance (i l : NodeId) : Decidable (t.IsFree i l) :=
  inferInstanceAs (Decidable (∀ x ∈ t.descendants i, _ → l ∉ t.descendants x))

instance (i : NodeId) : Decidable (t.Delimited i) :=
  decidable_of_iff
    ((∀ f ∈ t.firstLeaf? i, t.isTrivia f = false ∧ (t.node f).start < (t.node f).stop ∧ t.IsFree i f) ∧
      ∀ g ∈ t.lastLeaf? i, (t.node g).start < (t.node g).stop ∧ t.IsFree i g)
    ⟨fun h => ⟨h.1, h.2⟩, fun h => ⟨h.first, h.last⟩⟩

end Decidable

variable {t} {i f x l : Nat}

namespace Linked

variable (h : t.Linked)
include h

theorem firstLeaf_spec (hf : t.firstLeaf? i = some f) :
    t.Below i f ∧ t.children f = [] ∧ ∀ l : Nat, t.Below i l → t.children l = [] → f ≤ l := by
  obtain ⟨hleaf, pre, post, hsplit, hpre⟩ := List.find?_eq_some_iff_append.mp hf
  have hlt := h.descendants_lt i
  rw [hsplit] at hlt
  refine ⟨h.mem_descendants.mp (by simp [hsplit]), by simpa [isLeaf] using hleaf, fun l hl hll => ?_⟩
  have hmem := h.mem_descendants.mpr hl
  rw [hsplit] at hmem
  rcases List.mem_append.mp hmem with hmem | hmem
  · exact absurd (hpre l hmem) (by simp [isLeaf, hll])
  · rcases List.mem_cons.mp hmem with rfl | hmem
    · exact Nat.le_refl _
    · exact Nat.le_of_lt ((List.pairwise_cons.mp (List.pairwise_append.mp hlt).2.1).1 l hmem)

theorem lastLeaf_spec (hf : t.lastLeaf? i = some f) :
    t.Below i f ∧ t.children f = [] ∧ ∀ l : Nat, t.Below i l → t.children l = [] → l ≤ f := by
  obtain ⟨pre, hsplit⟩ := List.getLast?_eq_some_iff.mp hf
  have hlt := (h.descendants_lt i).filter t.isLeaf
  rw [hsplit] at hlt
  have hmem : f ∈ (t.descendants i).filter t.isLeaf := by simp [hsplit]
  obtain ⟨hdesc, hleaf⟩ := List.mem_filter.mp hmem
  refine ⟨h.mem_descendants.mp hdesc, by simpa [isLeaf] using hleaf, fun l hl hll => ?_⟩
  have hl : l ∈ (t.descendants i).filter t.isLeaf :=
    List.mem_filter.mpr ⟨h.mem_descendants.mpr hl, by simp [isLeaf, hll]⟩
  rw [hsplit] at hl
  rcases List.mem_append.mp hl with hl | hl
  · exact Nat.le_of_lt ((List.pairwise_append.mp hlt).2.2 l hl f (by simp))
  · exact Nat.le_of_eq (List.mem_singleton.mp hl)

theorem before_or_before (hleaf : t.children f = []) (hf : f < t.nodes.size) (hx : x < t.nodes.size)
    (hout : ¬t.Below x f) : t.Before f x ∨ t.Before x f := by
  rcases h.below_or_before hf hx with hfx | hxf | hfx | hxf
  · exact absurd (eq_of_below_leaf hleaf hfx ▸ .self) hout
  · exact absurd hxf hout
  · exact Or.inl hfx
  · exact Or.inr hxf

theorem firstLeaf_before (hf : t.firstLeaf? i = some f) (hi : i < t.nodes.size) (hx : t.Below i x)
    (hout : ¬t.Below x f) : t.Before f x := by
  obtain ⟨hb, hleaf, hfirst⟩ := h.firstLeaf_spec hf
  refine (h.before_or_before hleaf (h.lt_size_of_below hb hi) (h.lt_size_of_below hx hi) hout).resolve_right ?_
  intro hxf
  obtain ⟨l, hl, hll⟩ := h.exists_leaf_below x
  have hlt := h.lt_of_before (hxf.below_left hl)
  exact absurd (hfirst l (hx.trans hl) hll) (Nat.not_le.mpr hlt)

theorem before_lastLeaf (hf : t.lastLeaf? i = some f) (hi : i < t.nodes.size) (hx : t.Below i x)
    (hout : ¬t.Below x f) : t.Before x f := by
  obtain ⟨hb, hleaf, hlast⟩ := h.lastLeaf_spec hf
  refine (h.before_or_before hleaf (h.lt_size_of_below hb hi) (h.lt_size_of_below hx hi) hout).resolve_left ?_
  intro hfx
  obtain ⟨l, hl, hll⟩ := h.exists_leaf_below x
  have hlt := h.lt_of_before (hfx.below_right hl)
  exact absurd (hlast l (hx.trans hl) hll) (Nat.not_le.mpr hlt)

theorem exists_firstLeaf (i : NodeId) : ∃ f, t.firstLeaf? i = some f := by
  obtain ⟨l, hl, hleaf⟩ := h.exists_leaf_below i
  exact Option.isSome_iff_exists.mp (List.find?_isSome.mpr ⟨l, h.mem_descendants.mpr hl, by simp [isLeaf, hleaf]⟩)

theorem exists_lastLeaf (i : NodeId) : ∃ f, t.lastLeaf? i = some f := by
  obtain ⟨l, hl, hleaf⟩ := h.exists_leaf_below i
  have hmem : l ∈ (t.descendants i).filter t.isLeaf :=
    List.mem_filter.mpr ⟨h.mem_descendants.mpr hl, by simp [isLeaf, hleaf]⟩
  exact ⟨_, List.getLast?_eq_some_getLast (List.ne_nil_of_mem hmem)⟩

end Linked

theorem setupFunction_eq_some_iff {start : String} {setup : SetupFunction} :
    t.setupFunction? start i = some setup ↔ (t.node i).kind = .functionDeclaration ∧
      ∃ c, t.childByField? i "name" = some c ∧ start.toList.isPrefixOf (t.textOf c).toList = true ∧
        setup = ⟨i, t.textOf c⟩ := by
  rw [setupFunction?]
  by_cases hk : (t.node i).kind = .functionDeclaration
  · cases hc : t.childByField? i "name" with
    | none => simp [hk]
    | some c => simp [hk, eq_comm (a := setup)]
  · simp [hk]

theorem findSetup_kind {start : String} {setup : SetupFunction} (hs : t.findSetup? start = some setup) :
    (t.node setup.node).kind = .functionDeclaration := by
  obtain ⟨i, _, hi⟩ := List.exists_of_findSome?_eq_some hs
  obtain ⟨hk, c, _, _, rfl⟩ := setupFunction_eq_some_iff.mp hi
  exact hk

end Syntax.SyntaxTree

namespace UpdatePlan

def ofWiring (t : SyntaxTree) (path : String) (desired : List Dependency) (policy : SeparatorPolicy)
    (setup : SetupFunction) (inst : NodeId) : UpdatePlan where
  setup := setup.name
  wired := t.wiredNames inst
  stale := staleNames (t.wiredNames inst) desired
  unwired := unwiredDependencies (t.wiredNames inst) desired
  edits := (Removal.plan t setup.node (staleNames (t.wiredNames inst) desired) policy).map (Edit.ofRemoval path t)

theorem ofTree_eq_ok_iff {t : SyntaxTree} {path className : String} {desired : List Dependency} {config : Config}
    {plan : UpdatePlan} :
    ofTree t path desired className config = .ok plan ↔
      ∃ setup inst, t.findSetup? config.setupPrefix = some setup ∧
        t.findInstantiation? setup.node className = some inst ∧
        plan = ofWiring t path desired config.separators setup inst := by
  rw [ofTree]
  cases hs : t.findSetup? config.setupPrefix with
  | none => simp
  | some setup =>
      cases hi : t.findInstantiation? setup.node className with
      | none => simp [hi]
      | some inst =>
          simp only [hi, Except.ok.injEq, Option.some.injEq, exists_and_left, exists_eq_left', ofWiring]
          exact eq_comm

theorem make_eq_ok {reader : Reader} {path text className : String} {desired : List Dependency} {config : Config}
    {t : SyntaxTree} {setup : SetupFunction} {inst : NodeId} (hread : SyntaxTree.read reader path text = t)
    (hsetup : t.findSetup? config.setupPrefix = some setup)
    (hinst : t.findInstantiation? setup.node className = some inst) :
    make reader path text desired className config = .ok (ofWiring t path desired config.separators setup inst) := by
  rw [make, hread]
  exact ofTree_eq_ok_iff.mpr ⟨setup, inst, hsetup, hinst, rfl⟩

end UpdatePlan

namespace Removal

variable {t : SyntaxTree} {setup i n : Nat} {stale : List String} {policy : SeparatorPolicy}

section

variable (h : t.Orderly)
include h

theorem below_of_mem_removedNodes (hn : n ∈ removedNodes t setup stale) : t.Below setup n := by
  rcases (mem_removedNodes h.toLinked).mp hn with ⟨body, hbody, hd, _⟩ | hu
  · exact .child (.child .self (List.mem_of_find?_eq_some hbody)) (SyntaxTree.mem_significantChildren.mp hd).1
  · exact hu.below

section Delimited

variable (hdel : t.Delimited i) (hi : i < t.nodes.size) (hn : IsTarget t n) (hb : t.Below i n)
include hdel hi hn hb

theorem strictly_inside : (t.node i).start < (t.node n).fullStart ∧ (t.node n).stop < (t.node i).stop := by
  obtain ⟨f, hf⟩ := h.exists_firstLeaf i
  obtain ⟨g, hg⟩ := h.exists_lastLeaf i
  obtain ⟨hft, hfpos, hffree⟩ := hdel.first f hf
  obtain ⟨hgpos, hgfree⟩ := hdel.last g hg
  have hmem := h.mem_descendants.mpr hb
  have hfn : t.Before f n := h.firstLeaf_before hf hi hb fun hnf => hffree n hmem hn.kind (h.mem_descendants.mpr hnf)
  have hng : t.Before n g := h.before_lastLeaf hg hi hb fun hng => hgfree n hmem hn.kind (h.mem_descendants.mpr hng)
  have hstart := (h.range_of_below (h.firstLeaf_spec hf).1).1
  have hstop := (h.range_of_below (h.lastLeaf_spec hg).1).2.1
  have hlead := h.stop_le_lead hfn hft
  have hend := h.stop_le_start hng
  omega

theorem neighbour_inside {c : NodeId} (hc : t.previous? n = some c ∨ t.next? n = some c) :
    (t.node i).start ≤ (t.node c).start ∧ (t.node c).stop ≤ (t.node i).stop := by
  have hne : n ≠ i := by
    rintro rfl
    exact Nat.lt_irrefl _ (strictly_inside h hdel hi hn hb).2
  obtain ⟨p, hp, hbp⟩ := (h.below_iff_parent.mp hb).resolve_left hne
  have hcp : c ∈ t.significantChildren p := by
    rcases hc with hc | hc
    · exact h.mem_of_previous hp hn.isItem.not_trivia hc
    · exact h.mem_of_next hp hn.isItem.not_trivia hc
  have hrange := h.range_of_below (hbp.child (SyntaxTree.mem_significantChildren.mp hcp).1)
  exact ⟨hrange.1, hrange.2.1⟩

/-- What goes away with a part of a node is inside of the node, and it is not all of it. -/
theorem spanOf_inside (policy : SeparatorPolicy) (removed : NodeId → Bool) :
    (t.node i).start ≤ (spanOf t policy removed n).start ∧ (spanOf t policy removed n).stop ≤ (t.node i).stop ∧
      (spanOf t policy removed n).covers (t.node i) = false := by
  obtain ⟨hstart, hstop⟩ := strictly_inside h hdel hi hn hb
  rw [Bool.eq_false_iff, Ne, Span.covers_iff]
  cases policy with
  | listAware =>
      rw [spanOf]
      rcases listAwareSpan_cases t removed n with he | ⟨c, hc, _, _, he⟩ | ⟨c, hc, _, _, he⟩
      · rw [he, fullSpan]
        dsimp only
        omega
      · have hin := neighbour_inside h hdel hi hn hb (Or.inl hc)
        rw [he]
        dsimp only
        omega
      · have hin := neighbour_inside h hdel hi hn hb (Or.inr hc)
        rw [he]
        dsimp only
        omega
  | nextChar =>
      rw [spanOf, nextCharSpan_eq]
      dsimp only
      split <;> omega

end Delimited

theorem plan_span_inside (hwf : t.Named) (hdel : t.Delimited setup) (hk : (t.node setup).kind = .functionDeclaration)
    {r : Removal} (hr : r ∈ plan t setup stale policy) :
    (t.node setup).start ≤ r.span.start ∧ r.span.stop ≤ (t.node setup).stop := by
  obtain ⟨n, hn, hspan⟩ := exists_node_of_mem_plan h.toLinked hr
  have hmem : n ∈ removedNodes t setup stale := (mem_removedNodes h.toLinked).mpr (hn.imp And.right And.right)
  have hin := spanOf_inside h hdel (lt_size_of_kind (by simp [hk])) (isTarget_of_mem h hwf hmem)
    (below_of_mem_removedNodes h hmem) policy (isRemoved t setup stale)
  rw [hspan]
  exact ⟨hin.1, hin.2.1⟩

theorem applyEdits_plan_inside (hwf : t.WellFormed) (hdel : t.Delimited setup) (path text : String)
    (htext : t.text = text.toList) (hk : (t.node setup).kind = .functionDeclaration) :
    ∃ before function after left, text.toList = before ++ function ++ after ∧
      Text.width before = (t.node setup).start ∧ Text.width (before ++ function) = (t.node setup).stop ∧
      applyEdits text ((plan t setup stale policy).map (Edit.ofRemoval path t)) =
        .ok (.ofList (before ++ left ++ after)) ∧
      Text.width left ≤ Text.width function := by
  obtain ⟨hstart, hstop⟩ := hwf.boundary setup
  obtain ⟨function, hslice, hwidth⟩ := Text.exists_slice hstart hstop (h.start_le_stop setup)
  obtain ⟨before, after, hsplit, hbefore, _⟩ := Text.slice?_eq_some_iff.mp hslice
  rw [htext] at hsplit
  rw [← hbefore, ← Text.width_append] at hwidth
  have hgone : ∀ n, isTaken (plan t setup stale policy) n = true →
      Text.width before ≤ n ∧ n < Text.width (before ++ function) := by
    intro n hn
    obtain ⟨r, hr, hle, hlt⟩ := isTaken_eq_true_iff.mp hn
    have hin := plan_span_inside h hwf.toNamed hdel hk hr
    omega
  generalize hg : isTaken (plan t setup stale policy) = gone at hgone
  have hfirst : Text.without gone 0 before = before :=
    Text.without_eq_self fun n _ hlt => Bool.eq_false_iff.mpr fun hn => by
      have := hgone n hn
      omega
  have hlast : Text.without gone (0 + Text.width (before ++ function)) after = after :=
    Text.without_eq_self fun n hle _ => Bool.eq_false_iff.mpr fun hn => by
      have := hgone n hn
      omega
  refine ⟨before, function, after, Text.without gone (0 + Text.width before) function, hsplit, hbefore, hwidth, ?_,
    Text.width_without_le _ _ _⟩
  rw [applyEdits_plan h hwf path text htext, hg, hsplit, Text.without_append, Text.without_append, hfirst, hlast]

theorem name_elsewhere (hwf : t.Named) (hk : (t.node setup).kind = .functionDeclaration)
    (hi : (t.node i).kind = .identifier) (hout : ¬t.Below setup i) (hn : n ∈ removedNodes t setup stale) :
    (t.node i).stop ≤ (t.node setup).start ∨ (t.node setup).stop ≤ (t.node i).start := by
  rcases h.below_or_before (lt_size_of_kind (by simp [hi] : (t.node i).kind ≠ .sourceFile))
    (lt_size_of_kind (by simp [hk] : (t.node setup).kind ≠ .sourceFile)) with hb | hb | hb | hb
  · -- A name around the function would hold what is removed, so it would be what is removed.
    have hbn := below_of_mem_removedNodes h hn
    obtain rfl := name_not_above h hwf hi hn (hb.trans hbn)
    exact absurd hbn hout
  · exact absurd hb hout
  · exact Or.inl (h.stop_le_start hb)
  · exact Or.inr (h.stop_le_start hb)

end

end Removal

/-- An update removes nothing outside of the setup function: the text before and after the function stays, what is left
of the function is not longer than it was, and no name elsewhere loses a byte. -/
theorem update_stays_inside_setup (reader : Reader) (path text className : String) (desired : List Dependency)
    (config : Config) (plan : UpdatePlan) (hwf : (SyntaxTree.read reader path text).WellFormed)
    (hdel : ∀ setup, (SyntaxTree.read reader path text).findSetup? config.setupPrefix = some setup →
      (SyntaxTree.read reader path text).Delimited setup.node)
    (hplan : UpdatePlan.make reader path text desired className config = .ok plan) :
    let t := SyntaxTree.read reader path text
    ∃ setup, t.findSetup? config.setupPrefix = some setup ∧ plan.setup = setup.name ∧
      (∀ e ∈ plan.edits, (t.node setup.node).start ≤ e.start ∧ e.start < e.stop ∧ e.stop ≤ (t.node setup.node).stop) ∧
      (∃ before function after left, text.toList = before ++ function ++ after ∧
        Text.width before = (t.node setup.node).start ∧
        Text.width (before ++ function) = (t.node setup.node).stop ∧
        applyEdits text plan.edits = .ok (.ofList (before ++ left ++ after)) ∧
        Text.width left ≤ Text.width function) ∧
      ∀ i, (t.node i).kind = .identifier → i ∉ t.descendants setup.node →
        ∀ e ∈ plan.edits, (t.node i).stop ≤ e.start ∨ e.stop ≤ (t.node i).start := by
  intro t
  have h : t.Orderly := hwf.toNested.orderly
  obtain ⟨setup, inst, hs, _, rfl⟩ := UpdatePlan.ofTree_eq_ok_iff.mp hplan
  have hk := SyntaxTree.findSetup_kind hs
  rw [UpdatePlan.ofWiring]
  generalize staleNames (t.wiredNames inst) desired = stale
  have hinside : ∀ r ∈ Removal.plan t setup.node stale config.separators, _ := fun r hr =>
    Removal.plan_span_inside h hwf.toNamed (hdel setup hs) hk hr
  refine ⟨setup, hs, rfl, ?_, ?_, ?_⟩
  · refine List.forall_mem_map.mpr fun r hr => ?_
    rw [Removal.ofRemoval_stop h hwf path hr]
    exact ⟨(hinside r hr).1, (Removal.plan_span_bounds h hwf hr).2.2, (hinside r hr).2⟩
  · exact Removal.applyEdits_plan_inside h hwf (hdel setup hs) path text rfl hk
  · intro i hi hout
    refine List.forall_mem_map.mpr fun r hr => ?_
    obtain ⟨n, hn, _⟩ := Removal.exists_node_of_mem_plan h.toLinked hr
    have hmem := (Removal.mem_removedNodes h.toLinked).mpr (hn.imp And.right And.right)
    rw [Removal.ofRemoval_stop h hwf path hr]
    have hbounds := hinside r hr
    rcases Removal.name_elsewhere h hwf.toNamed hk hi (fun hb => hout (h.mem_descendants.mpr hb)) hmem with hle | hle
    · exact Or.inl (Nat.le_trans hle hbounds.1)
    · exact Or.inr (Nat.le_trans hbounds.2 hle)

/-- A function that wires `a` and ends in a comment, between two statements that use `a` too. -/
def betweenText : String := "use(a); function f() \x7b let a; return new C(a, é); \x7d // end\nuse(a);"

def betweenTree : Parse.ParseTree where
  root := .node "program" none 0 67 [
    .node "expression_statement" none 0 7 [
      .node "call_expression" none 0 6 [
        .node "identifier" (some "function") 0 3 [],
        .node "arguments" (some "arguments") 3 6 [
          .node "(" none 3 4 [],
          .node "identifier" none 4 5 [],
          .node ")" none 5 6 []]],
      .node ";" none 6 7 []],
    .node "function_declaration" none 8 59 [
      .node "function" none 8 16 [],
      .node "identifier" (some "name") 17 18 [],
      .node "formal_parameters" (some "parameters") 18 20 [.node "(" none 18 19 [], .node ")" none 19 20 []],
      .node "statement_block" (some "body") 21 59 [
        .node "\x7b" none 21 22 [],
        .node "lexical_declaration" none 23 29 [
          .node "let" (some "kind") 23 26 [],
          .node "variable_declarator" none 27 28 [.node "identifier" (some "name") 27 28 []],
          .node ";" none 28 29 []],
        .node "return_statement" none 30 50 [
          .node "return" none 30 36 [],
          .node "new_expression" none 37 49 [
            .node "new" none 37 40 [],
            .node "identifier" (some "constructor") 41 42 [],
            .node "arguments" (some "arguments") 42 49 [
              .node "(" none 42 43 [],
              .node "identifier" none 43 44 [],
              .node "," none 44 45 [],
              .node "identifier" none 46 48 [],
              .node ")" none 48 49 []]],
          .node ";" none 49 50 []],
        .node "\x7d" none 51 52 [],
        .node "comment" none 53 59 []]],
    .node "expression_statement" none 60 67 [
      .node "call_expression" none 60 66 [
        .node "identifier" (some "function") 60 63 [],
        .node "arguments" (some "arguments") 63 66 [
          .node "(" none 63 64 [],
          .node "identifier" none 64 65 [],
          .node ")" none 65 66 []]],
      .node ";" none 66 67 []]]
  faulty := false

theorem between_stays :
    let reader : Reader := fun _ _ => betweenTree
    let t := SyntaxTree.read reader "f.spec.ts" betweenText
    t.WellFormed ∧ t.findSetup? "f" = some ⟨9, "f"⟩ ∧ t.Delimited 9 ∧
    ∃ plan, UpdatePlan.make reader "f.spec.ts" betweenText [⟨"é", none⟩] "C" ⟨"f", .nextChar⟩ = .ok plan ∧
      plan.stale = ["a"] ∧ (∀ e ∈ plan.edits, 8 ≤ e.start ∧ e.stop ≤ 59) ∧
      ∀ e ∈ plan.edits, (t.node 6).stop ≤ e.start ∨ e.stop ≤ (t.node 6).start := by
  intro reader t
  have hwf : t.WellFormed := by decide +kernel
  have hdel : t.Delimited 9 := by decide +kernel
  have hs : t.findSetup? "f" = some ⟨9, "f"⟩ := by decide +kernel
  have hi : t.findInstantiation? 9 "C" = some 24 := by decide +kernel
  have hplan : UpdatePlan.make reader "f.spec.ts" betweenText [⟨"é", none⟩] "C" ⟨"f", .nextChar⟩ =
      .ok (.ofWiring t "f.spec.ts" [⟨"é", none⟩] .nextChar ⟨9, "f"⟩ 24) :=
    UpdatePlan.ofTree_eq_ok_iff.mpr ⟨⟨9, "f"⟩, 24, hs, hi, rfl⟩
  obtain ⟨setup, hsetup, _, hinside, _, helse⟩ :=
    update_stays_inside_setup reader "f.spec.ts" betweenText "C" [⟨"é", none⟩] ⟨"f", .nextChar⟩ _ hwf
      (fun setup hsetup => Option.some.inj (hs.symm.trans hsetup) ▸ hdel) hplan
  obtain rfl : ⟨9, "f"⟩ = setup := Option.some.inj (hs.symm.trans hsetup)
  refine ⟨hwf, hs, hdel, _, hplan, by decide +kernel, ?_, helse 6 (by decide +kernel) (by decide +kernel)⟩
  intro e he
  exact ⟨(hinside e he).1, (hinside e he).2.2⟩

end Unwire
