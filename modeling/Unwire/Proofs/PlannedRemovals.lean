import Unwire.Proofs.Patching
import Unwire.Proofs.SpanOrder

namespace Unwire.Removal

open Syntax

variable {t : SyntaxTree} {setup d i m n u : Nat} {stale : List String} {policy : SeparatorPolicy}

/-- A variable statement of the body of `setup` that declares a stale name. -/
def IsStaleStatement (t : SyntaxTree) (setup : NodeId) (stale : List String) (d : NodeId) : Prop :=
  ∃ body, t.childByField? setup "body" = some body ∧ d ∈ t.significantChildren body ∧
    (t.node d).kind = .variableStatement ∧ ∃ name ∈ declaredNames t d, name ∈ stale

structure IsStaleUsage (t : SyntaxTree) (setup : NodeId) (stale : List String) (u : NodeId) : Prop where
  below : t.Below setup u
  name : (t.node u).kind = .identifier
  mem_stale : t.textOf u ∈ stale
  not_declared : isDeclaredName t u = false
  outside : ∀ d, IsStaleStatement t setup stale d → ¬t.Below d u

def staleStatements (t : SyntaxTree) (setup : NodeId) (stale : List String) : List NodeId :=
  (staleDeclarations t setup stale).map (·.1)

def removedNodes (t : SyntaxTree) (setup : NodeId) (stale : List String) : List NodeId :=
  staleStatements t setup stale ++ staleUsages t setup stale (staleStatements t setup stale)

def isRemoved (t : SyntaxTree) (setup : NodeId) (stale : List String) (i : NodeId) : Bool :=
  (removedNodes t setup stale).contains i

theorem mem_staleStatements : d ∈ staleStatements t setup stale ↔ IsStaleStatement t setup stale d := by
  rw [staleStatements, staleDeclarations, IsStaleStatement]
  cases t.childByField? setup "body" with
  | none => simp
  | some body =>
      simp only [List.mem_map, List.mem_filterMap, Option.some.injEq]
      constructor
      · rintro ⟨⟨e, name⟩, ⟨s, hs, hif⟩, rfl⟩
        split at hif
        · next hk =>
            obtain ⟨found, hfound, he⟩ := Option.map_eq_some_iff.mp hif
            obtain ⟨rfl, rfl⟩ := Prod.mk.inj he
            exact ⟨body, rfl, hs, by simpa using hk, found, List.mem_of_find?_eq_some hfound,
              by simpa using List.find?_some hfound⟩
        · simp at hif
      · rintro ⟨_, rfl, hs, hk, name, hname, hstale⟩
        obtain ⟨found, hfound⟩ := Option.isSome_iff_exists.mp
          (List.find?_isSome.mpr ⟨name, hname, List.contains_iff_mem.mpr hstale⟩)
        refine ⟨(d, found), ⟨d, hs, ?_⟩, rfl⟩
        rw [if_pos (by simp [hk]), hfound]
        rfl

theorem IsStaleStatement.kind (hd : IsStaleStatement t setup stale d) : (t.node d).kind = .variableStatement := by
  obtain ⟨_, _, _, hk, _⟩ := hd
  exact hk

theorem staleStatements_sublist {body : NodeId} (hb : t.childByField? setup "body" = some body) :
    (staleStatements t setup stale).Sublist (t.significantChildren body) := by
  simp only [staleStatements, staleDeclarations, hb]
  induction t.significantChildren body with
  | nil => exact List.Sublist.refl _
  | cons s rest ih =>
      rw [List.filterMap_cons]
      split
      · exact ih.cons s
      · next r hr =>
          have hfst : r.1 = s := by
            split at hr
            · obtain ⟨name, _, rfl⟩ := Option.map_eq_some_iff.mp hr
              rfl
            · simp at hr
          rw [List.map_cons, hfst]
          exact ih.cons_cons s

/-- A plan removes the stale statements and then the stale usages, each together with all the others. -/
theorem plan_eq (t : SyntaxTree) (setup : NodeId) (stale : List String) (policy : SeparatorPolicy) :
    plan t setup stale policy =
      (staleDeclarations t setup stale).map
        (fun r => ⟨.declaration, r.2, spanOf t policy (isRemoved t setup stale) r.1⟩) ++
      (staleUsages t setup stale (staleStatements t setup stale)).map
        (fun i => ⟨.usage, t.textOf i, spanOf t policy (isRemoved t setup stale) i⟩) := by
  have hset : (fun i => (Std.HashSet.ofList (removedNodes t setup stale)).contains i) =
      isRemoved t setup stale := by
    funext i
    rw [Std.HashSet.contains_ofList, isRemoved]
  cases stale with
  | nil =>
      have hd : staleDeclarations t setup [] = [] := by
        have hnil : staleStatements t setup [] = [] := List.eq_nil_iff_forall_not_mem.mpr fun d hd => by
          obtain ⟨_, _, _, _, name, _, hn⟩ := mem_staleStatements.mp hd
          simp at hn
        simpa [staleStatements] using hnil
      simp [plan, hd, staleUsages]
  | cons name names =>
      rw [plan, if_neg (by simp)]
      simp only [← hset]
      rfl

theorem plan_spans (t : SyntaxTree) (setup : NodeId) (stale : List String) (policy : SeparatorPolicy) :
    (plan t setup stale policy).map (·.span) =
      (removedNodes t setup stale).map (spanOf t policy (isRemoved t setup stale)) := by
  rw [plan_eq, removedNodes, staleStatements]
  simp [List.map_map, Function.comp_def]

theorem plan_eq_nil_iff (policy : SeparatorPolicy) :
    plan t setup stale policy = [] ↔ removedNodes t setup stale = [] := by
  rw [← List.map_eq_nil_iff (f := fun r => r.span), plan_spans, List.map_eq_nil_iff]

theorem lt_size_of_kind (hk : (t.node i).kind ≠ .sourceFile) : i < t.nodes.size := by
  refine Nat.lt_of_not_le fun hle => hk ?_
  rw [SyntaxTree.node_of_size_le hle]
  rfl

section

variable (h : t.Linked)
include h

theorem outside_iff :
    (staleStatements t setup stale).any (t.isWithin u) = false ↔
      ∀ d, IsStaleStatement t setup stale d → ¬t.Below d u := by
  simp only [List.any_eq_false, mem_staleStatements, h.isWithin_iff]

theorem mem_staleUsages :
    u ∈ staleUsages t setup stale (staleStatements t setup stale) ↔ IsStaleUsage t setup stale u := by
  rw [staleUsages, List.mem_filter, h.mem_descendants]
  simp only [Bool.and_eq_true, beq_iff_eq, Bool.not_eq_true', List.contains_iff_mem]
  constructor
  · rintro ⟨hb, ⟨⟨hk, hs⟩, hd⟩, ho⟩
    exact ⟨hb, hk, hs, hd, (outside_iff h).mp ho⟩
  · rintro ⟨hb, hk, hs, hd, ho⟩
    exact ⟨hb, ⟨⟨hk, hs⟩, hd⟩, (outside_iff h).mpr ho⟩

theorem mem_removedNodes :
    n ∈ removedNodes t setup stale ↔ IsStaleStatement t setup stale n ∨ IsStaleUsage t setup stale n := by
  rw [removedNodes, List.mem_append, mem_staleStatements, mem_staleUsages h]

theorem isRemoved_iff :
    isRemoved t setup stale n = true ↔ IsStaleStatement t setup stale n ∨ IsStaleUsage t setup stale n := by
  rw [isRemoved, List.contains_iff_mem, mem_removedNodes h]

theorem staleStatements_lt (setup : NodeId) (stale : List String) :
    (staleStatements t setup stale).Pairwise (· < ·) := by
  cases hb : t.childByField? setup "body" with
  | none => simp [staleStatements, staleDeclarations, hb]
  | some body => exact (h.significantChildren_lt body).sublist (staleStatements_sublist hb)

theorem staleUsages_lt (setup : NodeId) (stale : List String) (statements : List NodeId) :
    (staleUsages t setup stale statements).Pairwise (· < ·) :=
  (h.descendants_lt setup).filter _

end

section

variable (h : t.Orderly) (hwf : t.Named)
include h hwf

omit h hwf in
theorem IsStaleStatement.exists_name (hd : IsStaleStatement t setup stale d) :
    ∃ x, t.Below d x ∧ (t.node x).kind = .identifier := by
  obtain ⟨body, _, _, _, name, hname, _⟩ := hd
  obtain ⟨declarator, hdec, hif⟩ := List.mem_filterMap.mp hname
  split at hif
  · obtain ⟨x, hx, hif⟩ := Option.bind_eq_some_iff.mp hif
    split at hif
    · next hid => exact ⟨x, .child (.child .self hdec) (List.mem_of_find?_eq_some hx), by simpa using hid⟩
    · simp at hif
  · simp at hif

theorem IsStaleStatement.isTarget (hd : IsStaleStatement t setup stale d) : IsTarget t d := by
  obtain ⟨x, hdx, hx⟩ := hd.exists_name
  have hpos := hwf.name_nonempty hx
  have hrange := h.range_of_below hdx
  exact ⟨Or.inr hd.kind, lt_size_of_kind (by simp [hd.kind]), by omega⟩

omit h in
theorem IsStaleUsage.isTarget (hu : IsStaleUsage t setup stale u) : IsTarget t u :=
  ⟨Or.inl hu.name, lt_size_of_kind (by simp [hu.name]), hwf.name_nonempty hu.name⟩

theorem isTarget_of_mem (hn : n ∈ removedNodes t setup stale) : IsTarget t n :=
  ((mem_removedNodes h.toLinked).mp hn).elim (·.isTarget h hwf) (·.isTarget hwf)

theorem name_not_above (hk : (t.node m).kind = .identifier) (hn : n ∈ removedNodes t setup stale)
    (hb : t.Below m n) : n = m := by
  rcases (mem_removedNodes h.toLinked).mp hn with hn | hn
  · obtain ⟨x, hnx, hx⟩ := hn.exists_name
    have hxm := hwf.name_not_nested hk (h.mem_descendants.mpr (hb.trans hnx)) hx
    have hle := h.le_of_below hnx
    exact Nat.le_antisymm (hxm ▸ hle) (h.le_of_below hb)
  · exact hwf.name_not_nested hk (h.mem_descendants.mpr hb) hn.name

/-- No removed node is below another. -/
theorem eq_of_below (hm : m ∈ removedNodes t setup stale) (hn : n ∈ removedNodes t setup stale)
    (hb : t.Below m n) : n = m := by
  rcases (mem_removedNodes h.toLinked).mp hm with hm | hm
  · rcases (mem_removedNodes h.toLinked).mp hn with hn | hn
    · obtain ⟨body, hbody, hmb, _⟩ := hm
      obtain ⟨body', hbody', hnb, _⟩ := hn
      obtain rfl := Option.some.inj (hbody.symm.trans hbody')
      exact h.eq_of_siblings (SyntaxTree.mem_significantChildren.mp hmb).1
        (SyntaxTree.mem_significantChildren.mp hnb).1 hb
    · exact absurd hb (hn.outside m hm)
  · exact name_not_above h hwf hm.name hn hb

theorem before_of_lt (hm : m ∈ removedNodes t setup stale) (hn : n ∈ removedNodes t setup stale) (hlt : m < n) :
    t.Before m n := by
  rcases h.below_or_before_of_lt hlt (isTarget_of_mem h hwf hn).lt_size with hb | hb
  · exact absurd (eq_of_below h hwf hm hn hb) (Nat.ne_of_gt hlt)
  · exact hb

omit hwf in
theorem removedNodes_nodup (setup : NodeId) (stale : List String) : (removedNodes t setup stale).Nodup := by
  refine List.nodup_append.mpr ⟨(staleStatements_lt h.toLinked setup stale).imp Nat.ne_of_lt,
    (staleUsages_lt h.toLinked setup stale _).imp Nat.ne_of_lt, ?_⟩
  rintro d hd u hu rfl
  have hname := ((mem_staleUsages h.toLinked).mp hu).name
  exact absurd (mem_staleStatements.mp hd).kind (by simp [hname])

end

section

variable (h : t.Orderly) (hwf : t.WellFormed)
include h hwf

theorem planned_apart (policy : SeparatorPolicy) (hm : m ∈ removedNodes t setup stale)
    (hn : n ∈ removedNodes t setup stale) (hlt : m < n) :
    (spanOf t policy (isRemoved t setup stale) m).stop ≤ (spanOf t policy (isRemoved t setup stale) n).start :=
  spanOf_apart policy _ h hwf (isTarget_of_mem h hwf.toNamed hm) (isTarget_of_mem h hwf.toNamed hn)
    (List.contains_iff_mem.mpr hn) (before_of_lt h hwf.toNamed hm hn hlt)

omit hwf in
theorem planned_nonempty (hwf : t.Named) (policy : SeparatorPolicy) (hn : n ∈ removedNodes t setup stale) :
    (spanOf t policy (isRemoved t setup stale) n).start < (spanOf t policy (isRemoved t setup stale) n).stop := by
  have htarget := isTarget_of_mem h hwf hn
  have hpos := htarget.nonempty
  have hcover := Span.covers_iff.mp (spanOf_covers policy (isRemoved t setup stale) h htarget.isItem.not_trivia)
  omega

theorem spans_apart (setup : NodeId) (stale : List String) (policy : SeparatorPolicy) :
    ((plan t setup stale policy).map (·.span)).Pairwise fun s s' => s.stop ≤ s'.start ∨ s'.stop ≤ s.start := by
  rw [plan_spans, List.pairwise_map]
  refine (removedNodes_nodup h setup stale).imp_of_mem ?_
  intro m n hm hn hne
  rcases Nat.lt_or_gt_of_ne hne with hlt | hgt
  · exact Or.inl (planned_apart h hwf policy hm hn hlt)
  · exact Or.inr (planned_apart h hwf policy hn hm hgt)

theorem starts_lt {nodes : List Nat} (hsub : nodes ⊆ removedNodes t setup stale) (hlt : nodes.Pairwise (· < ·))
    (policy : SeparatorPolicy) :
    (nodes.map (spanOf t policy (isRemoved t setup stale))).Pairwise fun s s' => s.start < s'.start := by
  rw [List.pairwise_map]
  refine hlt.imp_of_mem ?_
  intro m n hm hn hmn
  exact Nat.lt_of_lt_of_le (planned_nonempty h hwf.toNamed policy (hsub hm))
    (planned_apart h hwf policy (hsub hm) (hsub hn) hmn)

theorem plan_groups (setup : NodeId) (stale : List String) (policy : SeparatorPolicy) :
    ∃ declarations usages, plan t setup stale policy = declarations ++ usages ∧
      (∀ r ∈ declarations, r.site = .declaration) ∧ (∀ r ∈ usages, r.site = .usage) ∧
      (declarations.Pairwise fun r r' => r.span.start < r'.span.start) ∧
      usages.Pairwise fun r r' => r.span.start < r'.span.start := by
  refine ⟨_, _, plan_eq t setup stale policy, List.forall_mem_map.mpr fun _ _ => rfl,
    List.forall_mem_map.mpr fun _ _ => rfl, ?_, ?_⟩
  · have hstarts := starts_lt h hwf (List.subset_append_left _ _) (staleStatements_lt h.toLinked setup stale) policy
    simpa only [staleStatements, List.pairwise_map] using hstarts
  · have hstarts := starts_lt h hwf (List.subset_append_right _ _) (staleUsages_lt h.toLinked setup stale _) policy
    simpa only [List.pairwise_map] using hstarts

theorem plan_span_bounds {r : Removal} (hr : r ∈ plan t setup stale policy) :
    Text.IsBoundary r.span.start t.text ∧ Text.IsBoundary r.span.stop t.text ∧ r.span.start < r.span.stop := by
  have hspan := List.mem_map_of_mem (f := (·.span)) hr
  rw [plan_spans] at hspan
  obtain ⟨n, hn, he⟩ := List.mem_map.mp hspan
  obtain ⟨hstart, hstop⟩ := spanOf_boundary policy (isRemoved t setup stale) h hwf n
  rw [← he]
  exact ⟨hstart, hstop, planned_nonempty h hwf.toNamed policy hn⟩

end

theorem ofRemoval_fits (path : String) {r : Removal} (hstart : Text.IsBoundary r.span.start t.text)
    (hstop : Text.IsBoundary r.span.stop t.text) (hle : r.span.start ≤ r.span.stop) :
    (Edit.ofRemoval path t r).Fits t.text ∧ (Edit.ofRemoval path t r).stop = r.span.stop := by
  obtain ⟨part, hpart, hwidth⟩ := Text.exists_slice hstart hstop hle
  have htext : (Edit.ofRemoval path t r).text = .ofList part := by
    simp [Edit.ofRemoval, SyntaxTree.textBetween, hpart]
  constructor
  · rw [Edit.Fits, Edit.stop, htext, Text.utf8ByteSize_ofList, String.toList_ofList]
    exact hwidth ▸ hpart
  · rw [Edit.stop, htext, Text.utf8ByteSize_ofList]
    exact hwidth

/-- The removals of a plan are between characters of the text and have no byte in common; declarations come first, and
both groups are in the order of the text. So they can be carried out together. -/
theorem plan_applies (path text : String) (p : Parse.ParseTree) (hwf : (SyntaxTree.ofParse text p).WellFormed)
    (setup : NodeId) (stale : List String) (policy : SeparatorPolicy) :
    let t := SyntaxTree.ofParse text p
    let removals := plan t setup stale policy
    (∀ r ∈ removals, Text.IsBoundary r.span.start text.toList ∧ Text.IsBoundary r.span.stop text.toList ∧
      r.span.start < r.span.stop ∧ r.span.stop ≤ Text.width text.toList) ∧
    (removals.Pairwise fun r r' => r.span.stop ≤ r'.span.start ∨ r'.span.stop ≤ r.span.start) ∧
    (∃ declarations usages, removals = declarations ++ usages ∧
      (∀ r ∈ declarations, r.site = .declaration) ∧ (∀ r ∈ usages, r.site = .usage) ∧
      (declarations.Pairwise fun r r' => r.span.start < r'.span.start) ∧
      usages.Pairwise fun r r' => r.span.start < r'.span.start) ∧
    ∃ result, applyEdits text (removals.map (Edit.ofRemoval path t)) = .ok result := by
  intro t removals
  have h := hwf.toNested.orderly
  have hbounds : ∀ r ∈ removals, _ := fun r hr => plan_span_bounds h hwf hr
  have hfits : ∀ r ∈ removals, _ := fun r hr =>
    ofRemoval_fits path (hbounds r hr).1 (hbounds r hr).2.1 (Nat.le_of_lt (hbounds r hr).2.2)
  have hapart : removals.Pairwise fun r r' => r.span.stop ≤ r'.span.start ∨ r'.span.stop ≤ r.span.start :=
    List.pairwise_map.mp (spans_apart h hwf setup stale policy)
  refine ⟨?_, hapart, plan_groups h hwf setup stale policy, _, Edit.applyEdits_of_apart ?_ ?_ ?_⟩
  · intro r hr
    obtain ⟨hstart, hstop, hlt⟩ := hbounds r hr
    exact ⟨hstart, hstop, hlt, Text.le_width_of_isBoundary hstop⟩
  · exact List.forall_mem_map.mpr fun r hr => (hfits r hr).1
  · exact List.forall_mem_map.mpr fun r hr => (hfits r hr).2 ▸ (hbounds r hr).2.2
  · rw [List.pairwise_map]
    refine hapart.imp_of_mem fun hr hr' hsep => ?_
    rw [(hfits _ hr).2, (hfits _ hr').2]
    exact hsep

/-- A function that wires `a`, `d` and `b`, with a declaration of `a` and, in a block of its own, one of `b`. -/
def setupText : String := "function f() \x7b let a = b; \x7b let b; \x7d new C(a, d /* é */, b); \x7d"

def setupTree : Parse.ParseTree where
  root := .node "program" none 0 63 [
    .node "function_declaration" none 0 63 [
      .node "function" none 0 8 [],
      .node "identifier" (some "name") 9 10 [],
      .node "formal_parameters" (some "parameters") 10 12 [.node "(" none 10 11 [], .node ")" none 11 12 []],
      .node "statement_block" (some "body") 13 63 [
        .node "\x7b" none 13 14 [],
        .node "lexical_declaration" none 15 25 [
          .node "let" (some "kind") 15 18 [],
          .node "variable_declarator" none 19 24 [
            .node "identifier" (some "name") 19 20 [],
            .node "=" none 21 22 [],
            .node "identifier" (some "value") 23 24 []],
          .node ";" none 24 25 []],
        .node "statement_block" none 26 36 [
          .node "\x7b" none 26 27 [],
          .node "lexical_declaration" none 28 34 [
            .node "let" (some "kind") 28 31 [],
            .node "variable_declarator" none 32 33 [.node "identifier" (some "name") 32 33 []],
            .node ";" none 33 34 []],
          .node "\x7d" none 35 36 []],
        .node "expression_statement" none 37 61 [
          .node "new_expression" none 37 60 [
            .node "new" none 37 40 [],
            .node "identifier" (some "constructor") 41 42 [],
            .node "arguments" (some "arguments") 42 60 [
              .node "(" none 42 43 [],
              .node "identifier" none 43 44 [],
              .node "," none 44 45 [],
              .node "identifier" none 46 47 [],
              .node "comment" none 48 56 [],
              .node "," none 56 57 [],
              .node "identifier" none 58 59 [],
              .node ")" none 59 60 []]],
          .node ";" none 60 61 []],
        .node "\x7d" none 62 63 []]]]
  faulty := false

theorem setup_plan_applies :
    let t := SyntaxTree.ofParse setupText setupTree
    let removals := plan t 1 ["a", "b"] .listAware
    t.WellFormed ∧ removals.map (·.span) = [⟨14, 25⟩, ⟨43, 45⟩, ⟨56, 59⟩] ∧
      ∃ result, applyEdits setupText (removals.map (Edit.ofRemoval "f.ts" t)) = .ok result := by
  have hwf : (SyntaxTree.ofParse setupText setupTree).WellFormed := by decide +kernel
  refine ⟨hwf, ?_, (plan_applies "f.ts" setupText setupTree hwf 1 ["a", "b"] .listAware).2.2.2⟩
  rw [plan_spans]
  decide +kernel

end Unwire.Removal
