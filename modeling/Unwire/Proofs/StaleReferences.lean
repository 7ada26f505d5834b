import Mathlib.Data.List.Nodup
import Unwire.Proofs.PlannedRemovals

namespace Unwire.Removal

open Syntax

variable {t : SyntaxTree} {removed : NodeId → Bool} {setup i m n : Nat} {stale : List String}
  {policy : SeparatorPolicy}

/-- A declaration of a stale name that stays, since no removed statement holds it. -/
def IsKeptName (t : SyntaxTree) (setup : NodeId) (stale : List String) (i : NodeId) : Prop :=
  isDeclaredName t i = true ∧ ∀ d, IsStaleStatement t setup stale d → ¬t.Below d i

/-- A span that takes a node and, of the tokens elsewhere, at most one comma. It takes no token in part. -/
structure TakesTokens (t : SyntaxTree) (s : Span) (n : NodeId) (comma : Option NodeId) : Prop where
  node : s.covers (t.node n) = true
  is_comma : ∀ c, comma = some c → (t.node c).kind = .comma
  token : ∀ l < t.nodes.size, t.children l = [] → t.isTrivia l = false → s.touches (t.node l) = true →
    s.covers (t.node l) = true ∧ (t.Below n l ∨ comma = some l)

theorem exists_taken (t : SyntaxTree) (removed : NodeId → Bool) (n : NodeId) :
    ∃ comma, ∀ c, Takes t removed n c ↔ comma = some c := by
  by_cases hclose : Closes t removed n
  · refine ⟨(t.previous? n).filter (isComma t), fun c => ?_⟩
    rw [Option.filter_eq_some_iff]
    simp [Takes, hclose, and_comm]
  · refine ⟨(t.next? n).filter (isComma t), fun c => ?_⟩
    rw [Option.filter_eq_some_iff]
    simp [Takes, hclose, and_comm]

section

variable (h : t.Orderly)
include h

theorem covers_of_below {s : Span} (hs : s.covers (t.node n) = true) (hb : t.Below n i) :
    s.covers (t.node i) = true := by
  have hrange := h.range_of_below hb
  rw [Span.covers_iff] at hs ⊢
  omega

theorem listAwareSpan_takesTokens (hwf : t.Named) (removed : NodeId → Bool) (hn : IsTarget t n) :
    ∃ comma, TakesTokens t (listAwareSpan t removed n) n comma := by
  have hnt := hn.isItem.not_trivia
  have hcover := listAwareSpan_covers h removed hnt
  obtain ⟨comma, hcomma⟩ := exists_taken t removed n
  refine ⟨comma, hcover, ?_, ?_⟩
  · intro c hc
    simpa [isComma] using ((hcomma c).mpr hc).1
  · intro l hl hleaf hlt htouch
    rcases cases_of_touches h hnt hlt hn.lt_size hl (outsideCommas_of_named hwf n l) htouch with hb | hb | htakes
    · exact ⟨covers_of_below h hcover hb, Or.inl hb⟩
    · obtain rfl := SyntaxTree.eq_of_below_leaf hleaf hb
      exact ⟨hcover, Or.inl .self⟩
    · exact ⟨htakes.covers h hnt, Or.inr ((hcomma l).mp htakes)⟩

theorem below_or_stop_le {l : Nat} (hn : n < t.nodes.size) (hl : l < t.nodes.size) (hleaf : t.children l = [])
    (hlt : t.isTrivia l = false) (hlead : (t.node n).fullStart < (t.node l).stop) :
    t.Below n l ∨ (t.node n).stop ≤ (t.node l).start := by
  rcases h.below_or_before hn hl with hb | hb | hb | hb
  · exact Or.inl hb
  · exact Or.inl (SyntaxTree.eq_of_below_leaf hleaf hb ▸ .self)
  · exact Or.inr (h.stop_le_start hb)
  · exact absurd (h.stop_le_lead hb hlt) (Nat.not_le.mpr hlead)

theorem nextCharSpan_takesTokens (hwf : t.Named) (hcommas : t.CommaTokens) (hn : IsTarget t n) :
    ∃ comma, TakesTokens t (nextCharSpan t n) n comma := by
  have hlead := h.fullStart_le_start n
  have hself := h.start_le_stop n
  have hcover : (nextCharSpan t n).covers (t.node n) = true :=
    spanOf_covers .nextChar (fun _ => false) h hn.isItem.not_trivia
  by_cases hchar : Text.charAt? (t.node n).stop t.text = some ','
  · obtain ⟨c, hcs, hck, hstart, hstop⟩ := hcommas n hn.kind hchar
    have hspan : nextCharSpan t n = ⟨(t.node n).fullStart, (t.node c).stop⟩ := by
      rw [nextCharSpan_eq, if_pos hchar, hstop]
    refine ⟨some c, hcover, ?_, ?_⟩
    · rintro _ ⟨⟩
      exact hck
    · intro l hl hleaf hlt htouch
      simp only [hspan, Span.touches_iff] at htouch
      rcases below_or_stop_le h hn.lt_size hl hleaf hlt htouch.1.1 with hb | hle
      · exact ⟨covers_of_below h hcover hb, Or.inl hb⟩
      · obtain rfl := h.eq_of_leaves hcs hl (hwf.comma_leaf hck) hleaf (by omega) htouch.1.2
        refine ⟨?_, Or.inr rfl⟩
        simp only [hspan, Span.covers_iff]
        omega
  · have hspan : nextCharSpan t n = ⟨(t.node n).fullStart, (t.node n).stop⟩ := by
      rw [nextCharSpan_eq, if_neg hchar]
    refine ⟨none, hcover, by simp, ?_⟩
    intro l hl hleaf hlt htouch
    simp only [hspan, Span.touches_iff] at htouch
    rcases below_or_stop_le h hn.lt_size hl hleaf hlt htouch.1.1 with hb | hle
    · exact ⟨covers_of_below h hcover hb, Or.inl hb⟩
    · omega

theorem spanOf_takesTokens (hwf : t.Named) (hcommas : t.CommaTokens) (policy : SeparatorPolicy)
    (removed : NodeId → Bool) (hn : IsTarget t n) : ∃ comma, TakesTokens t (spanOf t policy removed n) n comma := by
  cases policy with
  | listAware => exact listAwareSpan_takesTokens h hwf removed hn
  | nextChar => exact nextCharSpan_takesTokens h hwf hcommas hn

theorem exists_removed_above (hb : t.Below setup i) (hk : (t.node i).kind = .identifier) (hs : t.textOf i ∈ stale)
    (hkept : ¬IsKeptName t setup stale i) : ∃ n ∈ removedNodes t setup stale, t.Below n i := by
  by_cases hd : ∃ d, IsStaleStatement t setup stale d ∧ t.Below d i
  · obtain ⟨d, hd, hdi⟩ := hd
    exact ⟨d, (mem_removedNodes h.toLinked).mpr (Or.inl hd), hdi⟩
  · have hout : ∀ d, IsStaleStatement t setup stale d → ¬t.Below d i := fun d hds hdi => hd ⟨d, hds, hdi⟩
    have hdecl : isDeclaredName t i = false := Bool.eq_false_iff.mpr fun hdecl => hkept ⟨hdecl, hout⟩
    exact ⟨i, (mem_removedNodes h.toLinked).mpr (Or.inr ⟨hb, hk, hs, hdecl, hout⟩), .self⟩

theorem not_below_of_isKeptName (hwf : t.Named) (hk : (t.node i).kind = .identifier)
    (hkept : IsKeptName t setup stale i) (hn : n ∈ removedNodes t setup stale) : ¬t.Below n i := by
  rcases (mem_removedNodes h.toLinked).mp hn with hn | hn
  · exact hkept.2 n hn
  · intro hb
    obtain rfl := hwf.name_not_nested hn.name (h.mem_descendants.mpr hb) hk
    exact absurd hkept.1 (by simp [hn.not_declared])

theorem eq_of_below_of_below (hwf : t.Named) (hm : m ∈ removedNodes t setup stale)
    (hn : n ∈ removedNodes t setup stale) (hmi : t.Below m i) (hni : t.Below n i) : m = n := by
  rcases h.below_or_below (isTarget_of_mem h hwf hm).lt_size (isTarget_of_mem h hwf hn).lt_size hmi hni with hb | hb
  · exact (eq_of_below h hwf hm hn hb).symm
  · exact eq_of_below h hwf hn hm hb

theorem touches_name_iff (hwf : t.WellFormed) (policy : SeparatorPolicy) (hk : (t.node i).kind = .identifier)
    (hn : n ∈ removedNodes t setup stale) :
    (spanOf t policy (isRemoved t setup stale) n).touches (t.node i) = true ↔ t.Below n i := by
  have hnt := isTarget_of_mem h hwf.toNamed hn
  have hit : IsTarget t i := ⟨Or.inl hk, lt_size_of_kind (by simp [hk]), hwf.name_nonempty hk⟩
  have hcover := spanOf_covers policy (isRemoved t setup stale) h hnt.isItem.not_trivia
  constructor
  · intro htouch
    obtain ⟨⟨hleft, hright⟩, _⟩ := Span.touches_iff.mp htouch
    rcases h.below_or_before hnt.lt_size hit.lt_size with hb | hb | hb | hb
    · exact hb
    · exact name_not_above h hwf.toNamed hk hn hb ▸ .self
    · have hle := spanOf_stop_le policy (isRemoved t setup stale) h hwf hnt hit hb
      have hlead := h.fullStart_le_start i
      omega
    · have hle := stop_le_spanOf policy (isRemoved t setup stale) h hwf hnt hit hb
      omega
  · intro hb
    exact Span.touches_of_covers (covers_of_below h hcover hb) hit.nonempty

theorem spans_of_isKeptName (hwf : t.WellFormed) (policy : SeparatorPolicy) (hk : (t.node i).kind = .identifier)
    (hkept : IsKeptName t setup stale i) :
    ((plan t setup stale policy).map (·.span)).filter (·.touches (t.node i)) = [] := by
  rw [plan_spans, List.filter_eq_nil_iff]
  refine List.forall_mem_map.mpr fun n hn => ?_
  rw [touches_name_iff h hwf policy hk hn]
  exact not_below_of_isKeptName h hwf.toNamed hk hkept hn

theorem spans_of_not_isKeptName (hwf : t.WellFormed) (policy : SeparatorPolicy) (hb : t.Below setup i)
    (hk : (t.node i).kind = .identifier) (hs : t.textOf i ∈ stale) (hkept : ¬IsKeptName t setup stale i) :
    ∃ s, ((plan t setup stale policy).map (·.span)).filter (·.touches (t.node i)) = [s] ∧
      s.covers (t.node i) = true := by
  obtain ⟨n, hn, hni⟩ := exists_removed_above h hb hk hs hkept
  have hcover := spanOf_covers policy (isRemoved t setup stale) h
    (isTarget_of_mem h hwf.toNamed hn).isItem.not_trivia
  refine ⟨spanOf t policy (isRemoved t setup stale) n, ?_, covers_of_below h hcover hni⟩
  -- The removed nodes that touch the name are those above it, of which there is one.
  have honly : ∀ m ∈ removedNodes t setup stale,
      (spanOf t policy (isRemoved t setup stale) m).touches (t.node i) = (m == n) := by
    intro m hm
    rw [Bool.eq_iff_iff, touches_name_iff h hwf policy hk hm, beq_iff_eq]
    constructor
    · intro hmi
      exact eq_of_below_of_below h hwf.toNamed hm hn hmi hni
    · rintro rfl
      exact hni
  rw [plan_spans, List.filter_map]
  have hfilter : (removedNodes t setup stale).filter
      ((·.touches (t.node i)) ∘ spanOf t policy (isRemoved t setup stale)) = [n] := by
    refine (List.filter_congr honly).trans ?_
    rw [List.filter_beq, List.count_eq_one_of_mem (removedNodes_nodup h setup stale) hn]
    rfl
  rw [hfilter]
  rfl

end

theorem exists_node_of_mem_plan (h : t.Linked) {r : Removal} (hr : r ∈ plan t setup stale policy) :
    ∃ n, (r.site = .declaration ∧ IsStaleStatement t setup stale n ∨ r.site = .usage ∧ IsStaleUsage t setup stale n) ∧
      r.span = spanOf t policy (isRemoved t setup stale) n := by
  rw [plan_eq] at hr
  rcases List.mem_append.mp hr with hr | hr
  · obtain ⟨d, hd, rfl⟩ := List.mem_map.mp hr
    exact ⟨d.1, Or.inl ⟨rfl, mem_staleStatements.mp (List.mem_map_of_mem hd)⟩, rfl⟩
  · obtain ⟨u, hu, rfl⟩ := List.mem_map.mp hr
    exact ⟨u, Or.inr ⟨rfl, (mem_staleUsages h).mp hu⟩, rfl⟩

/-- A plan removes each mention of a stale name below the setup function once and as a whole, but for declarations that
stay, of which it removes nothing. Each removal takes, comments apart, the tokens of one stale statement or usage and at
most one comma. -/
theorem plan_removes_stale_references (text : String) (p : Parse.ParseTree)
    (hwf : (SyntaxTree.ofParse text p).WellFormed) (hcommas : (SyntaxTree.ofParse text p).CommaTokens)
    (setup : NodeId) (stale : List String) (policy : SeparatorPolicy) :
    let t := SyntaxTree.ofParse text p
    let removals := plan t setup stale policy
    (∀ i ∈ t.descendants setup, (t.node i).kind = .identifier → t.textOf i ∈ stale →
      (IsKeptName t setup stale i → (removals.map (·.span)).filter (·.touches (t.node i)) = []) ∧
      (¬IsKeptName t setup stale i →
        ∃ s, (removals.map (·.span)).filter (·.touches (t.node i)) = [s] ∧ s.covers (t.node i) = true)) ∧
    ∀ r ∈ removals, ∃ n,
      (r.site = .declaration ∧ IsStaleStatement t setup stale n ∨ r.site = .usage ∧ IsStaleUsage t setup stale n) ∧
      ∃ comma, TakesTokens t r.span n comma := by
  intro t removals
  have h := hwf.toNested.orderly
  constructor
  · intro i hi hk hs
    exact ⟨spans_of_isKeptName h hwf policy hk, spans_of_not_isKeptName h hwf policy (h.mem_descendants.mp hi) hk hs⟩
  · intro r hr
    obtain ⟨n, hn, hspan⟩ := exists_node_of_mem_plan h.toLinked hr
    have hmem := (mem_removedNodes h.toLinked).mpr (hn.imp And.right And.right)
    refine ⟨n, hn, ?_⟩
    rw [hspan]
    exact spanOf_takesTokens h hwf.toNamed hcommas policy _ (isTarget_of_mem h hwf.toNamed hmem)

theorem setup_stale_references :
    let t := SyntaxTree.ofParse setupText setupTree
    let spans := (plan t 1 ["a", "b"] .nextChar).map (·.span)
    t.WellFormed ∧ t.CommaTokens ∧ spans.filter (·.touches (t.node 21)) = [] ∧
      ∃ s, spans.filter (·.touches (t.node 35)) = [s] ∧ s.covers (t.node 35) = true := by
  intro t spans
  have hwf : t.WellFormed := by decide +kernel
  have hcommas : t.CommaTokens := by decide +kernel
  have hkept : IsKeptName t 1 ["a", "b"] 21 :=
    ⟨by decide +kernel, (outside_iff hwf.toNested.orderly.toLinked).mp (by decide +kernel)⟩
  have hgone : ¬IsKeptName t 1 ["a", "b"] 35 := fun h => absurd h.1 (by decide +kernel)
  have hplan := (plan_removes_stale_references setupText setupTree hwf hcommas 1 ["a", "b"] .nextChar).1
  exact ⟨hwf, hcommas, (hplan 21 (by decide +kernel) (by decide +kernel) (by decide +kernel)).1 hkept,
    (hplan 35 (by decide +kernel) (by decide +kernel) (by decide +kernel)).2 hgone⟩

end Unwire.Removal
