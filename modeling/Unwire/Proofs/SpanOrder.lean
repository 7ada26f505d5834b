import Unwire.Proofs.WellFormed
import Unwire.Removal.Span

namespace Unwire

open Syntax

namespace Span

variable {s : Span} {n : Node}

def touches (s : Span) (n : Node) : Bool := max s.start n.start < min s.stop n.stop

def covers (s : Span) (n : Node) : Bool := s.start ≤ n.start && n.stop ≤ s.stop

theorem touches_iff :
    s.touches n = true ↔ (s.start < n.stop ∧ n.start < s.stop) ∧ s.start < s.stop ∧ n.start < n.stop := by
  rw [touches, decide_eq_true_eq]
  omega

theorem covers_iff : s.covers n = true ↔ s.start ≤ n.start ∧ n.stop ≤ s.stop := by
  simp [covers]

theorem nonempty_of_touches (h : s.touches n = true) : n.start < n.stop := (touches_iff.mp h).2.2

theorem touches_of_covers (h : s.covers n = true) (hpos : n.start < n.stop) : s.touches n = true := by
  rw [covers_iff] at h
  rw [touches_iff]
  omega

end Span

namespace Removal

variable {t : SyntaxTree} {removed : NodeId → Bool} {a b c m n x : Nat}

structure IsItem (t : SyntaxTree) (n : NodeId) : Prop where
  not_trivia : t.isTrivia n = false
  not_comma : isComma t n = false
  not_closing : (t.node n).kind.isClosingBracket = false

def OutsideCommas (t : SyntaxTree) (n x : NodeId) : Prop :=
  ∀ d, isComma t d = true → t.previous? n = some d ∨ t.next? n = some d → t.Below d x → x = d

/-- The removal of an element that nothing kept follows. -/
def Closes (t : SyntaxTree) (removed : NodeId → Bool) (n : NodeId) : Prop :=
  isListElement t n = true ∧ closes t removed (t.following n) = true

def Takes (t : SyntaxTree) (removed : NodeId → Bool) (n c : NodeId) : Prop :=
  isComma t c = true ∧
    (Closes t removed n ∧ t.previous? n = some c ∨ ¬Closes t removed n ∧ t.next? n = some c)

theorem listAwareSpan_of_closes (h : Closes t removed n) :
    listAwareSpan t removed n =
      ⟨((t.previous? n).filter (isComma t)).elim (t.node n).fullStart fun d => (t.node d).start, (t.node n).stop⟩ := by
  have hif : (isListElement t n && closes t removed (t.following n)) = true := by simp [h.1, h.2]
  cases hp : (t.previous? n).filter (isComma t) <;> simp [listAwareSpan, hif, hp, fullSpan]

theorem listAwareSpan_of_not_closes (h : ¬Closes t removed n) :
    listAwareSpan t removed n =
      ⟨(t.node n).fullStart, ((t.next? n).filter (isComma t)).elim (t.node n).stop fun c => (t.node c).stop⟩ := by
  have hif : (isListElement t n && closes t removed (t.following n)) = false := by simpa [Closes] using h
  cases hp : (t.next? n).filter (isComma t) <;> simp [listAwareSpan, hif, hp, fullSpan]

/-- The three forms of a removal: without a comma, with the comma before the node, or with the one after it. -/
theorem listAwareSpan_cases (t : SyntaxTree) (removed : NodeId → Bool) (n : NodeId) :
    listAwareSpan t removed n = fullSpan t n ∨
    (∃ d, t.previous? n = some d ∧ isComma t d = true ∧ Closes t removed n ∧
      listAwareSpan t removed n = ⟨(t.node d).start, (t.node n).stop⟩) ∨
    ∃ c, t.next? n = some c ∧ isComma t c = true ∧ ¬Closes t removed n ∧
      listAwareSpan t removed n = ⟨(t.node n).fullStart, (t.node c).stop⟩ := by
  by_cases hc : Closes t removed n
  · rw [listAwareSpan_of_closes hc]
    cases hp : (t.previous? n).filter (isComma t) with
    | none => exact Or.inl rfl
    | some d =>
        obtain ⟨hd, hcomma⟩ := Option.filter_eq_some_iff.mp hp
        exact Or.inr (Or.inl ⟨d, hd, hcomma, hc, rfl⟩)
  · rw [listAwareSpan_of_not_closes hc]
    cases hp : (t.next? n).filter (isComma t) with
    | none => exact Or.inl rfl
    | some c =>
        obtain ⟨hd, hcomma⟩ := Option.filter_eq_some_iff.mp hp
        exact Or.inr (Or.inr ⟨c, hd, hcomma, hc, rfl⟩)

theorem isTrivia_of_isComma (h : isComma t c = true) : t.isTrivia c = false := by
  simp only [isComma, beq_iff_eq] at h
  simp [SyntaxTree.isTrivia, h, Kind.isTrivia]

theorem Takes.exists_parent (h : t.Linked) (hn : t.isTrivia n = false) (hc : Takes t removed n c) :
    ∃ q, (t.node n).parent = some q ∧ c ∈ t.significantChildren q := by
  obtain ⟨_, ⟨_, hprev⟩ | ⟨_, hnext⟩⟩ := hc
  · obtain ⟨q, hq⟩ := SyntaxTree.parent_of_previous hprev
    exact ⟨q, hq, h.mem_of_previous hq hn hprev⟩
  · obtain ⟨q, hq⟩ := SyntaxTree.parent_of_next hnext
    exact ⟨q, hq, h.mem_of_next hq hn hnext⟩

theorem Takes.mem_children (h : t.Linked) {p : Nat} (hn : t.isTrivia n = false) (hc : Takes t removed n c)
    (hcp : c ∈ t.children p) : n ∈ t.children p := by
  obtain ⟨q, hq, hcq⟩ := hc.exists_parent h hn
  have hparent := h.parent_of_mem (SyntaxTree.mem_significantChildren.mp hcq).1
  obtain rfl := Option.some.inj ((h.parent_of_mem hcp).symm.trans hparent)
  exact h.mem_of_parent hq

theorem outsideCommas_of_named (hwf : t.Named) (n x : NodeId) : OutsideCommas t n x :=
  fun _ hd _ hb => SyntaxTree.eq_of_below_leaf (hwf.comma_leaf (by simpa [isComma] using hd)) hb

section

variable (h : t.Orderly)
include h

theorem outsideCommas_of_siblings {p : Nat} (hn : n ∈ t.significantChildren p) (ha : a ∈ t.children p) :
    OutsideCommas t n a := by
  obtain ⟨hnp, hnt⟩ := SyntaxTree.mem_significantChildren.mp hn
  intro d _ hd hb
  have hdp : d ∈ t.significantChildren p := by
    rcases hd with hd | hd
    · exact h.mem_of_previous (h.parent_of_mem hnp) hnt hd
    · exact h.mem_of_next (h.parent_of_mem hnp) hnt hd
  exact h.eq_of_siblings (SyntaxTree.mem_significantChildren.mp hdp).1 ha hb

theorem stop_le_listAwareSpan (removed : NodeId → Bool) (hn : t.isTrivia n = false) (hb : t.Before a n)
    (ha : t.isTrivia a = false) (hout : OutsideCommas t n a) :
    (t.node a).stop ≤ (listAwareSpan t removed n).start ∨
      t.previous? n = some a ∧ isComma t a = true ∧ Closes t removed n := by
  rcases listAwareSpan_cases t removed n with he | ⟨d, hd, hcomma, hclose, he⟩ | ⟨c, _, _, _, he⟩
  · rw [he]
    exact Or.inl (h.stop_le_lead hb ha)
  · rcases h.previous_cases hn hd hb ha with hda | had
    · obtain rfl := hout d hcomma (Or.inl hd) hda
      exact Or.inr ⟨hd, hcomma, hclose⟩
    · rw [he]
      exact Or.inl (h.stop_le_start had)
  · rw [he]
    exact Or.inl (h.stop_le_lead hb ha)

theorem listAwareSpan_stop_le (removed : NodeId → Bool) (hn : t.isTrivia n = false) (hb : t.Before n b)
    (hbt : t.isTrivia b = false) (hout : OutsideCommas t n b) :
    (listAwareSpan t removed n).stop ≤ (t.node b).fullStart ∨
      t.next? n = some b ∧ isComma t b = true ∧ ¬Closes t removed n := by
  rcases listAwareSpan_cases t removed n with he | ⟨d, _, _, _, he⟩ | ⟨c, hc, hcomma, hclose, he⟩
  · rw [he]
    exact Or.inl (h.stop_le_lead hb hn)
  · rw [he]
    exact Or.inl (h.stop_le_lead hb hn)
  · rcases h.next_cases hn hc hb hbt with hcb | hcb
    · obtain rfl := hout c hcomma (Or.inr hc) hcb
      exact Or.inr ⟨hc, hcomma, hclose⟩
    · rw [he]
      exact Or.inl (h.stop_le_lead hcb (isTrivia_of_isComma hcomma))

/-- What a removal touches is its node or a part of it, what it is a part of, or the comma that goes with it. -/
theorem cases_of_touches (hn : t.isTrivia n = false) (hx : t.isTrivia x = false) (hns : n < t.nodes.size)
    (hxs : x < t.nodes.size) (hout : OutsideCommas t n x)
    (htouch : (listAwareSpan t removed n).touches (t.node x) = true) :
    t.Below n x ∨ t.Below x n ∨ Takes t removed n x := by
  obtain ⟨⟨hleft, hright⟩, _⟩ := Span.touches_iff.mp htouch
  rcases h.below_or_before hns hxs with hnx | hxn | hnx | hxn
  · exact Or.inl hnx
  · exact Or.inr (Or.inl hxn)
  · rcases listAwareSpan_stop_le h removed hn hnx hx hout with hle | ⟨hnext, hcomma, hclose⟩
    · have hlead := h.fullStart_le_start x
      omega
    · exact Or.inr (Or.inr ⟨hcomma, Or.inr ⟨hclose, hnext⟩⟩)
  · rcases stop_le_listAwareSpan h removed hn hxn hx hout with hle | ⟨hprev, hcomma, hclose⟩
    · omega
    · exact Or.inr (Or.inr ⟨hcomma, Or.inl ⟨hclose, hprev⟩⟩)

/-- A comma between two removed nodes goes with the second one only where the first one closes the list too. -/
theorem closes_of_shared_comma (hm : t.isTrivia m = false) (hn : IsItem t n) (hrem : removed n = true)
    (hnext : t.next? m = some c) (hprev : t.previous? n = some c) (hcomma : isComma t c = true)
    (hclose : Closes t removed n) : Closes t removed m := by
  have hpost := (h.preceding_of_previous hn.not_trivia hprev).2
  have hfollow : t.following m = c :: n :: t.following n := by
    rw [h.following_of_next hm hnext, hpost]
  obtain ⟨p, hp⟩ := SyntaxTree.parent_of_next hnext
  obtain ⟨q, hq⟩ := SyntaxTree.parent_of_previous hprev
  have hcp := h.mem_of_next hp hm hnext
  have hcq := h.mem_of_previous hq hn.not_trivia hprev
  have hpq : p = q := Option.some.inj
    ((h.parent_of_mem (SyntaxTree.mem_significantChildren.mp hcp).1).symm.trans
      (h.parent_of_mem (SyntaxTree.mem_significantChildren.mp hcq).1))
  subst hpq
  constructor
  · have hlist := hclose.1
    simp only [isListElement, hq] at hlist
    simp [isListElement, hp, hlist]
  · simp [hfollow, closes, hcomma, hn.not_closing, hrem, hclose.2]

theorem listAwareSpan_apart (hm : IsItem t m) (hn : IsItem t n) (hrem : removed n = true)
    (hb : t.Before m n) (hmn : OutsideCommas t m n) (hnm : OutsideCommas t n m)
    (hnext : ∀ c, t.next? m = some c → OutsideCommas t n c) :
    (listAwareSpan t removed m).stop ≤ (listAwareSpan t removed n).start := by
  have hfirst : (t.node m).stop ≤ (listAwareSpan t removed n).start := by
    rcases stop_le_listAwareSpan h removed hn.not_trivia hb hm.not_trivia hnm with hle | ⟨_, hcomma, _⟩
    · exact hle
    · exact absurd hcomma (by simp [hm.not_comma])
  rcases listAwareSpan_cases t removed m with he | ⟨_, _, _, _, he⟩ | ⟨c, hc, hcomma, hnot, he⟩
  · rw [he]
    exact hfirst
  · rw [he]
    exact hfirst
  · rw [he]
    rcases h.next_cases hm.not_trivia hc hb hn.not_trivia with hcn | hcn
    · obtain rfl := hmn c hcomma (Or.inr hc) hcn
      exact absurd hcomma (by simp [hn.not_comma])
    · rcases stop_le_listAwareSpan h removed hn.not_trivia hcn (isTrivia_of_isComma hcomma) (hnext c hc) with
        hle | ⟨hprev, _, hclose⟩
      · exact hle
      · -- The comma after `m` is the one before `n`, and both removals would take it.
        exact absurd (closes_of_shared_comma h hm.not_trivia hn hrem hc hprev hcomma hclose) hnot

theorem listAwareSpan_covers (removed : NodeId → Bool) (hn : t.isTrivia n = false) :
    (listAwareSpan t removed n).covers (t.node n) = true := by
  have hlead := h.fullStart_le_start n
  rw [Span.covers_iff]
  rcases listAwareSpan_cases t removed n with he | ⟨d, hd, _, _, he⟩ | ⟨c, hc, _, _, he⟩
  · rw [he]
    exact ⟨hlead, Nat.le_refl _⟩
  · have hle := h.stop_le_start (h.before_of_previous hn hd)
    rw [he]
    exact ⟨Nat.le_trans (h.start_le_stop d) hle, Nat.le_refl _⟩
  · have hle := h.stop_le_start (h.before_of_next hn hc)
    rw [he]
    exact ⟨hlead, Nat.le_trans hle (h.start_le_stop c)⟩

theorem Takes.covers (hn : t.isTrivia n = false) (hc : Takes t removed n c) :
    (listAwareSpan t removed n).covers (t.node c) = true := by
  rw [Span.covers_iff]
  obtain ⟨hcomma, ⟨hclose, hprev⟩ | ⟨hclose, hnext⟩⟩ := hc
  · have hle := h.stop_le_start (h.before_of_previous hn hprev)
    have hself := h.start_le_stop n
    rw [listAwareSpan_of_closes hclose, hprev]
    simp only [Option.filter_some, hcomma, if_true, Option.elim_some]
    omega
  · have hle := h.stop_le_start (h.before_of_next hn hnext)
    have hlead := h.fullStart_le_start n
    have hself := h.start_le_stop n
    rw [listAwareSpan_of_not_closes hclose, hnext]
    simp only [Option.filter_some, hcomma, if_true, Option.elim_some]
    omega

end

theorem nextCharSpan_eq (t : SyntaxTree) (n : NodeId) :
    nextCharSpan t n = ⟨(t.node n).fullStart,
      if Text.charAt? (t.node n).stop t.text = some ',' then (t.node n).stop + 1 else (t.node n).stop⟩ := by
  by_cases hc : Text.charAt? (t.node n).stop t.text = some ','
  · rw [if_pos hc]
    rw [Text.charAt?] at hc
    simp [nextCharSpan, fullSpan, hc]
  · rw [if_neg hc]
    rw [Text.charAt?] at hc
    simp [nextCharSpan, fullSpan, hc]

section

variable (h : t.Orderly) (hwf : t.WellFormed)
include h hwf

theorem exists_leaf_after (hn : n < t.nodes.size) (hcomma : Text.charAt? (t.node n).stop t.text = some ',') :
    ∃ l < t.nodes.size, t.children l = [] ∧ t.isTrivia l = false ∧ t.Before n l ∧
      (t.node l).start = (t.node n).stop ∧ (t.node n).stop < (t.node l).stop := by
  obtain ⟨l, hl, hleaf, hstart, hstop⟩ := hwf.covered hcomma (by decide)
  have hb : t.Before n l := by
    rcases h.below_or_before hn hl with hnl | hln | hnl | hln
    · have := (h.range_of_below hnl).2.1
      omega
    · obtain rfl := SyntaxTree.eq_of_below_leaf hleaf hln
      omega
    · exact hnl
    · have := h.stop_le_start hln
      have := h.start_le_stop n
      omega
  have heq : (t.node l).start = (t.node n).stop := Nat.le_antisymm hstart (h.stop_le_start hb)
  refine ⟨l, hl, hleaf, ?_, hb, heq, hstop⟩
  cases hk : (t.node l).kind with
  | comment => exact absurd (heq ▸ hcomma) (hwf.no_comma_start (by simp [hk, SyntaxTree.startsWithoutComma]))
  | _ => simp [SyntaxTree.isTrivia, hk, Kind.isTrivia]

theorem nextCharSpan_stop_le (hn : n < t.nodes.size) (hnt : t.isTrivia n = false) (hb : b < t.nodes.size)
    (hbefore : t.Before n b) (hpos : (t.node b).start < (t.node b).stop)
    (hbc : Text.charAt? (t.node b).start t.text ≠ some ',') :
    (nextCharSpan t n).stop ≤ (t.node b).fullStart := by
  have hlead := h.stop_le_lead hbefore hnt
  have hle := h.stop_le_start hbefore
  rw [nextCharSpan_eq]
  split
  · next hcomma =>
      obtain ⟨l, hl, hleaf, hlt, hnl, hstart, hstop⟩ := exists_leaf_after h hwf hn hcomma
      have hne : (t.node b).start ≠ (t.node n).stop := by
        intro he
        exact hbc (he ▸ hcomma)
      rcases h.below_or_before hl hb with hlb | hbl | hlb | hbl
      · obtain rfl := SyntaxTree.eq_of_below_leaf hleaf hlb
        exact absurd hstart hne
      · have := (h.range_of_below hbl).1
        omega
      · have := h.stop_le_lead hlb hlt
        exact Nat.le_trans hstop this
      · have := h.stop_le_start hbl
        omega
  · exact hlead

end

structure IsTarget (t : SyntaxTree) (n : NodeId) : Prop where
  kind : (t.node n).kind = .identifier ∨ (t.node n).kind = .variableStatement
  lt_size : n < t.nodes.size
  nonempty : (t.node n).start < (t.node n).stop

theorem IsTarget.isItem (hn : IsTarget t n) : IsItem t n := by
  rcases hn.kind with hk | hk <;>
    exact ⟨by simp [SyntaxTree.isTrivia, hk, Kind.isTrivia], by simp [isComma, hk], by simp [hk, Kind.isClosingBracket]⟩

section

variable (policy : SeparatorPolicy) (removed : NodeId → Bool) (h : t.Orderly) (hwf : t.WellFormed)

include h hwf in
theorem spanOf_stop_le (hm : IsTarget t m) (hx : IsTarget t x) (hb : t.Before m x) :
    (spanOf t policy removed m).stop ≤ (t.node x).fullStart := by
  cases policy with
  | listAware =>
      rcases listAwareSpan_stop_le h removed hm.isItem.not_trivia hb hx.isItem.not_trivia
        (outsideCommas_of_named hwf.toNamed m x) with hle | ⟨_, hcomma, _⟩
      · exact hle
      · exact absurd hcomma (by simp [hx.isItem.not_comma])
  | nextChar =>
      refine nextCharSpan_stop_le h hwf hm.lt_size hm.isItem.not_trivia hx.lt_size hb hx.nonempty
        (hwf.no_comma_start ?_)
      rcases hx.kind with hk | hk <;> simp [hk, SyntaxTree.startsWithoutComma]

include h hwf in
theorem stop_le_spanOf (hm : IsTarget t m) (hx : IsTarget t x) (hb : t.Before x m) :
    (t.node x).stop ≤ (spanOf t policy removed m).start := by
  cases policy with
  | listAware =>
      rcases stop_le_listAwareSpan h removed hm.isItem.not_trivia hb hx.isItem.not_trivia
        (outsideCommas_of_named hwf.toNamed m x) with hle | ⟨_, hcomma, _⟩
      · exact hle
      · exact absurd hcomma (by simp [hx.isItem.not_comma])
  | nextChar =>
      rw [spanOf, nextCharSpan_eq]
      exact h.stop_le_lead hb hx.isItem.not_trivia

include h hwf in
/-- Of two nodes that are removed together, what goes with the first one ends before what goes with the second one. -/
theorem spanOf_apart (hm : IsTarget t m) (hn : IsTarget t n) (hrem : removed n = true) (hb : t.Before m n) :
    (spanOf t policy removed m).stop ≤ (spanOf t policy removed n).start := by
  cases policy with
  | listAware =>
      have hleaf := outsideCommas_of_named hwf.toNamed
      exact listAwareSpan_apart h hm.isItem hn.isItem hrem hb (hleaf m n) (hleaf n m) fun c _ => hleaf n c
  | nextChar =>
      have hstart : (spanOf t .nextChar removed n).start = (t.node n).fullStart := by
        simp [spanOf, nextCharSpan_eq]
      rw [hstart]
      exact spanOf_stop_le .nextChar removed h hwf hm hn hb

include h in
theorem spanOf_covers (hn : t.isTrivia n = false) : (spanOf t policy removed n).covers (t.node n) = true := by
  cases policy with
  | listAware => exact listAwareSpan_covers h removed hn
  | nextChar =>
      rw [spanOf, nextCharSpan_eq, Span.covers_iff]
      refine ⟨h.fullStart_le_start n, ?_⟩
      dsimp only
      split <;> omega

include h hwf in
theorem spanOf_boundary (n : NodeId) :
    Text.IsBoundary (spanOf t policy removed n).start t.text ∧
      Text.IsBoundary (spanOf t policy removed n).stop t.text := by
  have hlead : Text.IsBoundary (t.node n).fullStart t.text := by
    rcases h.fullStart_source n with he | ⟨x, _, _, he⟩
    · rw [he]
      exact Text.isBoundary_zero _
    · rw [he]
      exact (hwf.boundary x).2
  cases policy with
  | listAware =>
      rw [spanOf]
      rcases listAwareSpan_cases t removed n with he | ⟨d, _, _, _, he⟩ | ⟨c, _, _, _, he⟩
      · rw [he]
        exact ⟨hlead, (hwf.boundary n).2⟩
      · rw [he]
        exact ⟨(hwf.boundary d).1, (hwf.boundary n).2⟩
      · rw [he]
        exact ⟨hlead, (hwf.boundary c).2⟩
  | nextChar =>
      rw [spanOf, nextCharSpan_eq]
      refine ⟨hlead, ?_⟩
      dsimp only
      split
      · next hcomma => exact Text.isBoundary_add_of_charAt hcomma
      · exact (hwf.boundary n).2

end

end Removal

end Unwire
