import Unwire.Proofs.KeptText
import Unwire.Proofs.StaleReferences

namespace Unwire

open Syntax

namespace Text

def isLineEnd (c : Char) : Bool := c == '\n' || c == '\r' || c == '\u2028' || c == '\u2029'

theorem charAt?_of_lt {n m : Nat} {cs : List Char} (hn : IsBoundary n cs) (hm : IsBoundary m cs) (hlt : n < m) :
    ∃ c, charAt? n cs = some c := by
  obtain ⟨part, hpart, hwidth⟩ := exists_slice hn hm (Nat.le_of_lt hlt)
  obtain ⟨pre, post, rfl, hpre, _⟩ := slice?_eq_some_iff.mp hpart
  cases part with
  | nil =>
      rw [width] at hwidth
      omega
  | cons c part => exact ⟨c, charAt?_eq_some_iff.mpr ⟨pre, part ++ post, by simp, hpre⟩⟩

theorem charAt?_mid_iff {n : Nat} {pre mid post : List Char} {c : Char} :
    (width pre ≤ n ∧ n < width (pre ++ mid) ∧ charAt? n (pre ++ mid ++ post) = some c) ↔
      ∃ a b, mid = a ++ c :: b ∧ width pre + width a = n := by
  have hpos := c.utf8Size_pos
  constructor
  · rintro ⟨hle, hlt, hc⟩
    obtain ⟨first, rest, hsplit, rfl⟩ := charAt?_eq_some_iff.mp hc
    rw [List.append_assoc] at hsplit
    obtain ⟨a, rfl, ha⟩ := exists_mid_of_width_le hsplit hle
    rw [width_append, width_append] at hlt
    obtain ⟨b, rfl, hb⟩ := exists_mid_of_width_le ha.symm (Nat.le_of_lt (Nat.lt_of_add_lt_add_left hlt))
    cases b with
    | nil =>
        rw [List.append_nil] at hlt
        omega
    | cons d b =>
        obtain ⟨rfl, _⟩ := List.cons.inj hb
        exact ⟨a, b, rfl, (width_append _ _).symm⟩
  · rintro ⟨a, b, rfl, rfl⟩
    refine ⟨Nat.le_add_right _ _, ?_, charAt?_eq_some_iff.mpr ⟨pre ++ a, b ++ post, by simp, width_append _ _⟩⟩
    simp only [width_append, width]
    omega

end Text

namespace Syntax.SyntaxTree

variable (t : SyntaxTree)

def IsLineComment (i : NodeId) : Prop :=
  (t.node i).kind = .comment ∧ "//".toList.isPrefixOf (t.textOf i).toList = true

instance (i : NodeId) : Decidable (t.IsLineComment i) := inferInstanceAs (Decidable (_ ∧ _))

/-- A line comment goes on to the end of its line, with which no token starts. -/
def LineComments : Prop :=
  ∀ i : NodeId, t.IsLineComment i →
    (Text.charAt? (t.node i).stop t.text).all Text.isLineEnd = true ∧
      ∀ l < t.nodes.size, t.children l = [] → (t.node l).start ≠ (t.node i).stop

instance : Decidable t.LineComments :=
  decidable_of_iff
    (∀ i < t.nodes.size, t.IsLineComment i →
      (Text.charAt? (t.node i).stop t.text).all Text.isLineEnd = true ∧
        ∀ l < t.nodes.size, t.children l = [] → (t.node l).start ≠ (t.node i).stop) <|
    t.forall_node_iff fun i hi => by
      simp [IsLineComment, node_of_size_le hi, default, instInhabitedNode.default, instInhabitedKind.default]

structure IsToken (l : NodeId) : Prop where
  lt_size : l < t.nodes.size
  leaf : t.children l = []
  not_trivia : t.isTrivia l = false
  nonempty : (t.node l).start < (t.node l).stop

variable {t} {i : Nat}

theorem IsLineComment.isTrivia (hi : t.IsLineComment i) : t.isTrivia i = true := by
  simp [SyntaxTree.isTrivia, hi.1, Kind.isTrivia]

theorem IsLineComment.nonempty (hi : t.IsLineComment i) : (t.node i).start < (t.node i).stop := by
  refine Nat.lt_of_not_le fun hle => ?_
  have htext : t.textOf i = "" := by
    rw [textOf, textBetween]
    cases hs : Text.slice? (t.node i).start (t.node i).stop t.text with
    | none => rfl
    | some part =>
        obtain ⟨_, _, _, _, hw⟩ := Text.slice?_eq_some_iff.mp hs
        obtain rfl := Text.eq_nil_of_width (by omega : Text.width part = 0)
        rfl
  have hprefix := hi.2
  rw [htext] at hprefix
  exact absurd hprefix (by decide)

end Syntax.SyntaxTree

namespace Removal

variable {t : SyntaxTree} {removed : NodeId → Bool} {setup i l n : Nat} {stale : List String}
  {policy : SeparatorPolicy}

section

variable (h : t.Orderly)
include h

theorem comment_cases {x : Nat} (hi : (t.node i).kind = .comment) (hx : t.isTrivia x = false) (hxs : x < t.nodes.size) :
    t.Below x i ∨ t.Before x i ∨ t.Before i x := by
  have hit : t.isTrivia i = true := by simp [SyntaxTree.isTrivia, hi, Kind.isTrivia]
  rcases h.below_or_before (lt_size_of_kind (by simp [hi] : (t.node i).kind ≠ .sourceFile)) hxs with hb | hb | hb | hb
  · rw [h.eq_of_below_trivia hit hb, hit] at hx
    exact absurd hx (by simp)
  · exact Or.inl hb
  · exact Or.inr (Or.inr hb)
  · exact Or.inr (Or.inl hb)

theorem comment_comma_cases (hwf : t.Named) {c : Nat} (hi : (t.node i).kind = .comment) (hc : isComma t c = true) :
    t.Before c i ∨ t.Before i c := by
  have hk : (t.node c).kind = .comma := by simpa [isComma] using hc
  rcases comment_cases h hi (isTrivia_of_isComma hc) (lt_size_of_kind (by simp [hk])) with hb | hb
  · rw [SyntaxTree.eq_of_below_leaf (hwf.comma_leaf hk) hb, hk] at hi
    exact absurd hi (by simp)
  · exact hb

theorem fullStart_comment (hi : (t.node i).kind = .comment) (n : NodeId) :
    (t.node n).fullStart ≤ (t.node i).start ∨ (t.node i).stop ≤ (t.node n).fullStart := by
  rcases h.fullStart_source n with he | ⟨x, hxs, hxt, he⟩
  · omega
  · have hself := h.start_le_stop x
    rw [he]
    rcases comment_cases h hi hxt hxs with hb | hb | hb
    · exact Or.inr (h.range_of_below hb).2.1
    · exact Or.inl (h.stop_le_start hb)
    · have := h.stop_le_start hb
      omega

theorem spanOf_start_comment (hwf : t.Named) (policy : SeparatorPolicy) (removed : NodeId → Bool)
    (hi : (t.node i).kind = .comment) (n : NodeId) :
    (spanOf t policy removed n).start ≤ (t.node i).start ∨ (t.node i).stop ≤ (spanOf t policy removed n).start := by
  have hlead := fullStart_comment h hi n
  cases policy with
  | listAware =>
      rw [spanOf]
      rcases listAwareSpan_cases t removed n with he | ⟨d, _, hcomma, _, he⟩ | ⟨c, _, _, _, he⟩
      · rw [he]
        exact hlead
      · rw [he]
        have hself := h.start_le_stop d
        rcases comment_comma_cases h hwf hi hcomma with hb | hb
        · exact Or.inl (Nat.le_trans hself (h.stop_le_start hb))
        · exact Or.inr (h.stop_le_start hb)
      · rw [he]
        exact hlead
  | nextChar =>
      rw [spanOf, nextCharSpan_eq]
      exact hlead

theorem spanOf_stop_comment (hwf : t.WellFormed) (policy : SeparatorPolicy) (removed : NodeId → Bool)
    (hi : (t.node i).kind = .comment) (hb : t.Before n i) :
    (spanOf t policy removed n).stop ≤ (t.node i).start ∨ (t.node i).stop ≤ (spanOf t policy removed n).stop := by
  have hle := h.stop_le_start hb
  cases policy with
  | listAware =>
      rw [spanOf]
      rcases listAwareSpan_cases t removed n with he | ⟨d, _, _, _, he⟩ | ⟨c, _, hcomma, _, he⟩
      · rw [he]
        exact Or.inl hle
      · rw [he]
        exact Or.inl hle
      · rw [he]
        have hself := h.start_le_stop c
        rcases comment_comma_cases h hwf.toNamed hi hcomma with hb | hb
        · exact Or.inl (h.stop_le_start hb)
        · exact Or.inr (Nat.le_trans (h.stop_le_start hb) hself)
  | nextChar =>
      rw [spanOf, nextCharSpan_eq]
      dsimp only
      split
      · next hcomma =>
          -- No comment starts with the comma character.
          have hne : (t.node i).start ≠ (t.node n).stop := fun he =>
            hwf.no_comma_start (by simp [hi, SyntaxTree.startsWithoutComma]) (he ▸ hcomma)
          omega
      · exact Or.inl hle

/-- A removal takes all of a comment or nothing of it. -/
theorem covers_comment_of_touches (hwf : t.WellFormed) (policy : SeparatorPolicy) (removed : NodeId → Bool)
    (hn : IsTarget t n) (hi : (t.node i).kind = .comment)
    (htouch : (spanOf t policy removed n).touches (t.node i) = true) :
    (spanOf t policy removed n).covers (t.node i) = true := by
  have hcover := spanOf_covers policy removed h hn.isItem.not_trivia
  obtain ⟨⟨hleft, hright⟩, _⟩ := Span.touches_iff.mp htouch
  rcases comment_cases h hi hn.isItem.not_trivia hn.lt_size with hb | hb | hb
  · exact covers_of_below h hcover hb
  · have hle := h.stop_le_start hb
    have hself := h.start_le_stop n
    rw [Span.covers_iff] at hcover ⊢
    rcases spanOf_stop_comment h hwf policy removed hi hb with hs | hs <;> omega
  · have hle := h.stop_le_start hb
    have hself := h.start_le_stop n
    rw [Span.covers_iff] at hcover ⊢
    rcases spanOf_start_comment h hwf.toNamed policy removed hi n with hs | hs <;> omega

theorem exists_end_of_start (hwf : t.Named) (hlines : t.LineComments) (hi : t.IsLineComment i)
    (hs : (spanOf t policy removed n).start = (t.node i).stop) :
    ∃ x, t.isTrivia x = false ∧ t.Below x i ∧ (t.node x).stop = (t.node i).stop := by
  have hpos := hi.nonempty
  have htoken := (hlines i hi).2
  have hlead : (t.node n).fullStart = (t.node i).stop := by
    cases policy with
    | listAware =>
        rw [spanOf] at hs
        rcases listAwareSpan_cases t removed n with he | ⟨d, _, hcomma, _, he⟩ | ⟨c, _, _, _, he⟩
        · rwa [he] at hs
        · rw [he] at hs
          have hk : (t.node d).kind = .comma := by simpa [isComma] using hcomma
          exact absurd hs (htoken d (lt_size_of_kind (by simp [hk])) (hwf.comma_leaf hk))
        · rwa [he] at hs
    | nextChar => rwa [spanOf, nextCharSpan_eq] at hs
  rcases h.fullStart_source n with he | ⟨x, hxs, hxt, he⟩
  · omega
  · have hself := h.start_le_stop x
    rcases comment_cases h hi.1 hxt hxs with hb | hb | hb
    · exact ⟨x, hxt, hb, by omega⟩
    · have := h.stop_le_start hb
      omega
    · -- An empty node after the comment would hold a token that starts with the end of the line.
      have hle := h.stop_le_start hb
      obtain ⟨l, hl, hleaf⟩ := h.exists_leaf_below x
      have hrange := h.range_of_below hl
      have hls := h.start_le_stop l
      exact absurd (by omega) (htoken l (h.lt_size_of_below hl hxs) hleaf)

theorem plan_not_touches_comment (hwf : t.WellFormed) (hi : (t.node i).kind = .comment) {r : Removal}
    (hr : r ∈ plan t setup stale policy) (hkept : r.span.covers (t.node i) = false) :
    r.span.touches (t.node i) = false := by
  obtain ⟨n, hn, hspan⟩ := exists_node_of_mem_plan h.toLinked hr
  have hmem := (mem_removedNodes h.toLinked).mpr (hn.imp And.right And.right)
  rw [hspan] at hkept ⊢
  refine Bool.eq_false_iff.mpr fun htouch => ?_
  rw [covers_comment_of_touches h hwf policy _ (isTarget_of_mem h hwf.toNamed hmem) hi htouch] at hkept
  exact absurd hkept (by simp)

end

def LineEndLeft (removals : List Removal) (text : List Char) (start stop : Nat) : Prop :=
  ∃ n c, (start ≤ n ∧ n < stop ∧ Text.charAt? n text = some c) ∧ Text.isLineEnd c = true ∧ isTaken removals n = false

/-- A statement ends in the comment `i`, a removal starts where both end, and it leaves no line end up to byte `stop`. -/
def SwallowsLine (t : SyntaxTree) (removals : List Removal) (i : NodeId) (stop : Nat) : Prop :=
  (∃ x, t.isTrivia x = false ∧ t.Below x i ∧ (t.node x).stop = (t.node i).stop) ∧
    ∃ r ∈ removals, r.span.start = (t.node i).stop ∧ ¬LineEndLeft removals t.text r.span.stop stop

section

variable (h : t.Orderly) (hwf : t.WellFormed)
include h hwf

theorem lineEndLeft_iff (hlines : t.LineComments) (hi : t.IsLineComment i)
    (hkept : ∀ r ∈ plan t setup stale policy, r.span.covers (t.node i) = false) (hl : t.IsToken l)
    (hafter : (t.node i).stop ≤ (t.node l).start) :
    LineEndLeft (plan t setup stale policy) t.text (t.node i).stop (t.node l).start ↔
      ¬SwallowsLine t (plan t setup stale policy) i (t.node l).start := by
  constructor
  · rintro ⟨n, c, ⟨hle, hlt, hc⟩, hend, hn⟩ ⟨_, r, hr, hstart, hnone⟩
    by_cases hs : r.span.stop ≤ n
    · exact hnone ⟨n, c, ⟨hs, hlt, hc⟩, hend, hn⟩
    · rw [isTaken_eq_true_iff.mpr ⟨r, hr, by omega, by omega⟩] at hn
      exact absurd hn (by simp)
  · intro hnot
    have hbefore : (t.node i).stop < (t.node l).start :=
      Nat.lt_of_le_of_ne hafter ((hlines i hi).2 l hl.lt_size hl.leaf).symm
    obtain ⟨c, hc⟩ := Text.charAt?_of_lt (hwf.boundary i).2 (hwf.boundary l).1 hbefore
    have hend : Text.isLineEnd c = true := by
      have hall := (hlines i hi).1
      rwa [hc] at hall
    cases hn : isTaken (plan t setup stale policy) (t.node i).stop with
    | false => exact ⟨_, c, ⟨Nat.le_refl _, hbefore, hc⟩, hend, hn⟩
    | true =>
        obtain ⟨r, hr, hle, hlt⟩ := isTaken_eq_true_iff.mp hn
        -- The removal takes nothing of the comment, so it starts right after it.
        have hstart : r.span.start = (t.node i).stop := by
          refine Nat.le_antisymm hle (Nat.le_of_not_lt fun hin => ?_)
          have hpos := hi.nonempty
          have htouch : r.span.touches (t.node i) = true := by
            rw [Span.touches_iff]
            omega
          exact absurd htouch (by simp [plan_not_touches_comment h hwf hi.1 hr (hkept r hr)])
        obtain ⟨n, _, hspan⟩ := exists_node_of_mem_plan h.toLinked hr
        have hx := exists_end_of_start h hwf.toNamed hlines hi (hspan ▸ hstart)
        have hleft := Classical.not_not.mp fun hnone => hnot ⟨hx, r, hr, hstart, hnone⟩
        obtain ⟨m, d, ⟨hm, hml, hd⟩, hrest⟩ := hleft
        exact ⟨m, d, ⟨by omega, hml, hd⟩, hrest⟩

omit h in
theorem exists_parts (hi : (t.node i).start ≤ (t.node i).stop) (hl : (t.node l).start ≤ (t.node l).stop)
    (hafter : (t.node i).stop ≤ (t.node l).start) :
    ∃ before mid after, t.text = before ++ (t.textOf i).toList ++ mid ++ (t.textOf l).toList ++ after ∧
      Text.width before = (t.node i).start ∧ Text.width (before ++ (t.textOf i).toList) = (t.node i).stop ∧
      Text.width (before ++ (t.textOf i).toList ++ mid) = (t.node l).start ∧
      Text.width (before ++ (t.textOf i).toList ++ mid ++ (t.textOf l).toList) = (t.node l).stop := by
  obtain ⟨first, hfirst, _⟩ := Text.exists_slice (hwf.boundary i).1 (hwf.boundary i).2 hi
  obtain ⟨second, hsecond, _⟩ := Text.exists_slice (hwf.boundary l).1 (hwf.boundary l).2 hl
  have hi : (t.textOf i).toList = first := by simp [SyntaxTree.textOf, SyntaxTree.textBetween, hfirst]
  have hl : (t.textOf l).toList = second := by simp [SyntaxTree.textOf, SyntaxTree.textBetween, hsecond]
  obtain ⟨before, rest, htext, hbefore, hstop⟩ := Text.slice?_eq_some_iff.mp hfirst
  obtain ⟨pre, after, htext', hpre, hstop'⟩ := Text.slice?_eq_some_iff.mp hsecond
  rw [← hbefore, ← Text.width_append] at hstop
  rw [← hpre, ← Text.width_append] at hstop'
  rw [List.append_assoc pre] at htext'
  obtain ⟨mid, rfl, _⟩ := Text.exists_mid_of_width_le (htext.symm.trans htext') (by omega)
  rw [← List.append_assoc] at htext'
  rw [hi, hl]
  exact ⟨before, mid, after, htext', hbefore, hstop, hpre, hstop'⟩

omit h hwf in
theorem isTaken_of_not_touches {removals : List Removal} (hkept : ∀ r ∈ removals, r.span.touches (t.node i) = false)
    (m : Nat) (hle : (t.node i).start ≤ m) (hlt : m < (t.node i).stop) : isTaken removals m = false := by
  refine Bool.eq_false_iff.mpr fun hm => ?_
  obtain ⟨r, hr, hstart, hstop⟩ := isTaken_eq_true_iff.mp hm
  have htouch : r.span.touches (t.node i) = true := by
    rw [Span.touches_iff]
    omega
  exact absurd htouch (by simp [hkept r hr])

theorem applyEdits_plan_around (path text : String) (htext : t.text = text.toList)
    (hi : ∀ r ∈ plan t setup stale policy, r.span.touches (t.node i) = false)
    (hl : ∀ r ∈ plan t setup stale policy, r.span.touches (t.node l) = false)
    (hafter : (t.node i).stop ≤ (t.node l).start) :
    ∃ before mid after, applyEdits text ((plan t setup stale policy).map (Edit.ofRemoval path t)) =
        .ok (.ofList (before ++ (t.textOf i).toList ++ mid ++ (t.textOf l).toList ++ after)) ∧
      ((∃ c ∈ mid, Text.isLineEnd c = true) ↔
        LineEndLeft (plan t setup stale policy) t.text (t.node i).stop (t.node l).start) := by
  obtain ⟨before, mid, after, hparts, hstart, hstop, hstart', hstop'⟩ :=
    exists_parts hwf (h.start_le_stop i) (h.start_le_stop l) hafter
  have hgi := isTaken_of_not_touches hi
  have hgl := isTaken_of_not_touches hl
  rw [applyEdits_plan h hwf path text htext, ← htext, LineEndLeft]
  generalize isTaken (plan t setup stale policy) = gone at hgi hgl ⊢
  have hfirst : Text.without gone (t.node i).start (t.textOf i).toList = (t.textOf i).toList :=
    Text.without_eq_self fun n hle hlt => hgi n hle (by rw [Text.width_append] at hstop; omega)
  have hsecond : Text.without gone (t.node l).start (t.textOf l).toList = (t.textOf l).toList :=
    Text.without_eq_self fun n hle hlt => hgl n hle (by rw [Text.width_append] at hstop'; omega)
  refine ⟨Text.without gone 0 before, Text.without gone (t.node i).stop mid,
    Text.without gone (t.node l).stop after, ?_, ?_⟩
  · rw [hparts]
    simp only [Text.without_append gone 0, Nat.zero_add, hstart, hstop, hstart', hstop', hfirst, hsecond]
  · simp only [Text.mem_without]
    constructor
    · rintro ⟨c, ⟨pre, post, hmid, hg⟩, hc⟩
      refine ⟨_, c, ?_, hc, hg⟩
      rw [hparts, ← hstop, ← hstart', List.append_assoc _ (t.textOf l).toList]
      exact Text.charAt?_mid_iff.mpr ⟨pre, post, hmid, rfl⟩
    · rintro ⟨n, c, hn, hc, hg⟩
      rw [hparts, ← hstop, ← hstart', List.append_assoc _ (t.textOf l).toList] at hn
      obtain ⟨pre, post, hmid, rfl⟩ := Text.charAt?_mid_iff.mp hn
      exact ⟨c, ⟨pre, post, hmid, hstop ▸ hg⟩, hc⟩

end

/-- A line comment and a later token that both stay are on different lines after the removals of a plan, too, unless a
statement ends in the comment and a removal that starts there takes the line ends up to the token. -/
theorem comment_keeps_line_iff (path text : String) (p : Parse.ParseTree)
    (hwf : (SyntaxTree.ofParse text p).WellFormed) (hlines : (SyntaxTree.ofParse text p).LineComments)
    (setup : NodeId) (stale : List String) (policy : SeparatorPolicy) (i l : NodeId)
    (hi : (SyntaxTree.ofParse text p).IsLineComment i) (hl : (SyntaxTree.ofParse text p).IsToken l)
    (hafter : ((SyntaxTree.ofParse text p).node i).stop ≤ ((SyntaxTree.ofParse text p).node l).start)
    (hikept : ∀ r ∈ plan (.ofParse text p) setup stale policy,
      r.span.covers ((SyntaxTree.ofParse text p).node i) = false)
    (hlkept : ∀ r ∈ plan (.ofParse text p) setup stale policy,
      r.span.touches ((SyntaxTree.ofParse text p).node l) = false) :
    let t := SyntaxTree.ofParse text p
    let removals := plan t setup stale policy
    (LineEndLeft removals text.toList (t.node i).stop (t.node l).start ↔
      ¬SwallowsLine t removals i (t.node l).start) ∧
    ∃ before between after, applyEdits text (removals.map (Edit.ofRemoval path t)) =
        .ok (.ofList (before ++ (t.textOf i).toList ++ between ++ (t.textOf l).toList ++ after)) ∧
      ((∃ c ∈ between, Text.isLineEnd c = true) ↔
        LineEndLeft removals text.toList (t.node i).stop (t.node l).start) := by
  intro t removals
  have h : t.Orderly := hwf.toNested.orderly
  have hitouch : ∀ r ∈ removals, r.span.touches (t.node i) = false := fun r hr =>
    plan_not_touches_comment h hwf hi.1 hr (hikept r hr)
  exact ⟨lineEndLeft_iff h hwf hlines hi hikept hl hafter,
    applyEdits_plan_around h hwf path text rfl hitouch hlkept hafter⟩

def noteText : String := "function setup() \x7b\n  let x = 1 // note\n  let a; return new C(a, x)\n\x7d\n"

def noteTree : Parse.ParseTree where
  root := .node "program" none 0 69 [
    .node "function_declaration" none 0 68 [
      .node "function" none 0 8 [],
      .node "identifier" (some "name") 9 14 [],
      .node "formal_parameters" (some "parameters") 14 16 [.node "(" none 14 15 [], .node ")" none 15 16 []],
      .node "statement_block" (some "body") 17 68 [
        .node "\x7b" none 17 18 [],
        .node "lexical_declaration" none 21 38 [
          .node "let" (some "kind") 21 24 [],
          .node "variable_declarator" none 25 30 [
            .node "identifier" (some "name") 25 26 [],
            .node "=" none 27 28 [],
            .node "number" (some "value") 29 30 []],
          .node "comment" none 31 38 []],
        .node "lexical_declaration" none 41 47 [
          .node "let" (some "kind") 41 44 [],
          .node "variable_declarator" none 45 46 [.node "identifier" (some "name") 45 46 []],
          .node ";" none 46 47 []],
        .node "return_statement" none 48 66 [
          .node "return" none 48 54 [],
          .node "new_expression" none 55 66 [
            .node "new" none 55 58 [],
            .node "identifier" (some "constructor") 59 60 [],
            .node "arguments" (some "arguments") 60 66 [
              .node "(" none 60 61 [],
              .node "identifier" none 61 62 [],
              .node "," none 62 63 [],
              .node "identifier" none 64 65 [],
              .node ")" none 65 66 []]]],
        .node "\x7d" none 67 68 []]]]
  faulty := false

/-- Without the declaration of `a`, the `return` is part of the comment. -/
theorem note_swallows_return :
    let t := SyntaxTree.ofParse noteText noteTree
    let removals := plan t 1 ["a"] .listAware
    t.WellFormed ∧ t.LineComments ∧ ¬LineEndLeft removals noteText.toList (t.node 15).stop (t.node 22).start ∧
      ∃ before between after, applyEdits noteText (removals.map (Edit.ofRemoval "x.spec.ts" t)) =
          .ok (.ofList (before ++ "// note".toList ++ between ++ "return".toList ++ after)) ∧
        ¬∃ c ∈ between, Text.isLineEnd c = true := by
  intro t removals
  have hwf : t.WellFormed := by decide +kernel
  have hlines : t.LineComments := by decide +kernel
  have hspans : removals.map (·.span) = [⟨38, 47⟩, ⟨61, 63⟩] := by
    rw [plan_spans]
    decide +kernel
  have hmem : ∀ r ∈ removals, r.span = ⟨38, 47⟩ ∨ r.span = ⟨61, 63⟩ := by
    intro r hr
    have hspan := List.mem_map_of_mem (f := (·.span)) hr
    rw [hspans] at hspan
    simpa using hspan
  have hikept : ∀ r ∈ removals, r.span.covers (t.node 15) = false := by
    intro r hr
    rcases hmem r hr with hs | hs <;> rw [hs] <;> decide +kernel
  have hlkept : ∀ r ∈ removals, r.span.touches (t.node 22) = false := by
    intro r hr
    rcases hmem r hr with hs | hs <;> rw [hs] <;> decide +kernel
  have hi : t.IsLineComment 15 := by decide +kernel
  have hl : t.IsToken 22 := ⟨by decide +kernel, by decide +kernel, by decide +kernel, by decide +kernel⟩
  have hswallow : SwallowsLine t removals 15 (t.node 22).start := by
    obtain ⟨r, hr, hs⟩ : ∃ r ∈ removals, r.span = ⟨38, 47⟩ := by
      refine List.mem_map.mp ?_
      rw [hspans]
      exact List.mem_cons_self
    refine ⟨⟨9, by decide +kernel, .child .self (by decide +kernel), by decide +kernel⟩, r, hr, ?_, ?_⟩
    · rw [hs]
      decide +kernel
    · rintro ⟨n, c, ⟨hle, hlt, hc⟩, hend, _⟩
      have hstart : (t.node 22).start = 48 := by decide +kernel
      rw [hs] at hle
      obtain rfl : n = 47 := by
        dsimp only at hle
        omega
      have hspace : Text.charAt? 47 t.text = some ' ' := by decide +kernel
      obtain rfl := Option.some.inj (hspace.symm.trans hc)
      exact absurd hend (by decide)
  obtain ⟨hiff, before, between, after, hpatched, hbetween⟩ :=
    comment_keeps_line_iff "x.spec.ts" noteText noteTree hwf hlines 1 ["a"] .listAware 15 22 hi hl (by decide +kernel)
      hikept hlkept
  have hnone := fun hleft => hiff.mp hleft hswallow
  exact ⟨hwf, hlines, hnone, before, between, after, hpatched, fun hsome => hnone (hbetween.mp hsome)⟩

end Removal

end Unwire
