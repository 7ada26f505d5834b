import Mathlib.Data.List.Induction
import Unwire.Proofs.Patching

namespace Unwire

namespace Text

/-- A carriage return with a line feed after it is one line break. -/
def lineBreaks : List (List Char) :=
  [['\r', '\n'], ['\n'], ['\r'], ['\x0b'], ['\x0c'], ['\u0085'], ['\u2028'], ['\u2029']]

/-- Whether a line starts at character `k`: the first line does at the front, and any other one after a line break, but
not inside of one. -/
def startsLine (cs : List Char) (k : Nat) : Bool :=
  k == 0 || (lineBreaks.any (·.isSuffixOf (cs.take k)) &&
    !(['\r'].isSuffixOf (cs.take k) && ['\n'].isPrefixOf (cs.drop k)))

def lineStartsUpTo (cs : List Char) (k : Nat) : List Nat := (List.range (k + 1)).filter (startsLine cs)

def lineStarts (cs : List Char) : List Nat := lineStartsUpTo cs cs.length

namespace Position

def Before (p q : Position) : Prop := p.line < q.line ∨ p.line = q.line ∧ p.column < q.column

variable {p q r : Position} {c : Char} {pre post : List Char}

theorem Before.trans (hpq : p.Before q) (hqr : q.Before r) : p.Before r := by
  unfold Before at *
  omega

theorem Before.ne (h : p.Before q) : p ≠ q := by
  rintro rfl
  unfold Before at h
  omega

theorem before_next (p : Position) (c : Char) (rest : List Char) : p.Before (p.next c rest) := by
  unfold next
  split
  · exact Or.inl (Nat.lt_succ_self _)
  · exact Or.inr ⟨rfl, Nat.lt_succ_self _⟩

theorem advance_zero (p : Position) (cs : List Char) : p.advance 0 cs = p := by
  cases cs with
  | nil => rfl
  | cons c cs =>
      have hpos := c.utf8Size_pos
      rw [advance, if_neg (by omega)]

theorem advance_cons (p : Position) (c : Char) (n : Nat) (cs : List Char) :
    p.advance (c.utf8Size + n) (c :: cs) = (p.next c cs).advance n cs := by
  rw [advance, if_pos (by omega), Nat.add_sub_cancel_left]

theorem advance_append (p : Position) (pre : List Char) (n : Nat) (post : List Char) :
    ∃ q, p.advance (width pre) (pre ++ post) = q ∧ p.advance (width pre + n) (pre ++ post) = q.advance n post := by
  induction pre generalizing p with
  | nil => exact ⟨p, advance_zero p post, by simp [width]⟩
  | cons c pre ih =>
      rw [width, List.cons_append, Nat.add_assoc, advance_cons, advance_cons]
      exact ih (p.next c (pre ++ post))

end Position

theorem position_append (pre post : List Char) (n : Nat) :
    position (width pre + n) (pre ++ post) = (position (width pre) (pre ++ post)).advance n post := by
  obtain ⟨q, rfl, hq⟩ := Position.advance_append ⟨0, 0⟩ pre n post
  exact hq

theorem position_concat (pre : List Char) (c : Char) (post : List Char) :
    position (width (pre ++ [c])) (pre ++ c :: post) = (position (width pre) (pre ++ c :: post)).next c post := by
  have hwidth : width (pre ++ [c]) = width pre + (c.utf8Size + 0) := by rw [width_append]; rfl
  rw [hwidth, position_append, Position.advance_cons, Position.advance_zero]

theorem before_advance (p : Position) {mid : List Char} (hmid : mid ≠ []) (post : List Char) :
    p.Before (p.advance (width mid) (mid ++ post)) := by
  induction mid generalizing p with
  | nil => exact absurd rfl hmid
  | cons c mid ih =>
      rw [width, List.cons_append, Position.advance_cons]
      have hnext := p.before_next c (mid ++ post)
      by_cases hnil : mid = []
      · subst hnil
        rw [width, Position.advance_zero]
        exact hnext
      · exact hnext.trans (ih _ hnil)

theorem position_before {m n : Nat} {cs : List Char} (hm : IsBoundary m cs) (hn : IsBoundary n cs) (h : m < n) :
    (position m cs).Before (position n cs) := by
  obtain ⟨pre, rest, rfl, rfl⟩ := isBoundary_iff.mp hm
  obtain ⟨pre', post, hcs, rfl⟩ := isBoundary_iff.mp hn
  obtain ⟨mid, rfl, rfl⟩ := exists_mid_of_width_le hcs (Nat.le_of_lt h)
  rw [width_append, position_append]
  apply before_advance
  rintro rfl
  simp at h

theorem charIndex_append (pre post : List Char) : charIndex (width pre) (pre ++ post) = pre.length := by
  induction pre with
  | nil =>
      cases post with
      | nil => rfl
      | cons c post =>
          have hpos := c.utf8Size_pos
          rw [width, List.nil_append, charIndex, if_neg (by omega), List.length_nil]
  | cons c pre ih =>
      rw [width, List.cons_append, charIndex, if_pos (by omega), Nat.add_sub_cancel_left, ih, List.length_cons]

theorem isSuffixOf_concat (front : List Char) (d : Char) (pre : List Char) (c : Char) :
    (front ++ [d]).isSuffixOf (pre ++ [c]) = (c == d && front.isSuffixOf pre) := by
  rw [List.isSuffixOf, List.reverse_concat, List.reverse_concat, List.isPrefixOf, BEq.comm]
  rfl

theorem startsLine_concat (pre : List Char) (c : Char) (post : List Char) :
    startsLine (pre ++ c :: post) (pre.length + 1) = endsLine c post := by
  have hcs : pre ++ c :: post = (pre ++ [c]) ++ post := by rw [List.append_assoc, List.singleton_append]
  have hlength : (pre ++ [c]).length = pre.length + 1 := List.length_append
  have hsingle (d : Char) : [d].isSuffixOf (pre ++ [c]) = (c == d) := by
    rw [← List.nil_append [d], isSuffixOf_concat, List.isSuffixOf_nil_left, Bool.and_true]
  have hpair : ['\r', '\n'].isSuffixOf (pre ++ [c]) = (c == '\n' && ['\r'].isSuffixOf pre) :=
    isSuffixOf_concat ['\r'] '\n' pre c
  have hnext : ['\n'].isPrefixOf post = (post.head? == some '\n') := by
    cases post with
    | nil => rfl
    | cons d post => simp [List.isPrefixOf, eq_comm]
  rw [startsLine, hcs, List.take_left' hlength, List.drop_left' hlength, hnext, endsLine]
  simp only [lineBreaks, List.any_cons, List.any_nil, hsingle, hpair]
  by_cases hr : c = '\r'
  · subst hr
    simp [bne]
  · rw [beq_false_of_ne hr]
    cases c == '\n' <;> simp [Bool.or_assoc]

theorem lineStartsUpTo_succ (cs : List Char) (k : Nat) :
    lineStartsUpTo cs (k + 1) = lineStartsUpTo cs k ++ if startsLine cs (k + 1) then [k + 1] else [] := by
  rw [lineStartsUpTo, List.range_succ, List.filter_append, List.filter_cons, List.filter_nil, lineStartsUpTo]

theorem exists_lineStartsUpTo (pre post : List Char) : ∃ earlier start,
    lineStartsUpTo (pre ++ post) pre.length = earlier ++ [start] ∧
      (position (width pre) (pre ++ post)).line = earlier.length ∧
      pre.length = start + (position (width pre) (pre ++ post)).column := by
  -- From the end, since whether a character ends a line is up to the one after it.
  induction pre using List.reverseRecOn generalizing post with
  | nil =>
      have hfront : position (width []) ([] ++ post) = ⟨0, 0⟩ := Position.advance_zero _ _
      rw [hfront]
      exact ⟨[], 0, rfl, rfl, rfl⟩
  | append_singleton pre c ih =>
      obtain ⟨earlier, start, hstarts, hline, hcolumn⟩ := ih (c :: post)
      rw [List.append_assoc, List.singleton_append, position_concat, List.length_append, List.length_singleton,
        lineStartsUpTo_succ, startsLine_concat, hstarts, Position.next]
      split
      · refine ⟨earlier ++ [start], pre.length + 1, rfl, ?_, rfl⟩
        rw [hline, List.length_append, List.length_singleton]
      · refine ⟨earlier, start, List.append_nil _, hline, ?_⟩
        rw [hcolumn, Nat.add_assoc]

theorem exists_lineStarts (cs : List Char) {k : Nat} (hk : k ≤ cs.length) :
    ∃ later, lineStarts cs = lineStartsUpTo cs k ++ later ∧ ∀ start ∈ later, k < start := by
  obtain ⟨n, hn⟩ := Nat.exists_eq_add_of_le hk
  have hrange : cs.length + 1 = k + 1 + n := by omega
  refine ⟨((List.range n).map (k + 1 + ·)).filter (startsLine cs), ?_, fun start hstart => ?_⟩
  · rw [lineStarts, lineStartsUpTo, hrange, List.range_add, List.filter_append, lineStartsUpTo]
  · obtain ⟨i, -, rfl⟩ := List.mem_map.mp (List.mem_filter.mp hstart).1
    omega

/-- A position gives the line that an offset is on, and the distance from the start of that line. -/
theorem exists_lineStart (pre post : List Char) :
    ∃ start, (lineStarts (pre ++ post))[(position (width pre) (pre ++ post)).line]? = some start ∧
      pre.length = start + (position (width pre) (pre ++ post)).column ∧
      ∀ next ∈ (lineStarts (pre ++ post))[(position (width pre) (pre ++ post)).line + 1]?, pre.length < next := by
  obtain ⟨earlier, start, hstarts, hline, hcolumn⟩ := exists_lineStartsUpTo pre post
  have hpre : pre.length ≤ (pre ++ post).length := by simp
  obtain ⟨later, hlater, hafter⟩ := exists_lineStarts (pre ++ post) hpre
  rw [hstarts, List.append_assoc, List.singleton_append] at hlater
  refine ⟨start, by simp [hlater, hline], hcolumn, fun next hnext => ?_⟩
  rw [hlater, hline, List.getElem?_append_right (Nat.le_add_right _ 1), Nat.add_sub_cancel_left,
    List.getElem?_cons_succ] at hnext
  exact hafter next (List.mem_of_getElem? hnext)

end Text

namespace Edit

variable {text : List Char} {e f : Edit}

theorem Fits.exists_place (h : e.Fits text) : ∃ pre post, text = pre ++ (e.text.toList ++ post) ∧
    Text.width pre = e.start ∧ e.place? text = some ⟨e.position text, pre.length, (pre ++ e.text.toList).length⟩ := by
  obtain ⟨pre, post, htext, hstart, hstop⟩ := Text.slice?_eq_some_iff.mp h
  have hwidth : Text.width (pre ++ e.text.toList) = e.stop := by rw [Text.width_append, hstart, hstop]
  have hfirst : Text.charIndex e.start text = pre.length := by
    rw [htext, List.append_assoc, ← hstart, Text.charIndex_append]
  have hstopChar : Text.charIndex e.stop text = (pre ++ e.text.toList).length := by
    rw [htext, ← hwidth, Text.charIndex_append]
  refine ⟨pre, post, by rw [htext, List.append_assoc], hstart, ?_⟩
  rw [place?, if_pos (Text.le_width_of_isBoundary h.boundaries.2), hfirst, hstopChar]

theorem Fits.start_eq (he : e.Fits text) (hf : f.Fits text) (h : e.position text = f.position text) :
    e.start = f.start := by
  rcases Nat.lt_trichotomy e.start f.start with hlt | heq | hlt
  · exact absurd h (Text.position_before he.boundaries.1 hf.boundaries.1 hlt).ne
  · exact heq
  · exact absurd h.symm (Text.position_before hf.boundaries.1 he.boundaries.1 hlt).ne

end Edit

/-- The place of an edit gives back the characters that it removes and the line that it starts on, and offsets of a text
are in the order of their positions; so edits that start apart have different positions. -/
theorem positions_identify_edits (text : List Char) :
    (∀ e : Edit, e.Fits text → ∃ place, e.place? text = some place ∧ place.position = e.position text ∧
      place.firstChar ≤ place.stopChar ∧ place.stopChar ≤ text.length ∧
      (text.take place.stopChar).drop place.firstChar = e.text.toList ∧
      ∃ start, (Text.lineStarts text)[place.position.line]? = some start ∧
        place.firstChar = start + place.position.column ∧
        ∀ next ∈ (Text.lineStarts text)[place.position.line + 1]?, place.firstChar < next) ∧
    (∀ m n, Text.IsBoundary m text → Text.IsBoundary n text → m < n →
      (Text.position m text).Before (Text.position n text)) ∧
    ∀ e f : Edit, e.Fits text → f.Fits text → e.position text = f.position text → e.start = f.start := by
  refine ⟨fun e he => ?_, fun m n hm hn h => Text.position_before hm hn h, fun e f he hf => he.start_eq hf⟩
  obtain ⟨pre, post, htext, hstart, hplace⟩ := he.exists_place
  obtain ⟨start, hline, hcolumn, hnext⟩ := Text.exists_lineStart pre (e.text.toList ++ post)
  rw [← htext, hstart] at hline hcolumn hnext
  refine ⟨_, hplace, rfl, by simp, by simp [htext], ?_, start, hline, hcolumn, hnext⟩
  rw [htext, ← List.append_assoc, List.take_left, List.drop_left]

theorem line_feed_identified :
    let text := "é\r\nb".toList
    let e : Edit := ⟨"a.spec.ts", 3, "\nb"⟩
    e.place? text = some ⟨⟨0, 2⟩, 2, 4⟩ ∧ (text.take 4).drop 2 = e.text.toList ∧
      (Text.lineStarts text)[0]? = some 0 ∧ (Text.position 3 text).Before (Text.position 4 text) := by
  intro text e
  have hplace : e.place? text = some ⟨⟨0, 2⟩, 2, 4⟩ := by decide
  obtain ⟨hedits, hoffsets, -⟩ := positions_identify_edits text
  obtain ⟨place, hfound, -, -, -, hchars, start, hline, hcolumn, -⟩ := hedits e (by decide)
  obtain rfl := Option.some.inj (hplace.symm.trans hfound)
  obtain rfl : start = 0 := by simpa using hcolumn
  exact ⟨hplace, hchars, hline, hoffsets 3 4 (by decide) (by decide) (by decide)⟩

end Unwire
