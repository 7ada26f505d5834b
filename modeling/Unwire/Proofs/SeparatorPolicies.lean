import Mathlib.Tactic.ByContra
import Unwire.Proofs.SeparatedLists

namespace Unwire.Removal

open Syntax

variable {t : SyntaxTree} {removed : NodeId → Bool} {elements row : List Nat} {trailing : Bool}
  {c d e f last list opening closing : Nat}

def commaBefore? (t : SyntaxTree) (n : NodeId) : Option NodeId := (t.previous? n).filter (isComma t)

def commaAfter? (t : SyntaxTree) (n : NodeId) : Option NodeId := (t.next? n).filter (isComma t)

/-- A comma that follows a node follows it at once, and a comma character right after the node is such a comma. -/
structure Tight (t : SyntaxTree) (n : NodeId) : Prop where
  adjacent : ∀ c ∈ commaAfter? t n, (t.node c).start = (t.node n).stop ∧ t.textOf c = ","
  token : Text.charAt? (t.node n).stop t.text = some ',' → (commaAfter? t n).isSome = true

instance (t : SyntaxTree) (n : NodeId) : Decidable (Tight t n) :=
  decidable_of_iff
    ((∀ c ∈ commaAfter? t n, (t.node c).start = (t.node n).stop ∧ t.textOf c = ",") ∧
      (Text.charAt? (t.node n).stop t.text = some ',' → (commaAfter? t n).isSome = true))
    ⟨fun ⟨hadjacent, htoken⟩ => ⟨hadjacent, htoken⟩, fun ⟨hadjacent, htoken⟩ => ⟨hadjacent, htoken⟩⟩

theorem range_of_textOf (h : t.textOf c = ",") :
    (t.node c).stop = (t.node c).start + 1 ∧ Text.charAt? (t.node c).start t.text = some ',' := by
  have hslice : Text.slice? (t.node c).start (t.node c).stop t.text = some [','] := by
    have hlist : (Text.slice? (t.node c).start (t.node c).stop t.text).getD [] = [','] := by
      simpa [SyntaxTree.textOf, SyntaxTree.textBetween] using congrArg String.toList h
    cases hs : Text.slice? (t.node c).start (t.node c).stop t.text with
    | none => simp [hs] at hlist
    | some part => simpa [hs] using hlist
  obtain ⟨pre, post, htext, hpre, hstop⟩ := Text.slice?_eq_some_iff.mp hslice
  exact ⟨hstop.symm, Text.charAt?_eq_some_iff.mpr ⟨pre, post, by simp [htext], hpre⟩⟩

theorem Tight.nextCharSpan_eq (h : Tight t e) :
    nextCharSpan t e = ⟨(t.node e).fullStart, (commaAfter? t e).elim (t.node e).stop fun c => (t.node c).stop⟩ := by
  rw [Removal.nextCharSpan_eq]
  cases hc : commaAfter? t e with
  | none =>
      rw [if_neg fun hcomma => by simpa [hc] using h.token hcomma]
      rfl
  | some c =>
      obtain ⟨hstart, htext⟩ := h.adjacent c hc
      obtain ⟨hstop, hchar⟩ := range_of_textOf htext
      rw [hstart] at hstop hchar
      rw [if_pos hchar, Option.elim_some, hstop]

/-- One node goes with the same bytes under both policies, unless it closes a list and has a comma next to it. -/
theorem spans_eq_iff (h : t.Orderly) (he : t.isTrivia e = false) (htight : Tight t e)
    (hbefore : ∀ d, commaBefore? t e = some d → (t.node d).start < (t.node d).stop) :
    listAwareSpan t removed e = nextCharSpan t e ↔
      (Closes t removed e → commaBefore? t e = none ∧ commaAfter? t e = none) := by
  rw [htight.nextCharSpan_eq]
  by_cases hclose : Closes t removed e
  · rw [listAwareSpan_of_closes hclose, ← commaBefore?, Span.mk.injEq, forall_prop_of_true hclose]
    refine and_congr ?_ ?_
    · cases hd : commaBefore? t e with
      | none => simp
      | some d =>
          obtain ⟨hprev, hcomma⟩ := Option.filter_eq_some_iff.mp hd
          have hlead := h.stop_le_lead (h.before_of_previous he hprev) (isTrivia_of_isComma hcomma)
          have hpos := hbefore d hd
          simp only [Option.elim_some, reduceCtorEq, iff_false]
          omega
    · cases hc : commaAfter? t e with
      | none => simp
      | some c =>
          obtain ⟨hstart, htext⟩ := htight.adjacent c hc
          have hstop := (range_of_textOf htext).1
          simp only [Option.elim_some, reduceCtorEq, iff_false]
          omega
  · rw [listAwareSpan_of_not_closes hclose]
    simp [hclose, commaAfter?]

theorem Alternates.exists_split {front back : List Nat} (hs : Alternates t (front ++ e :: back) trailing row) :
    ∃ before rest, row = before ++ e :: rest ∧ Alternates t (e :: back) trailing (e :: rest) ∧
      (front = [] ∧ before = [] ∨ ∃ f c start, f ∈ front ∧ isComma t c = true ∧ before = start ++ [f, c]) := by
  generalize hl : front ++ e :: back = elements at hs
  induction hs generalizing front with
  | last hf =>
      obtain ⟨rfl, rfl, rfl⟩ : front = [] ∧ e = _ ∧ back = [] := by simpa [List.append_eq_singleton_iff] using hl
      exact ⟨[], [], rfl, .last hf, .inl ⟨rfl, rfl⟩⟩
  | @trailing f c hf hc =>
      obtain ⟨rfl, rfl, rfl⟩ : front = [] ∧ e = f ∧ back = [] := by simpa [List.append_eq_singleton_iff] using hl
      exact ⟨[], [c], rfl, .trailing hf hc, .inl ⟨rfl, rfl⟩⟩
  | @next f c g es row trailing hf hc hrow ih =>
      cases front with
      | nil =>
          obtain ⟨rfl, rfl⟩ := List.cons.inj hl
          exact ⟨[], c :: row, rfl, .next hf hc hrow, .inl ⟨rfl, rfl⟩⟩
      | cons f' front =>
          obtain ⟨rfl, htail⟩ := List.cons.inj hl
          obtain ⟨before, rest, rfl, hsuffix, hedge⟩ := ih htail
          refine ⟨f' :: c :: before, rest, rfl, hsuffix, .inr ?_⟩
          rcases hedge with ⟨rfl, rfl⟩ | ⟨f, d, start, hf, hd, rfl⟩
          · exact ⟨f', c, [], List.mem_cons_self, hc, rfl⟩
          · exact ⟨f, d, f' :: c :: start, List.mem_cons_of_mem _ hf, hd, rfl⟩

structure TightList (t : SyntaxTree) (list opening : NodeId) (elements : List NodeId) (trailing : Bool)
    (closing : NodeId) : Prop where
  kind : (t.node list).kind.isList = true
  opens : isOpeningBracket (t.node opening).kind = true
  closes : (t.node closing).kind.isClosingBracket = true
  nodes : ∃ row, t.significantChildren list = opening :: row ++ [closing] ∧ Alternates t elements trailing row
  tight : ∀ e ∈ elements, Tight t e

structure Placed (t : SyntaxTree) (removed : NodeId → Bool) (front : List NodeId) (e : NodeId) (back : List NodeId)
    (trailing : Bool) : Prop where
  not_trivia : t.isTrivia e = false
  closes_iff : Closes t removed e ↔ trailing = false ∧ ∀ f ∈ back, removed f = true
  commaBefore_iff : commaBefore? t e = none ↔ front = []
  commaAfter_iff : commaAfter? t e = none ↔ trailing = false ∧ back = []
  commaBefore_pos : ∀ d, commaBefore? t e = some d → (t.node d).start < (t.node d).stop

theorem TightList.placed {front back : List Nat} (hl : TightList t list opening (front ++ e :: back) trailing closing)
    (h : t.Orderly) (removed : NodeId → Bool) : Placed t removed front e back trailing := by
  obtain ⟨row, hrow, hs⟩ := hl.nodes
  obtain ⟨before, rest, rfl, hsuffix, hedge⟩ := hs.exists_split
  have hsplit : t.significantChildren list = (opening :: before) ++ e :: (rest ++ [closing]) := by simp [hrow]
  obtain ⟨hpre, hpost⟩ := h.sides_of_split hsplit
  have hes : e ∈ t.significantChildren list := by simp [hsplit]
  have hparent := h.parent_of_mem (SyntaxTree.mem_significantChildren.mp hes).1
  have hopen := not_comma_of_opening hl.opens
  have hclosing := not_comma_of_closing hl.closes
  have hbefore : front = [] ∧ commaBefore? t e = none ∨
      front ≠ [] ∧ ∃ f ∈ front, ∃ c, commaBefore? t e = some c ∧ commaAfter? t f = some c := by
    rcases hedge with ⟨rfl, rfl⟩ | ⟨f, c, start, hf, hc, rfl⟩
    · exact .inl ⟨rfl, by simp [commaBefore?, SyntaxTree.previous?, hpre, hopen]⟩
    · have hsplit' : t.significantChildren list = (opening :: start) ++ f :: (c :: e :: (rest ++ [closing])) := by
        simp [hsplit]
      refine .inr ⟨List.ne_nil_of_mem hf, f, hf, c, ?_, ?_⟩
      · simp [commaBefore?, SyntaxTree.previous?, hpre, List.getLast?_cons, hc]
      · simp [commaAfter?, SyntaxTree.next?, (h.sides_of_split hsplit').2, hc]
  refine ⟨(SyntaxTree.mem_significantChildren.mp hes).2, ?_, ?_, ?_, ?_⟩
  · rw [Closes, hpost, hsuffix.closes_iff hl.closes]
    simp [isListElement, hparent, hl.kind]
  · rcases hbefore with ⟨hfront, hnone⟩ | ⟨hfront, _, _, c, hc, _⟩
    · simp [hfront, hnone]
    · simp [hfront, hc]
  · rw [commaAfter?, SyntaxTree.next?, hpost]
    cases hsuffix with
    | last => simp [hclosing]
    | trailing _ hc => simp [hc]
    | next _ hc => simp [hc]
  · intro d hd
    rcases hbefore with ⟨_, hnone⟩ | ⟨_, f, hf, c, hc, hafter⟩
    · simp [hnone] at hd
    · obtain rfl := Option.some.inj (hc.symm.trans hd)
      have hstop := (range_of_textOf ((hl.tight f (List.mem_append_left _ hf)).adjacent c hafter).2).1
      omega

/-- The policies agree on a list exactly if it ends in a comma, keeps its last element or has no other one. -/
theorem policies_agree_iff (text : String) (p : Parse.ParseTree) (h : (SyntaxTree.ofParse text p).Nested)
    (list opening closing : NodeId) (elements : List NodeId) (trailing : Bool) (last : NodeId)
    (hl : TightList (.ofParse text p) list opening elements trailing closing) (hlast : elements.getLast? = some last)
    (removed : NodeId → Bool) :
    let t := SyntaxTree.ofParse text p
    (∀ e ∈ elements, removed e = true → spanOf t .listAware removed e = spanOf t .nextChar removed e) ↔
      trailing = true ∨ removed last = false ∨ elements.length = 1 := by
  intro t
  have hord : t.Orderly := h.orderly
  have hspans {front back : List NodeId} {e : NodeId} (hsplit : elements = front ++ e :: back) :
      spanOf t .listAware removed e = spanOf t .nextChar removed e ↔
        (trailing = false → (∀ f ∈ back, removed f = true) → front = [] ∧ back = []) := by
    subst hsplit
    have hplaced := hl.placed hord removed
    rw [spanOf, spanOf, spans_eq_iff hord hplaced.not_trivia (hl.tight e (by simp)) hplaced.commaBefore_pos,
      hplaced.closes_iff, hplaced.commaBefore_iff, hplaced.commaAfter_iff, and_imp]
    simp +contextual
  obtain ⟨init, hinit⟩ := List.getLast?_eq_some_iff.mp hlast
  constructor
  · intro hagree
    by_contra hno
    simp only [not_or, Bool.not_eq_true, Bool.not_eq_false] at hno
    obtain ⟨htrailing, hremoved, hlength⟩ := hno
    have halone := (hspans hinit).mp (hagree last (by simp [hinit]) hremoved) htrailing (by simp)
    exact hlength (by simp [hinit, halone.1])
  · intro hcase e he hremoved
    obtain ⟨front, back, hsplit⟩ := List.append_of_mem he
    rw [hspans hsplit]
    intro htrailing hback
    have hend : last ∈ e :: back := by
      apply List.mem_of_getLast?
      rw [hsplit] at hlast
      simpa using hlast
    rcases hcase with htrue | hkept | hlength
    · simp [htrue] at htrailing
    · rcases List.mem_cons.mp hend with rfl | hmem
      · simp [hremoved] at hkept
      · simp [hback last hmem] at hkept
    · rw [hsplit, List.length_append, List.length_cons] at hlength
      exact ⟨List.eq_nil_of_length_eq_zero (by omega), List.eq_nil_of_length_eq_zero (by omega)⟩

def pairText : String := "f(a, b)"

def pairTree : Parse.ParseTree where
  root := .node "program" none 0 7 [
    .node "expression_statement" none 0 7 [
      .node "call_expression" none 0 7 [
        .node "identifier" (some "function") 0 1 [],
        .node "arguments" (some "arguments") 1 7 [
          .node "(" none 1 2 [],
          .node "identifier" none 2 3 [],
          .node "," none 3 4 [],
          .node "identifier" none 5 6 [],
          .node ")" none 6 7 []]]]]
  faulty := false

theorem pair_policies :
    let t := SyntaxTree.ofParse pairText pairTree
    spanOf t .listAware [6].contains 6 = spanOf t .nextChar [6].contains 6 ∧
      spanOf t .listAware [8].contains 8 ≠ spanOf t .nextChar [8].contains 8 := by
  have hl : TightList (.ofParse pairText pairTree) 4 5 [6, 8] false 9 := by
    refine ⟨by decide, by decide, by decide, ⟨[6, 7, 8], by decide, ?_⟩, by decide⟩
    exact .next ⟨by decide, by decide, by decide⟩ (by decide) (.last ⟨by decide, by decide, by decide⟩)
  have hagree := policies_agree_iff pairText pairTree (by decide) 4 5 9 [6, 8] false 8 hl rfl
  refine ⟨(hagree [6].contains).mpr (.inr (.inl rfl)) 6 (by simp) rfl, fun heq => ?_⟩
  have hcase := (hagree [8].contains).mp fun e he hremoved => by
    obtain rfl : e = 8 := by simpa using hremoved
    exact heq
  simp at hcase

end Unwire.Removal
