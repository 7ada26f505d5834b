import Unwire.Proofs.SpanOrder

namespace Unwire

open Syntax

namespace Removal

def isOpeningBracket : Kind → Bool
  | .other name => name == "(" || name == "[" || name == "\x7b"
  | _ => false

structure IsElement (t : SyntaxTree) (e : NodeId) : Prop extends IsItem t e where
  nonempty : (t.node e).start < (t.node e).stop

structure IsSeparator (t : SyntaxTree) (c : NodeId) : Prop where
  comma : isComma t c = true
  nonempty : (t.node c).start < (t.node c).stop

instance (t : SyntaxTree) (e : NodeId) : Decidable (IsElement t e) :=
  decidable_of_iff (t.isTrivia e = false ∧ isComma t e = false ∧ (t.node e).kind.isClosingBracket = false ∧
      (t.node e).start < (t.node e).stop)
    ⟨fun ⟨ht, hc, hb, hpos⟩ => ⟨⟨ht, hc, hb⟩, hpos⟩, fun ⟨⟨ht, hc, hb⟩, hpos⟩ => ⟨ht, hc, hb, hpos⟩⟩

instance (t : SyntaxTree) (c : NodeId) : Decidable (IsSeparator t c) :=
  decidable_of_iff (isComma t c = true ∧ (t.node c).start < (t.node c).stop)
    ⟨fun ⟨hc, hpos⟩ => ⟨hc, hpos⟩, fun ⟨hc, hpos⟩ => ⟨hc, hpos⟩⟩

/-- Elements with one comma between neighbours, and one after the last element where `trailing`. -/
inductive Separated (t : SyntaxTree) : List NodeId → Bool → List NodeId → Prop
  | empty : Separated t [] false []
  | last {e : NodeId} (he : IsElement t e) : Separated t [e] false [e]
  | trailing {e c : NodeId} (he : IsElement t e) (hc : IsSeparator t c) : Separated t [e] true [e, c]
  | next {e c f : NodeId} {es row : List NodeId} {trailing : Bool} (he : IsElement t e)
      (hc : IsSeparator t c) (hrow : Separated t (f :: es) trailing row) :
      Separated t (e :: f :: es) trailing (e :: c :: row)

/-- Items and commas in turn, of any width, from the first item on; a comma comes last where `trailing`. -/
inductive Alternates (t : SyntaxTree) : List NodeId → Bool → List NodeId → Prop
  | last {e : NodeId} (he : IsItem t e) : Alternates t [e] false [e]
  | trailing {e c : NodeId} (he : IsItem t e) (hc : isComma t c = true) : Alternates t [e] true [e, c]
  | next {e c f : NodeId} {es row : List NodeId} {trailing : Bool} (he : IsItem t e) (hc : isComma t c = true)
      (hrow : Alternates t (f :: es) trailing row) : Alternates t (e :: f :: es) trailing (e :: c :: row)

structure IsList (t : SyntaxTree) (opening : NodeId) (elements : List NodeId) (trailing : Bool)
    (closing : NodeId) (nodes : List NodeId) : Prop where
  opens : isOpeningBracket (t.node opening).kind = true
  closes : (t.node closing).kind.isClosingBracket = true
  inner : ∃ row, nodes = opening :: row ++ [closing] ∧ Separated t elements trailing row

def untouched (t : SyntaxTree) (spans : List Span) (nodes : List NodeId) : List NodeId :=
  nodes.filter fun i => !spans.any (·.touches (t.node i))

variable {t : SyntaxTree} {removed : NodeId → Bool} {elements row : List Nat} {trailing : Bool}
  {c d e f x list opening closing : Nat}

theorem not_comma_of_opening (hc : isOpeningBracket (t.node c).kind = true) : isComma t c = false := by
  cases hk : (t.node c).kind <;> simp_all [isComma, isOpeningBracket]

theorem not_comma_of_closing (hc : (t.node c).kind.isClosingBracket = true) : isComma t c = false := by
  cases hk : (t.node c).kind <;> simp_all [isComma, Kind.isClosingBracket]

theorem Separated.isElement (hs : Separated t elements trailing row) (he : e ∈ elements) : IsElement t e := by
  induction hs with
  | empty => simp at he
  | last hf | trailing hf _ => obtain rfl := List.mem_singleton.mp he; exact hf
  | next hf _ _ ih =>
      rcases List.mem_cons.mp he with rfl | he
      · exact hf
      · exact ih he

theorem Separated.sublist (hs : Separated t elements trailing row) : elements.Sublist row := by
  induction hs with
  | empty => exact List.Sublist.refl _
  | last => exact List.Sublist.refl _
  | trailing => exact List.Sublist.cons_cons _ (List.nil_sublist _)
  | next _ _ _ ih => exact List.Sublist.cons_cons _ (List.Sublist.cons _ ih)

theorem Separated.cases_row (hs : Separated t elements trailing row) (hx : x ∈ row) :
    x ∈ elements ∨ IsSeparator t x := by
  induction hs with
  | empty => simp at hx
  | last _ => exact Or.inl hx
  | trailing _ hc =>
      simp only [List.mem_cons, List.not_mem_nil, or_false] at hx
      rcases hx with rfl | rfl
      · exact Or.inl List.mem_cons_self
      · exact Or.inr hc
  | next _ hc _ ih =>
      simp only [List.mem_cons] at hx
      rcases hx with rfl | rfl | hx
      · exact Or.inl List.mem_cons_self
      · exact Or.inr hc
      · exact (ih hx).imp_left (List.mem_cons_of_mem _)

theorem Separated.alternates {es : List NodeId} (hs : Separated t (e :: es) trailing row) :
    Alternates t (e :: es) trailing row := by
  generalize hl : e :: es = elements at hs
  induction hs generalizing e es with
  | empty => cases hl
  | last he => exact .last he.toIsItem
  | trailing he hc => exact .trailing he.toIsItem hc.comma
  | next he hc _ ih => exact .next he.toIsItem hc.comma (ih rfl)

theorem Alternates.head_eq {es : List NodeId} (hs : Alternates t (e :: es) trailing row) : ∃ rest, row = e :: rest := by
  cases hs with
  | last => exact ⟨_, rfl⟩
  | trailing => exact ⟨_, rfl⟩
  | next => exact ⟨_, rfl⟩

theorem Alternates.isItem_head {es : List NodeId} (hs : Alternates t (e :: es) trailing row) : IsItem t e := by
  cases hs with
  | last he => exact he
  | trailing he => exact he
  | next he => exact he

/-- A removed element closes its list when all elements after it are removed and no comma ends the list. -/
theorem Alternates.closes_iff {es : List NodeId} (hs : Alternates t (e :: es) trailing (e :: row))
    (hclose : (t.node closing).kind.isClosingBracket = true) :
    closes t removed (row ++ [closing]) = true ↔ trailing = false ∧ ∀ f ∈ es, removed f = true := by
  have hcomma := not_comma_of_closing hclose
  generalize hl : e :: es = elements at hs
  generalize hr : e :: row = nodes at hs
  induction hs generalizing e es row with
  | last =>
      obtain ⟨rfl, rfl⟩ := List.cons.inj hl
      obtain ⟨_, rfl⟩ := List.cons.inj hr
      simp [closes, hcomma]
  | trailing _ hc =>
      obtain ⟨rfl, rfl⟩ := List.cons.inj hl
      obtain ⟨_, rfl⟩ := List.cons.inj hr
      simp [closes, hc, hclose]
  | next _ hc hrow ih =>
      obtain ⟨rfl, rfl⟩ := List.cons.inj hl
      obtain ⟨_, rfl⟩ := List.cons.inj hr
      obtain ⟨rest, rfl⟩ := hrow.head_eq
      rw [List.cons_append, List.cons_append, closes]
      simp only [hc, if_true, hrow.isItem_head.not_closing, Bool.not_false, Bool.true_and, Bool.and_eq_true]
      refine (and_congr_right fun _ => ih rfl rfl).trans ?_
      rw [List.forall_mem_cons]
      exact and_left_comm

/-- A kept element keeps its comma unless nothing follows the comma and the list did not end in one. -/
theorem Separated.cons_kept {kept left : List Nat} {b gone : Bool} (he : IsElement t e) (hc : IsSeparator t c)
    (hs : Separated t kept (b && !kept.isEmpty) left) (hgone : gone = true ↔ b = false ∧ kept = []) :
    Separated t (e :: kept) b (e :: if gone = false then c :: left else left) := by
  cases kept with
  | nil =>
      obtain rfl : left = [] := by
        simp only [List.isEmpty_nil, Bool.not_true, Bool.and_false] at hs
        cases hs
        rfl
      cases b with
      | false =>
          rw [if_neg (by simp [hgone])]
          exact Separated.last he
      | true =>
          rw [if_pos (Bool.eq_false_iff.mpr (by simp [hgone]))]
          exact Separated.trailing he hc
  | cons g gs =>
      rw [if_pos (Bool.eq_false_iff.mpr (by simp [hgone]))]
      exact Separated.next he hc (by simpa using hs)

section

variable (h : t.Orderly)
include h

/-- Among the nodes of its list, the removal of an element touches the element and the comma that goes with it. -/
theorem touches_iff (hel : e ∈ t.significantChildren list)
    (hx : x ∈ t.significantChildren list) (hpos : (t.node x).start < (t.node x).stop) :
    (listAwareSpan t removed e).touches (t.node x) = true ↔ x = e ∨ Takes t removed e x := by
  obtain ⟨hep, het⟩ := SyntaxTree.mem_significantChildren.mp hel
  obtain ⟨hxp, hxt⟩ := SyntaxTree.mem_significantChildren.mp hx
  constructor
  · intro htouch
    rcases cases_of_touches h het hxt (h.lt_size_of_mem hep) (h.lt_size_of_mem hxp)
      (outsideCommas_of_siblings h hel hxp) htouch with hb | hb | htakes
    · exact Or.inl (h.eq_of_siblings hep hxp hb)
    · exact Or.inl (h.eq_of_siblings hxp hep hb).symm
    · exact Or.inr htakes
  · rintro (rfl | htakes)
    · exact Span.touches_of_covers (listAwareSpan_covers h removed het) hpos
    · exact Span.touches_of_covers (htakes.covers h het) hpos

theorem covers_of_touches (hel : e ∈ t.significantChildren list) (hx : x ∈ t.significantChildren list)
    (htouch : (listAwareSpan t removed e).touches (t.node x) = true) :
    (listAwareSpan t removed e).covers (t.node x) = true := by
  have het := (SyntaxTree.mem_significantChildren.mp hel).2
  rcases (touches_iff h hel hx (Span.nonempty_of_touches htouch)).mp htouch with rfl | htakes
  · exact listAwareSpan_covers h removed het
  · exact htakes.covers h het

end

def removedSpans (t : SyntaxTree) (removed : NodeId → Bool) (elements : List NodeId) : List Span :=
  (elements.filter removed).map (spanOf t .listAware removed)

def hit (t : SyntaxTree) (removed : NodeId → Bool) (elements : List NodeId) (x : NodeId) : Bool :=
  (removedSpans t removed elements).any (·.touches (t.node x))

theorem hit_eq_true_iff :
    hit t removed elements x = true ↔
      ∃ e ∈ elements, removed e = true ∧ (listAwareSpan t removed e).touches (t.node x) = true := by
  simp [hit, removedSpans, spanOf]

structure ListAt (t : SyntaxTree) (list opening : NodeId) (elements : List NodeId) (trailing : Bool)
    (closing : NodeId) : Prop where
  kind : (t.node list).kind.isList = true
  nodes : IsList t opening elements trailing closing (t.significantChildren list)

namespace ListAt

variable (hl : ListAt t list opening elements trailing closing)
include hl

theorem isElement (he : e ∈ elements) : IsElement t e := by
  obtain ⟨row, _, hs⟩ := hl.nodes.inner
  exact hs.isElement he

theorem mem_significantChildren (he : e ∈ elements) : e ∈ t.significantChildren list := by
  obtain ⟨row, hrow, hs⟩ := hl.nodes.inner
  rw [hrow]
  simp [hs.sublist.subset he]

theorem mem_children (he : e ∈ elements) : e ∈ t.children list :=
  (SyntaxTree.mem_significantChildren.mp (hl.mem_significantChildren he)).1

theorem cases_mem (hx : x ∈ t.significantChildren list) :
    x = opening ∨ x = closing ∨ x ∈ elements ∨ IsSeparator t x := by
  obtain ⟨row, hrow, hs⟩ := hl.nodes.inner
  rw [hrow] at hx
  simp only [List.cons_append, List.mem_cons, List.mem_append, List.not_mem_nil, or_false] at hx
  rcases hx with rfl | hx | rfl
  · exact Or.inl rfl
  · exact Or.inr (Or.inr (hs.cases_row hx))
  · exact Or.inr (Or.inl rfl)

variable (h : t.Orderly)
include h

theorem opening_not_mem : opening ∉ elements := by
  intro hmem
  obtain ⟨row, hrow, hs⟩ := hl.nodes.inner
  have hlt := h.significantChildren_lt list
  rw [hrow] at hlt
  exact Nat.lt_irrefl _ ((List.pairwise_cons.mp hlt).1 opening (by simp [hs.sublist.subset hmem]))

omit h in
theorem closing_not_mem : closing ∉ elements := by
  intro hmem
  exact absurd hl.nodes.closes (by simp [(hl.isElement hmem).not_closing])

theorem hit_element (removed : NodeId → Bool) (hx : x ∈ elements) : hit t removed elements x = removed x := by
  have hxs := hl.mem_significantChildren hx
  have hxe := hl.isElement hx
  rw [Bool.eq_iff_iff, hit_eq_true_iff]
  constructor
  · rintro ⟨e, he, hr, ht⟩
    rcases (touches_iff h (hl.mem_significantChildren he) hxs hxe.nonempty).mp ht with
      rfl | ⟨hcomma, _⟩
    · exact hr
    · exact absurd hcomma (by simp [hxe.not_comma])
  · intro hr
    exact ⟨x, hx, hr, (touches_iff h hxs hxs hxe.nonempty).mpr (Or.inl rfl)⟩

theorem hit_bracket (hx : x ∈ t.significantChildren list) (hcomma : isComma t x = false)
    (hxe : x ∉ elements) : hit t removed elements x = false := by
  rw [Bool.eq_false_iff]
  intro hhit
  obtain ⟨e, he, _, ht⟩ := hit_eq_true_iff.mp hhit
  rcases (touches_iff h (hl.mem_significantChildren he) hx (Span.nonempty_of_touches ht)).mp ht with
    rfl | ⟨hc, _⟩
  · exact hxe he
  · exact absurd hc (by simp [hcomma])

/-- A comma goes away with the element before it, or with the one after it where that closes the list. -/
theorem hit_comma (removed : NodeId → Bool) (pre post : List Nat)
    (hsplit : t.significantChildren list = pre ++ e :: c :: f :: post)
    (he : e ∈ elements) (hc : IsSeparator t c) :
    hit t removed elements c = true ↔
      removed e = true ∧ ¬Closes t removed e ∨ f ∈ elements ∧ removed f = true ∧ Closes t removed f := by
  have hcs : c ∈ t.significantChildren list := by simp [hsplit]
  have hct := (SyntaxTree.mem_significantChildren.mp hcs).2
  have hft := (SyntaxTree.mem_significantChildren.mp (by simp [hsplit] : f ∈ t.significantChildren list)).2
  have hprev : t.previous? c = some e := by
    have hs : t.significantChildren list = (pre ++ [e]) ++ c :: f :: post := by simp [hsplit]
    simp [SyntaxTree.previous?, (h.sides_of_split hs).1]
  have hnext : t.next? c = some f := by
    have hs : t.significantChildren list = (pre ++ [e]) ++ c :: f :: post := by simp [hsplit]
    simp [SyntaxTree.next?, (h.sides_of_split hs).2]
  have htouch : ∀ g ∈ elements, (listAwareSpan t removed g).touches (t.node c) = true ↔
      Closes t removed g ∧ f = g ∨ ¬Closes t removed g ∧ e = g := by
    intro g hg
    have hge := hl.isElement hg
    have hne : c ≠ g := by
      rintro rfl
      exact absurd hc.comma (by simp [hge.not_comma])
    rw [touches_iff h (hl.mem_significantChildren hg) hcs hc.nonempty, Takes, ← h.next_iff_previous hct hge.not_trivia,
      h.next_iff_previous hge.not_trivia hct, hprev, hnext]
    simp [hne, hc.comma]
  rw [hit_eq_true_iff]
  constructor
  · rintro ⟨g, hg, hr, ht⟩
    rcases (htouch g hg).mp ht with ⟨hclose, rfl⟩ | ⟨hclose, rfl⟩
    · exact Or.inr ⟨hg, hr, hclose⟩
    · exact Or.inl ⟨hr, hclose⟩
  · rintro (⟨hr, hclose⟩ | ⟨hf, hr, hclose⟩)
    · exact ⟨e, he, hr, (htouch e he).mpr (Or.inr ⟨hclose, rfl⟩)⟩
    · exact ⟨f, hf, hr, (htouch f hf).mpr (Or.inl ⟨hclose, rfl⟩)⟩

theorem closes_iff (removed : NodeId → Bool) {pre es row : List Nat} {b : Bool}
    (hsplit : t.significantChildren list = pre ++ (e :: row) ++ [closing]) (hs : Separated t (e :: es) b (e :: row)) :
    Closes t removed e ↔ b = false ∧ ∀ f ∈ es, removed f = true := by
  have hes : e ∈ t.significantChildren list := by simp [hsplit]
  have hp := h.parent_of_mem (SyntaxTree.mem_significantChildren.mp hes).1
  have hfollow : t.following e = row ++ [closing] := by
    have hs : t.significantChildren list = pre ++ e :: (row ++ [closing]) := by simp [hsplit]
    exact (h.sides_of_split hs).2
  have hlist : isListElement t e = true := by simp [isListElement, hp, hl.kind]
  rw [Closes, hfollow, hs.alternates.closes_iff hl.nodes.closes]
  simp [hlist]

theorem untouched_separated (pre : List Nat) {es row : List Nat} {b : Bool} (hs : Separated t es b row)
    (hsplit : t.significantChildren list = pre ++ row ++ [closing]) (hsub : es ⊆ elements) :
    Separated t (es.filter (!removed ·)) (b && !(es.filter (!removed ·)).isEmpty)
      (row.filter (!hit t removed elements ·)) := by
  -- The induction goes along the row; `pre` is what stands before it.
  induction hs generalizing pre with
  | empty => exact Separated.empty
  | @last e he =>
      have hhit := hl.hit_element h removed (hsub List.mem_cons_self)
      cases hr : removed e <;> simp [hhit, hr, Separated.empty, Separated.last he]
  | @trailing e c he hc =>
      have hee := hsub List.mem_cons_self
      have hhit := hl.hit_element h removed hee
      have hclose : ¬Closes t removed e := by
        rw [hl.closes_iff h removed hsplit (Separated.trailing he hc)]
        simp
      have hcomma : hit t removed elements c = removed e := by
        rw [Bool.eq_iff_iff, hl.hit_comma h removed pre [] (by simpa using hsplit) hee hc]
        simp [hclose, hl.closing_not_mem]
      cases hr : removed e <;> simp [hhit, hcomma, hr, Separated.empty, Separated.trailing he hc]
  | @next e c f es row b he hc hrow ih =>
      obtain ⟨rest, rfl⟩ := hrow.alternates.head_eq
      have hee := hsub List.mem_cons_self
      have hfe : f ∈ elements := hsub (by simp)
      have hsplit' : t.significantChildren list = (pre ++ [e, c]) ++ (f :: rest) ++ [closing] := by simp [hsplit]
      have hrest := ih (pre ++ [e, c]) hsplit' fun g hg => hsub (List.mem_cons_of_mem _ hg)
      have hhit := hl.hit_element h removed hee
      have hce := hl.closes_iff h removed hsplit (Separated.next he hc hrow)
      have hcf := hl.closes_iff h removed hsplit' hrow
      have hcomma := hl.hit_comma h removed pre (rest ++ [closing]) (by simpa using hsplit) hee hc
      rw [hce, hcf] at hcomma
      cases hr : removed e with
      | true =>
          have hgone : hit t removed elements c = true := by
            rw [hcomma]
            by_cases hall : b = false ∧ ∀ g ∈ f :: es, removed g = true
            · exact Or.inr ⟨hfe, hall.2 f List.mem_cons_self, hall.1, fun g hg => hall.2 g (List.mem_cons_of_mem _ hg)⟩
            · exact Or.inl ⟨hr, hall⟩
          simpa [hhit, hr, hgone] using hrest
      | false =>
          have hgone : hit t removed elements c = true ↔ b = false ∧ (f :: es).filter (!removed ·) = [] := by
            rw [hcomma, List.filter_eq_nil_iff]
            simp [hr, hfe, and_left_comm]
          have hkept := Separated.cons_kept he hc hrest hgone
          rw [List.filter_cons_of_pos (by simp [hr])]
          simpa [hhit, hr, List.filter_cons] using hkept

theorem untouched_isList (removed : NodeId → Bool) :
    IsList t opening (elements.filter (!removed ·)) (trailing && !(elements.filter (!removed ·)).isEmpty) closing
      (untouched t (removedSpans t removed elements) (t.significantChildren list)) := by
  obtain ⟨row, hrow, hs⟩ := hl.nodes.inner
  have hopen : hit t removed elements opening = false :=
    hl.hit_bracket h (by simp [hrow]) (not_comma_of_opening hl.nodes.opens) (hl.opening_not_mem h)
  have hclose : hit t removed elements closing = false :=
    hl.hit_bracket h (by simp [hrow]) (not_comma_of_closing hl.nodes.closes) hl.closing_not_mem
  refine ⟨hl.nodes.opens, hl.nodes.closes, row.filter (!hit t removed elements ·), ?_, ?_⟩
  · change (t.significantChildren list).filter (!hit t removed elements ·) = _
    rw [hrow]
    simp [hopen, hclose]
  · exact hl.untouched_separated h [opening] hs (by simp [hrow]) (List.Subset.refl _)

theorem elements_lt : elements.Pairwise (· < ·) := by
  obtain ⟨row, hrow, hs⟩ := hl.nodes.inner
  have hlt := h.significantChildren_lt list
  rw [hrow] at hlt
  exact hlt.sublist (hs.sublist.trans ((List.sublist_append_left row [closing]).trans (List.sublist_cons_self _ _)))

theorem removedSpans_apart (removed : NodeId → Bool) :
    (removedSpans t removed elements).Pairwise fun s s' => s.stop ≤ s'.start := by
  rw [removedSpans, List.pairwise_map]
  refine ((hl.elements_lt h).filter removed).imp_of_mem ?_
  intro e f he hf hlt
  obtain ⟨he, _⟩ := List.mem_filter.mp he
  obtain ⟨hf, hrem⟩ := List.mem_filter.mp hf
  have hes := hl.mem_significantChildren he
  have hfs := hl.mem_significantChildren hf
  have hep := hl.mem_children he
  have hfp := hl.mem_children hf
  refine listAwareSpan_apart h (hl.isElement he).toIsItem (hl.isElement hf).toIsItem hrem
    (h.before_of_siblings hep hfp hlt) (outsideCommas_of_siblings h hes hfp)
    (outsideCommas_of_siblings h hfs hep) ?_
  intro c hc
  have hcs := h.mem_of_next (h.parent_of_mem hep) (hl.isElement he).not_trivia hc
  exact outsideCommas_of_siblings h hfs (SyntaxTree.mem_significantChildren.mp hcs).1

theorem covered_of_touched (hx : x ∈ t.significantChildren list)
    (hgone : x ∉ untouched t (removedSpans t removed elements) (t.significantChildren list)) :
    ∃ s ∈ removedSpans t removed elements, s.covers (t.node x) = true := by
  have hhit : hit t removed elements x = true := by
    simpa [untouched, hit, hx] using hgone
  obtain ⟨e, he, hr, ht⟩ := hit_eq_true_iff.mp hhit
  refine ⟨listAwareSpan t removed e, List.mem_map.mpr ⟨e, List.mem_filter.mpr ⟨he, hr⟩, rfl⟩, ?_⟩
  exact covers_of_touches h (hl.mem_significantChildren he) hx ht

end ListAt

/-- Removing some elements of a list, in one pass with any nodes elsewhere, leaves the brackets and the kept elements
with one comma between neighbours, and a comma after the last one exactly where there was one before. All else goes away
as a whole, and nothing goes away twice. -/
theorem removal_leaves_list (text : String) (p : Parse.ParseTree) (h : (SyntaxTree.ofParse text p).Nested)
    (list opening closing : NodeId) (elements : List NodeId) (trailing : Bool)
    (hl : ListAt (.ofParse text p) list opening elements trailing closing) (removed : NodeId → Bool) :
    let t := SyntaxTree.ofParse text p
    let spans := (elements.filter removed).map (spanOf t .listAware removed)
    let kept := elements.filter (!removed ·)
    IsList t opening kept (trailing && !kept.isEmpty) closing (untouched t spans (t.significantChildren list)) ∧
      (∀ c ∈ t.significantChildren list, c ∉ untouched t spans (t.significantChildren list) →
        ∃ s ∈ spans, s.covers (t.node c) = true) ∧
      spans.Pairwise fun s s' => s.stop ≤ s'.start :=
  ⟨hl.untouched_isList h.orderly removed, fun _ hc hgone => hl.covered_of_touched h.orderly hc hgone,
    hl.removedSpans_apart h.orderly removed⟩

def callText : String := "f(a /* é */, b, c)"

def callTree : Parse.ParseTree where
  root := .node "program" none 0 19 [
    .node "expression_statement" none 0 19 [
      .node "call_expression" none 0 19 [
        .node "identifier" (some "function") 0 1 [],
        .node "arguments" (some "arguments") 1 19 [
          .node "(" none 1 2 [],
          .node "identifier" none 2 3 [],
          .node "comment" none 4 12 [],
          .node "," none 12 13 [],
          .node "identifier" none 14 15 [],
          .node "," none 15 16 [],
          .node "identifier" none 17 18 [],
          .node ")" none 18 19 []]]]]
  faulty := false

theorem removal_leaves_call :
    let t := SyntaxTree.ofParse callText callTree
    let spans := [9, 11].map (spanOf t .listAware [9, 11].contains)
    IsList t 5 [6] false 12 (untouched t spans (t.significantChildren 4)) := by
  have hl : ListAt (.ofParse callText callTree) 4 5 [6, 9, 11] false 12 := by
    refine ⟨by decide, ⟨by decide, by decide, [6, 8, 9, 10, 11], by decide, ?_⟩⟩
    exact .next (by decide) (by decide) (.next (by decide) (by decide) (.last (by decide)))
  exact (removal_leaves_list callText callTree (by decide) 4 5 12 [6, 9, 11] false hl [9, 11].contains).1

end Removal

end Unwire
