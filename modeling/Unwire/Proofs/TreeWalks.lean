import Mathlib.Data.List.TakeWhile
import Mathlib.Logic.Function.Iterate
import Unwire.Proofs.LeadingTrivia

namespace Unwire.Syntax

inductive Climb where
  | seeking (current : Option NodeId)
  | ended (found : Bool)

namespace SyntaxTree

/-- One step of a search for `j`. A search that has ended stays as it is. -/
def climb (t : SyntaxTree) (j : NodeId) : Climb → Climb
  | .seeking none => .ended false
  | .seeking (some i) => if i = j then .ended true else .seeking (t.node i).parent
  | .ended found => .ended found

def unpile (t : SyntaxTree) : List NodeId → List NodeId
  | [] => []
  | i :: pile => t.children i ++ pile

/-- From `first` on, steps lead through all of the list in its order, and then nowhere. -/
def Enumerates (step : NodeId → Option NodeId) (first : Option NodeId) (l : List NodeId) : Prop :=
  ∀ k : Nat, (fun i => i.bind step)^[k] first = l[k]?

variable {t : SyntaxTree} {c d i j : Nat}

theorem iterate_climb_ended (found : Bool) (k : Nat) : (t.climb j)^[k] (.ended found) = .ended found :=
  Function.iterate_fixed rfl k

theorem iterate_unpile_nil (k : Nat) : t.unpile^[k] [] = [] :=
  Function.iterate_fixed rfl k

theorem enumerates_of_step {step : NodeId → Option NodeId} {l : List NodeId}
    (hstep : ∀ {pre post : List NodeId} {c : NodeId}, l = pre ++ c :: post → step c = post.head?) :
    Enumerates step l.head? l := by
  intro k
  induction k with
  | zero => exact List.head?_eq_getElem?
  | succ k ih =>
      rw [Function.iterate_succ_apply', ih]
      cases hc : l[k]? with
      | none =>
          have hlen := List.getElem?_eq_none_iff.mp hc
          exact (List.getElem?_eq_none (by omega)).symm
      | some c =>
          obtain ⟨hk, rfl⟩ := List.getElem?_eq_some_iff.mp hc
          have hsplit : l = l.take k ++ l[k] :: l.drop (k + 1) := by
            rw [← List.drop_eq_getElem_cons hk, List.take_append_drop]
          exact (hstep hsplit).trans List.head?_drop

theorem isTrivia_of_next (hn : t.next? i = some c) : t.isTrivia i = false := by
  obtain ⟨p, hp⟩ := parent_of_next hn
  by_contra hi
  -- A comment is not among the children that `next?` looks through, so it drops them all.
  have hne : ∀ x ∈ t.significantChildren p, (x != i) = true := by
    intro x hx
    refine bne_iff_ne.mpr fun he => hi ?_
    rw [← he, (mem_significantChildren.mp hx).2]
  rw [next?, following, hp] at hn
  simp [List.dropWhile_eq_nil_iff.mpr hne] at hn

namespace Linked

variable (h : t.Linked)
include h

theorem iterate_climb (i j : Nat) :
    (t.climb j)^[(t.ancestors i).length + 1] (.seeking (some i)) = .ended (t.isWithin i j) := by
  -- Parents have smaller numbers, so the induction goes the way of the search.
  induction i using Nat.strongRecOn with
  | ind i ih =>
      rw [Function.iterate_succ_apply, climb]
      by_cases he : i = j
      · have hin : t.isWithin i j = true := h.isWithin_iff.mpr (he ▸ Below.self)
        rw [if_pos he, iterate_climb_ended, hin]
      · rw [if_neg he]
        cases hp : (t.node i).parent with
        | none =>
            rw [isWithin, h.ancestors_of_root hp]
            simp [climb, Ne.symm he]
        | some p =>
            have hlt := h.lt_of_mem (h.mem_of_parent hp)
            have hin : t.isWithin i j = t.isWithin p j := by
              rw [isWithin, isWithin, h.ancestors_of_parent hp]
              simp [Ne.symm he]
            rw [h.ancestors_of_parent hp, List.length_cons, ih p hlt, hin]

theorem head?_iterate_unpile {fuel : Nat} {pile : List Nat} (hp : t.Pile fuel pile) (k : Nat) :
    (t.unpile^[k] pile).head? = (t.preorder fuel pile)[k]? := by
  induction fuel generalizing pile k with
  | zero =>
      cases pile with
      | nil => simp [iterate_unpile_nil, preorder]
      | cons i pile => exact absurd (hp.enough i List.mem_cons_self) (by omega)
  | succ fuel ih =>
      cases pile with
      | nil => simp [iterate_unpile_nil, preorder]
      | cons i pile =>
          cases k with
          | zero => rfl
          | succ k =>
              rw [Function.iterate_succ_apply, unpile, ih (h.pile_pop hp), preorder, List.getElem?_cons_succ]

theorem next_eq_some_iff (hc : t.isTrivia c = false) :
    t.next? c = some d ↔ t.isTrivia d = false ∧ t.previous? d = some c := by
  constructor
  · intro hn
    obtain ⟨p, hp⟩ := parent_of_next hn
    have hd := (mem_significantChildren.mp (h.mem_of_next hp hc hn)).2
    exact ⟨hd, (h.next_iff_previous hc hd).mp hn⟩
  · rintro ⟨hd, hn⟩
    exact (h.next_iff_previous hc hd).mpr hn

theorem previous_eq_some_iff (hc : t.isTrivia c = false) : t.previous? c = some d ↔ t.next? d = some c := by
  constructor
  · intro hn
    obtain ⟨p, hp⟩ := parent_of_previous hn
    have hd := (mem_significantChildren.mp (h.mem_of_previous hp hc hn)).2
    exact (h.next_iff_previous hd hc).mpr hn
  · intro hn
    exact (h.next_iff_previous (isTrivia_of_next hn) hc).mp hn

theorem next_enumerates (p : NodeId) :
    Enumerates t.next? (t.significantChildren p).head? (t.significantChildren p) := by
  apply enumerates_of_step
  intro pre post c hs
  rw [next?, (h.sides_of_split hs).2]

theorem previous_enumerates (p : NodeId) :
    Enumerates t.previous? (t.significantChildren p).getLast? (t.significantChildren p).reverse := by
  rw [← List.head?_reverse]
  apply enumerates_of_step
  intro pre post c hs
  have hsplit : t.significantChildren p = post.reverse ++ c :: pre.reverse := by
    rw [List.reverse_eq_iff.mp hs]
    simp
  rw [previous?, (h.sides_of_split hsplit).1, List.getLast?_reverse]

theorem mem_significantChildren_iff {p : Nat} :
    c ∈ t.significantChildren p ↔ (t.node c).parent = some p ∧ t.isTrivia c = false := by
  rw [mem_significantChildren]
  exact and_congr_left fun _ => ⟨h.parent_of_mem, h.mem_of_parent⟩

end Linked

/-- The search above `n` for `m` ends, and what it finds is whether the walk down from `m` meets `n`. For a node that is
no comment, the walks to both sides undo each other, and each of them goes through all the siblings that are no
comments, in order and without a repetition. -/
theorem walks_agree (text : String) (p : Parse.ParseTree) :
    let t := ofParse text p
    (∀ n < t.nodes.size, ∀ m < t.nodes.size,
      (t.climb m)^[(t.ancestors n).length + 1] (.seeking (some n)) = .ended (t.isWithin n m) ∧
      (∀ k, (t.unpile^[k] [m]).head? = (t.descendants m)[k]?) ∧
      (t.isWithin n m = true ↔ n ∈ t.descendants m)) ∧
    ∀ c q : NodeId, t.isTrivia c = false → (t.node c).parent = some q →
      (∀ d, t.next? c = some d ↔ t.isTrivia d = false ∧ t.previous? d = some c) ∧
      (∀ d, t.previous? c = some d ↔ t.next? d = some c) ∧
      (∀ d, d ∈ t.significantChildren q ↔ (t.node d).parent = some q ∧ t.isTrivia d = false) ∧
      (t.significantChildren q).Pairwise (· < ·) ∧
      Enumerates t.next? (t.significantChildren q).head? (t.significantChildren q) ∧
      Enumerates t.previous? (t.significantChildren q).getLast? (t.significantChildren q).reverse := by
  intro t
  have h : t.Linked := ofParse_linked text p
  constructor
  · intro n _ m hm
    refine ⟨h.iterate_climb n m, h.head?_iterate_unpile (Linked.pile_singleton hm), ?_⟩
    rw [h.isWithin_iff, h.mem_descendants]
  · intro c q hc _
    exact ⟨fun _ => h.next_eq_some_iff hc, fun _ => h.previous_eq_some_iff hc, fun _ => h.mem_significantChildren_iff,
      h.significantChildren_lt q, h.next_enumerates q, h.previous_enumerates q⟩

theorem call_walks_agree :
    let t := ofParse Removal.callText Removal.callTree
    (t.climb 4)^[6] (.seeking (some 9)) = .ended true ∧ 9 ∈ t.descendants 4 ∧
      t.isTrivia 6 = false ∧ (t.node 6).parent = some 4 ∧ t.next? 6 = some 8 ∧ t.previous? 8 = some 6 ∧
      (fun i => i.bind t.next?)^[3] (some 5) = some 9 ∧
      t.isTrivia 7 = true ∧ t.previous? 7 = some 12 ∧ t.next? 12 = none := by
  intro t
  obtain ⟨hclimb, _, hmem⟩ := (walks_agree Removal.callText Removal.callTree).1 9 (by decide) 4 (by decide)
  have hname : t.isTrivia 6 = false ∧ (t.node 6).parent = some 4 := by decide
  obtain ⟨hnext, _, _, _, henum, _⟩ := (walks_agree Removal.callText Removal.callTree).2 6 4 hname.1 hname.2
  have hlength : (t.ancestors 9).length = 5 := by decide
  have hin : t.isWithin 9 4 = true := by decide
  have hcomma : t.next? 6 = some 8 := by decide
  have hfirst : (t.significantChildren 4).head? = some 5 := by decide
  have hthird : (t.significantChildren 4)[3]? = some 9 := by decide
  refine ⟨?_, hmem.mp hin, hname.1, hname.2, hcomma, ((hnext 8).mp hcomma).2, ?_, by decide, by decide, by decide⟩
  · rw [← hin, ← hclimb, hlength]
  · rw [← hfirst, henum 3, hthird]

end SyntaxTree

end Unwire.Syntax
