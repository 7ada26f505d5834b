import Unwire.Proofs.NodeLayout

namespace Unwire.Syntax.SyntaxTree

/-- `j` is `i`, or some steps down from it. -/
inductive Below (t : SyntaxTree) (i : NodeId) : NodeId → Prop
  | self : Below t i i
  | child {j c : NodeId} : Below t i j → c ∈ t.children j → Below t i c

/-- Everything at or below `x` comes before everything at or below `y`. -/
def Ahead (t : SyntaxTree) (x y : NodeId) : Prop := ∀ a b : Nat, t.Below x a → t.Below y b → a < b

/-- Links of a tree whose nodes are numbered in preorder. -/
structure Linked (t : SyntaxTree) : Prop where
  parent_of_mem : ∀ {i c : NodeId}, c ∈ t.children i → (t.node c).parent = some i
  mem_of_parent : ∀ {i c : NodeId}, (t.node c).parent = some i → c ∈ t.children i
  lt_of_mem : ∀ {i c : Nat}, c ∈ t.children i → i < c
  lt_size_of_mem : ∀ {i c : Nat}, c ∈ t.children i → c < t.nodes.size
  blocks : ∀ i : NodeId, (t.children i).Pairwise t.Ahead
  below_root : ∀ {i : NodeId}, i < t.nodes.size → t.Below root i
  size_pos : 0 < t.nodes.size

theorem node_of_size_le {t : SyntaxTree} {i : NodeId} (h : t.nodes.size ≤ i) : t.node i = default := by
  simp [node, Array.getD, Nat.not_lt.mpr h]

section Layout

variable {text : String} {p : Parse.ParseTree}

theorem ofParse_children {s : Spot} (h : s ∈ (rootSpot p).all) :
    (ofParse text p).children s.id = s.children.map Spot.id := by
  rw [children, ofParse_node h]
  rfl

theorem exists_spot_of_mem {i c : NodeId} (h : c ∈ (ofParse text p).children i) :
    ∃ s ∈ (rootSpot p).all, s.id = i ∧ ∃ d ∈ s.children, d.id = c := by
  by_cases hi : i < (ofParse text p).nodes.size
  · obtain ⟨s, hs, rfl⟩ := exists_spot hi
    rw [ofParse_children hs] at h
    exact ⟨s, hs, rfl, List.mem_map.mp h⟩
  · rw [children, node_of_size_le (Nat.not_lt.mp hi)] at h
    exact absurd h List.not_mem_nil

theorem exists_spot_of_below {s : Spot} (hs : s ∈ (rootSpot p).all) {a : NodeId}
    (h : (ofParse text p).Below s.id a) : ∃ d ∈ s.all, d.id = a := by
  induction h with
  | self => exact ⟨s, s.mem_all_self, rfl⟩
  | child _ hc ih =>
      obtain ⟨d, hd, rfl⟩ := ih
      rw [ofParse_children (Spot.mem_all_trans hd hs)] at hc
      obtain ⟨e, he, rfl⟩ := List.mem_map.mp hc
      exact ⟨e, Spot.child_mem_all hd he, rfl⟩

theorem ofParse_parent_of_mem {i c : NodeId} (h : c ∈ (ofParse text p).children i) :
    ((ofParse text p).node c).parent = some i := by
  obtain ⟨s, hs, rfl, d, hd, rfl⟩ := exists_spot_of_mem h
  rw [ofParse_node (Spot.child_mem_all hs hd)]
  exact (Spot.mem_row hd).2.1

theorem ofParse_mem_of_parent {i c : NodeId} (h : ((ofParse text p).node c).parent = some i) :
    c ∈ (ofParse text p).children i := by
  by_cases hc : c < (ofParse text p).nodes.size
  · obtain ⟨d, hd, rfl⟩ := exists_spot hc
    rw [ofParse_node hd] at h
    rcases Spot.exists_parent hd with rfl | ⟨s, hs, hds⟩
    · exact absurd h (by simp [rootSpot, Spot.node])
    · have hp : d.parent = some s.id := (Spot.mem_row hds).2.1
      have hi : s.id = i := Option.some.inj (hp.symm.trans h)
      rw [← hi, ofParse_children hs]
      exact List.mem_map_of_mem hds
  · rw [node_of_size_le (Nat.not_lt.mp hc)] at h
    exact absurd h (by simp [default, instInhabitedNode.default])

theorem ofParse_blocks (i : NodeId) :
    ((ofParse text p).children i).Pairwise (ofParse text p).Ahead := by
  by_cases hi : i < (ofParse text p).nodes.size
  · obtain ⟨s, hs, rfl⟩ := exists_spot hi
    rw [ofParse_children hs, List.pairwise_map]
    refine (Spot.row_blocks s.id (s.id + 1) s.lead s.tree.children).imp_of_mem ?_
    intro x y hx hy hxy a b ha hb
    obtain ⟨d, hd, rfl⟩ := exists_spot_of_below (Spot.child_mem_all hs hx) ha
    obtain ⟨e, he, rfl⟩ := exists_spot_of_below (Spot.child_mem_all hs hy) hb
    exact Nat.lt_of_lt_of_le (Spot.id_of_mem_all hd).2 (Nat.le_trans hxy (Spot.id_of_mem_all he).1)
  · rw [children, node_of_size_le (Nat.not_lt.mp hi)]
    exact List.Pairwise.nil

theorem ofParse_below_root {i : NodeId} (h : i < (ofParse text p).nodes.size) :
    (ofParse text p).Below root i := by
  induction i using Nat.strongRecOn with
  | ind i ih =>
      obtain ⟨d, hd, rfl⟩ := exists_spot h
      rcases Spot.exists_parent hd with rfl | ⟨s, hs, hds⟩
      · exact Below.self
      · have hlt : s.id < d.id := (Spot.mem_row hds).2.2
        refine Below.child (ih s.id hlt (spot_lt hs)) ?_
        rw [ofParse_children hs]
        exact List.mem_map_of_mem hds

theorem ofParse_linked (text : String) (p : Parse.ParseTree) : (ofParse text p).Linked where
  parent_of_mem := ofParse_parent_of_mem
  mem_of_parent := ofParse_mem_of_parent
  lt_of_mem h := by
    obtain ⟨s, _, rfl, d, hd, rfl⟩ := exists_spot_of_mem h
    exact (Spot.mem_row hd).2.2
  lt_size_of_mem h := by
    obtain ⟨s, hs, rfl, d, hd, rfl⟩ := exists_spot_of_mem h
    exact spot_lt (Spot.child_mem_all hs hd)
  blocks := ofParse_blocks
  below_root := ofParse_below_root
  size_pos := Nat.lt_of_le_of_lt (Nat.zero_le _) (spot_lt (rootSpot p).mem_all_self)

end Layout

variable {t : SyntaxTree} {a b c i j : Nat}

theorem Below.trans (hab : t.Below a b) (hbc : t.Below b c) : t.Below a c := by
  induction hbc with
  | self => exact hab
  | child _ hc ih => exact Below.child ih hc

theorem below_iff_child : t.Below i j ↔ j = i ∨ ∃ c ∈ t.children i, t.Below c j := by
  constructor
  · intro h
    induction h with
    | self => exact Or.inl rfl
    | child _ hc ih =>
        rcases ih with rfl | ⟨d, hd, hb⟩
        · exact Or.inr ⟨_, hc, Below.self⟩
        · exact Or.inr ⟨d, hd, Below.child hb hc⟩
  · rintro (rfl | ⟨c, hc, hb⟩)
    · exact Below.self
    · exact (Below.child Below.self hc).trans hb

theorem eq_of_below_leaf (hleaf : t.children i = []) (h : t.Below i j) : j = i := by
  rcases below_iff_child.mp h with rfl | ⟨c, hc, _⟩
  · rfl
  · simp [hleaf] at hc

namespace Linked

variable (h : t.Linked)
include h

theorem below_iff_parent : t.Below i j ↔ j = i ∨ ∃ p, (t.node j).parent = some p ∧ t.Below i p := by
  constructor
  · intro hb
    cases hb with
    | self => exact Or.inl rfl
    | child hb hc => exact Or.inr ⟨_, h.parent_of_mem hc, hb⟩
  · rintro (rfl | ⟨p, hp, hb⟩)
    · exact Below.self
    · exact Below.child hb (h.mem_of_parent hp)

theorem below_child_iff {p : Nat} (hc : c ∈ t.children p) : t.Below i c ↔ c = i ∨ t.Below i p := by
  rw [h.below_iff_parent, h.parent_of_mem hc]
  simp

theorem le_of_below (hb : t.Below i j) : i ≤ j := by
  induction hb with
  | self => exact Nat.le_refl _
  | child _ hc ih => exact Nat.le_of_lt (Nat.lt_of_le_of_lt ih (h.lt_of_mem hc))

theorem lt_size_of_below (hb : t.Below i j) (hi : i < t.nodes.size) : j < t.nodes.size := by
  cases hb with
  | self => exact hi
  | child _ hc => exact h.lt_size_of_mem hc

theorem children_lt (i : NodeId) : (t.children i).Pairwise (· < ·) :=
  (h.blocks i).imp fun hxy => hxy _ _ Below.self Below.self

theorem eq_of_below_of_size_le (hb : t.Below i j) (hi : t.nodes.size ≤ j) : j = i := by
  cases hb with
  | self => rfl
  | child _ hc => exact absurd (h.lt_size_of_mem hc) (Nat.not_lt.mpr hi)

theorem exists_leaf_below (i : Nat) : ∃ l, t.Below i l ∧ t.children l = [] := by
  induction hn : t.nodes.size - i using Nat.strongRecOn generalizing i with
  | ind n ih =>
      cases hc : t.children i with
      | nil => exact ⟨i, .self, hc⟩
      | cons c cs =>
          have hmem : c ∈ t.children i := by simp [hc]
          have hlt := h.lt_of_mem hmem
          have hsize := h.lt_size_of_mem hmem
          obtain ⟨l, hl, hleaf⟩ := ih (t.nodes.size - c) (by omega) c rfl
          exact ⟨l, (Below.child .self hmem).trans hl, hleaf⟩

end Linked

/-- A pile of nodes that a walk can finish with its fuel. -/
structure Pile (t : SyntaxTree) (fuel : Nat) (pile : List Nat) : Prop where
  ordered : pile.Pairwise t.Ahead
  enough : ∀ i ∈ pile, i < t.nodes.size ∧ t.nodes.size ≤ i + fuel

namespace Linked

variable (h : t.Linked)
include h

theorem pile_pop {fuel : Nat} {pile : List Nat} (hp : t.Pile (fuel + 1) (i :: pile)) :
    t.Pile fuel (t.children i ++ pile) := by
  obtain ⟨hfirst, hrest⟩ := List.pairwise_cons.mp hp.ordered
  constructor
  · refine List.pairwise_append.mpr ⟨h.blocks i, hrest, ?_⟩
    intro x hx y hy a b ha hb
    exact hfirst y hy a b ((Below.child Below.self hx).trans ha) hb
  · intro x hx
    have hi := hp.enough i List.mem_cons_self
    rcases List.mem_append.mp hx with hx | hx
    · -- Numbers grow on the way down, so a step of fuel less is still enough.
      have hlt := h.lt_of_mem hx
      exact ⟨h.lt_size_of_mem hx, by omega⟩
    · have hlt := hfirst x hx i x Below.self Below.self
      exact ⟨(hp.enough x (List.mem_cons_of_mem _ hx)).1, by omega⟩

theorem mem_preorder {fuel : Nat} {pile : List Nat} (hp : t.Pile fuel pile) :
    j ∈ t.preorder fuel pile ↔ ∃ i ∈ pile, t.Below i j := by
  induction fuel generalizing pile with
  | zero =>
      cases pile with
      | nil => simp [preorder]
      | cons i pile => exact absurd (hp.enough i List.mem_cons_self) (by omega)
  | succ fuel ih =>
      cases pile with
      | nil => simp [preorder]
      | cons i pile =>
          rw [preorder, List.mem_cons, ih (h.pile_pop hp)]
          simp only [List.mem_append, List.mem_cons, or_and_right, exists_or, exists_eq_left]
          rw [below_iff_child, or_assoc]

theorem preorder_lt {fuel : Nat} {pile : List Nat} (hp : t.Pile fuel pile) :
    (t.preorder fuel pile).Pairwise (· < ·) := by
  induction fuel generalizing pile with
  | zero => cases pile <;> simp [preorder]
  | succ fuel ih =>
      cases pile with
      | nil => simp [preorder]
      | cons i pile =>
          rw [preorder]
          refine List.Pairwise.cons ?_ (ih (h.pile_pop hp))
          intro j hj
          obtain ⟨x, hx, hb⟩ := (h.mem_preorder (h.pile_pop hp)).mp hj
          rcases List.mem_append.mp hx with hx | hx
          · exact Nat.lt_of_lt_of_le (h.lt_of_mem hx) (h.le_of_below hb)
          · exact (List.pairwise_cons.mp hp.ordered).1 x hx i j Below.self hb

omit h in
theorem pile_singleton (hi : i < t.nodes.size) : t.Pile t.nodes.size [i] :=
  ⟨List.pairwise_singleton _ _, by simp [hi]⟩

theorem descendants_of_size_le (hi : t.nodes.size ≤ i) : t.descendants i = [i] := by
  have hc : t.children i = [] := by rw [children, node_of_size_le hi]; rfl
  obtain ⟨n, hn⟩ := Nat.exists_eq_add_one.mpr h.size_pos
  rw [descendants, hn, preorder, hc]
  simp [preorder]

/-- The walk down meets exactly what is below. -/
theorem mem_descendants : j ∈ t.descendants i ↔ t.Below i j := by
  by_cases hi : i < t.nodes.size
  · rw [descendants, h.mem_preorder (pile_singleton hi)]
    simp
  · have hi := Nat.not_lt.mp hi
    rw [h.descendants_of_size_le hi, List.mem_singleton]
    constructor
    · rintro rfl
      exact Below.self
    · intro hb
      exact h.eq_of_below_of_size_le hb (Nat.le_trans hi (h.le_of_below hb))

theorem descendants_lt (i : NodeId) : (t.descendants i).Pairwise (· < ·) := by
  by_cases hi : i < t.nodes.size
  · exact h.preorder_lt (pile_singleton hi)
  · rw [h.descendants_of_size_le (Nat.not_lt.mp hi)]
    exact List.pairwise_singleton _ _

theorem mem_upward {fuel : Nat} (hi : i < fuel) : j ∈ t.upward fuel i ↔ t.Below j i := by
  induction fuel generalizing i with
  | zero => exact absurd hi (Nat.not_lt_zero _)
  | succ fuel ih =>
      rw [upward, List.mem_cons, h.below_iff_parent, eq_comm]
      cases hp : (t.node i).parent with
      | none => simp
      | some p =>
          have hlt := h.lt_of_mem (h.mem_of_parent hp)
          have hmem := ih (i := p) (by omega)
          simp [hmem]

theorem mem_ancestors : j ∈ t.ancestors i ↔ t.Below j i := by
  by_cases hi : i < t.nodes.size
  · exact h.mem_upward hi
  · have hi := Nat.not_lt.mp hi
    obtain ⟨n, hn⟩ := Nat.exists_eq_add_one.mpr h.size_pos
    have hp : (t.node i).parent = none := by rw [node_of_size_le hi]; rfl
    rw [ancestors, hn, upward, hp]
    constructor
    · intro hj
      obtain rfl : j = i := by simpa using hj
      exact Below.self
    · intro hb
      simp [h.eq_of_below_of_size_le hb hi]

theorem isWithin_iff : t.isWithin i j = true ↔ t.Below j i := by
  rw [isWithin, List.contains_iff_mem, h.mem_ancestors]

end Linked

theorem mem_significantChildren : c ∈ t.significantChildren i ↔ c ∈ t.children i ∧ t.isTrivia c = false := by
  simp [significantChildren]

theorem parent_of_next (hn : t.next? i = some c) : ∃ p, (t.node i).parent = some p := by
  cases hp : (t.node i).parent with
  | none => simp [next?, following, hp] at hn
  | some p => exact ⟨p, rfl⟩

theorem parent_of_previous (hn : t.previous? i = some c) : ∃ p, (t.node i).parent = some p := by
  cases hp : (t.node i).parent with
  | none => simp [previous?, preceding, hp] at hn
  | some p => exact ⟨p, rfl⟩

theorem cut_append_cons {pre post : List Nat} (hi : i ∉ pre) :
    (pre ++ i :: post).takeWhile (· != i) = pre ∧ ((pre ++ i :: post).dropWhile (· != i)).tail = post := by
  have hne : ∀ x ∈ pre, (x != i) = true := by
    intro x hx
    exact bne_iff_ne.mpr fun he => hi (he ▸ hx)
  rw [List.takeWhile_append_of_pos hne, List.dropWhile_append_of_pos hne]
  simp

namespace Linked

variable (h : t.Linked)
include h

theorem significantChildren_lt (i : NodeId) : (t.significantChildren i).Pairwise (· < ·) :=
  (h.children_lt i).filter _

/-- A split of the children around `i` is the one that the walks to both sides give. -/
theorem sides_of_split {p : Nat} {pre post : List Nat} (hs : t.significantChildren p = pre ++ i :: post) :
    t.preceding i = pre ∧ t.following i = post := by
  have hm : i ∈ t.significantChildren p := by simp [hs]
  have hp := h.parent_of_mem (mem_significantChildren.mp hm).1
  have hlt := h.significantChildren_lt p
  rw [hs, List.pairwise_append] at hlt
  have hi : i ∉ pre := fun hmem => Nat.lt_irrefl i (hlt.2.2 i hmem i List.mem_cons_self)
  rw [preceding, following, hp]
  simp only [hs]
  exact cut_append_cons hi

theorem significant_split {p : Nat} (hp : (t.node i).parent = some p) (hi : t.isTrivia i = false) :
    t.significantChildren p = t.preceding i ++ i :: t.following i := by
  have hm : i ∈ t.significantChildren p := mem_significantChildren.mpr ⟨h.mem_of_parent hp, hi⟩
  obtain ⟨pre, post, hs⟩ := List.append_of_mem hm
  obtain ⟨hpre, hpost⟩ := h.sides_of_split hs
  rw [hpre, hpost, hs]

theorem sublist_of_mem_following {p : Nat} (hp : (t.node i).parent = some p) (hi : t.isTrivia i = false)
    (hj : j ∈ t.following i) : [i, j].Sublist (t.children p) := by
  refine List.Sublist.trans ?_ (List.filter_sublist (p := (!t.isTrivia ·)))
  change [i, j].Sublist (t.significantChildren p)
  rw [h.significant_split hp hi]
  exact ((List.singleton_sublist.mpr hj).cons_cons i).trans (List.sublist_append_right _ _)

theorem sublist_of_mem_preceding {p : Nat} (hp : (t.node i).parent = some p) (hi : t.isTrivia i = false)
    (hj : j ∈ t.preceding i) : [j, i].Sublist (t.children p) := by
  refine List.Sublist.trans ?_ (List.filter_sublist (p := (!t.isTrivia ·)))
  change [j, i].Sublist (t.significantChildren p)
  rw [h.significant_split hp hi]
  exact (List.singleton_sublist.mpr hj).append (List.singleton_sublist.mpr List.mem_cons_self)

theorem mem_sides {p : Nat} (hi : t.isTrivia i = false) (hj : t.isTrivia j = false)
    (hs : [i, j].Sublist (t.children p)) : j ∈ t.following i ∧ i ∈ t.preceding j := by
  have hlt := List.pairwise_iff_forall_sublist.mp (h.children_lt p) hs
  have him : i ∈ t.significantChildren p := mem_significantChildren.mpr ⟨hs.subset (by simp), hi⟩
  have hjm : j ∈ t.significantChildren p := mem_significantChildren.mpr ⟨hs.subset (by simp), hj⟩
  have hord := h.significantChildren_lt p
  constructor
  · rw [h.significant_split (h.parent_of_mem (hs.subset (by simp))) hi] at hjm hord
    have hpre := (List.pairwise_append.mp hord).2.2
    rcases List.mem_append.mp hjm with hm | hm
    · exact absurd (hpre j hm i List.mem_cons_self) (Nat.lt_asymm hlt)
    · exact (List.mem_cons.mp hm).resolve_left (Nat.ne_of_gt hlt)
  · rw [h.significant_split (h.parent_of_mem (hs.subset (by simp))) hj] at him hord
    have hpost := (List.pairwise_cons.mp (List.pairwise_append.mp hord).2.1).1
    rcases List.mem_append.mp him with hm | hm
    · exact hm
    · rcases List.mem_cons.mp hm with rfl | hm
      · exact absurd hlt (Nat.lt_irrefl _)
      · exact absurd (hpost i hm) (Nat.lt_asymm hlt)

theorem following_of_next (hi : t.isTrivia i = false) (hn : t.next? i = some c) :
    t.following i = c :: t.following c := by
  obtain ⟨p, hp⟩ := parent_of_next hn
  obtain ⟨post, hpost⟩ := List.head?_eq_some_iff.mp hn
  have hs : t.significantChildren p = (t.preceding i ++ [i]) ++ c :: post := by
    simp [h.significant_split hp hi, hpost]
  rw [hpost, (h.sides_of_split hs).2]

theorem preceding_of_previous (hi : t.isTrivia i = false) (hn : t.previous? i = some c) :
    t.preceding i = t.preceding c ++ [c] ∧ t.following c = i :: t.following i := by
  obtain ⟨p, hp⟩ := parent_of_previous hn
  obtain ⟨pre, hpre⟩ := List.getLast?_eq_some_iff.mp hn
  have hs : t.significantChildren p = pre ++ c :: i :: t.following i := by
    simp [h.significant_split hp hi, hpre]
  obtain ⟨hl, hr⟩ := h.sides_of_split hs
  exact ⟨by rw [hl, hpre], hr⟩

theorem next_iff_previous (hi : t.isTrivia i = false) (hc : t.isTrivia c = false) :
    t.next? i = some c ↔ t.previous? c = some i := by
  constructor
  · intro hn
    obtain ⟨p, hp⟩ := parent_of_next hn
    have hs : t.significantChildren p = (t.preceding i ++ [i]) ++ c :: t.following c := by
      simp [h.significant_split hp hi, h.following_of_next hi hn]
    rw [previous?, (h.sides_of_split hs).1]
    simp
  · intro hn
    rw [next?, (h.preceding_of_previous hc hn).2]
    rfl

theorem mem_of_next {p : Nat} (hp : (t.node i).parent = some p) (hi : t.isTrivia i = false)
    (hn : t.next? i = some c) : c ∈ t.significantChildren p := by
  simp [h.significant_split hp hi, h.following_of_next hi hn]

theorem mem_of_previous {p : Nat} (hp : (t.node i).parent = some p) (hi : t.isTrivia i = false)
    (hn : t.previous? i = some c) : c ∈ t.significantChildren p := by
  simp [h.significant_split hp hi, (h.preceding_of_previous hi hn).1]

end Linked

end Unwire.Syntax.SyntaxTree
