import Unwire.Proofs.TreeLinks

namespace Unwire.Syntax

namespace Spot

theorem row_leads {parent : NodeId} {id lead : Nat} {ts : List Parse.Tree}
    (hlead : ∀ c ∈ row parent id lead ts, lead ≤ c.tree.start)
    (hself : ∀ c ∈ row parent id lead ts, c.tree.start ≤ c.tree.stop)
    (hord : (row parent id lead ts).Pairwise fun a b => a.tree.stop ≤ b.tree.start) :
    (∀ c ∈ row parent id lead ts, lead ≤ c.lead ∧ c.lead ≤ c.tree.start) ∧
      (row parent id lead ts).Pairwise fun a b => a.isTrivia = false → a.tree.stop ≤ b.lead := by
  induction ts generalizing id lead with
  | nil => simp [row]
  | cons t ts ih =>
      simp only [row, List.forall_mem_cons, List.pairwise_cons] at hlead hself hord ⊢
      -- The lead of what follows: a comment does not move it.
      generalize hn : (if (Kind.ofName t.kind).isTrivia then lead else t.stop) = next at *
      have hnext : lead ≤ next := by
        have := hlead.1
        have := hself.1
        grind
      have hrest : ∀ c ∈ row parent (id + t.size) next ts, next ≤ c.tree.start := by
        intro c hc
        have := hlead.2 c hc
        have := hord.1 c hc
        grind
      obtain ⟨hall, hpair⟩ := ih hrest hself.2 hord.2
      refine ⟨⟨⟨Nat.le_refl _, hlead.1⟩, ?_⟩, ?_, hpair⟩
      · intro c hc
        exact ⟨Nat.le_trans hnext (hall c hc).1, (hall c hc).2⟩
      · intro c hc ht
        have hle := (hall c hc).1
        rw [isTrivia] at ht
        simp only [ht] at hn
        subst hn
        exact hle

theorem row_lead_source {parent : NodeId} {id lead : Nat} {ts : List Parse.Tree} {c : Spot}
    (hc : c ∈ row parent id lead ts) :
    c.lead = lead ∨ ∃ d ∈ row parent id lead ts, d.isTrivia = false ∧ c.lead = d.tree.stop := by
  induction ts generalizing id lead with
  | nil => simp [row] at hc
  | cons t ts ih =>
      rw [row] at hc ⊢
      rcases List.mem_cons.mp hc with rfl | hc
      · exact Or.inl rfl
      · rcases ih hc with he | ⟨d, hd, hdt, he⟩
        · by_cases ht : (Kind.ofName t.kind).isTrivia
          · exact Or.inl (by simpa [ht] using he)
          · exact Or.inr ⟨_, List.mem_cons_self, by simpa [isTrivia] using ht, by simpa [ht] using he⟩
        · exact Or.inr ⟨d, List.mem_cons_of_mem _ hd, hdt, he⟩

end Spot

namespace SyntaxTree

/-- Children lie inside of their parent, in the order of the text and apart from each other, and nothing is below a
comment. -/
structure Nested (t : SyntaxTree) : Prop where
  start_le_stop : ∀ i : NodeId, (t.node i).start ≤ (t.node i).stop
  inside : ∀ {i c : NodeId}, c ∈ t.children i →
    (t.node i).start ≤ (t.node c).start ∧ (t.node c).stop ≤ (t.node i).stop
  ordered : ∀ i : NodeId, (t.children i).Pairwise fun x y => (t.node x).stop ≤ (t.node y).start
  comment_leaf : ∀ {i : NodeId}, t.isTrivia i = true → t.children i = []

section Decidable

variable (t : SyntaxTree)

/-- What holds of the node that stands for all nodes outside of the array need only be checked inside of it. -/
theorem forall_node_iff {P : NodeId → Prop} (hout : ∀ i, t.nodes.size ≤ i → P i) :
    (∀ i < t.nodes.size, P i) ↔ ∀ i, P i :=
  ⟨fun h i => (Nat.lt_or_ge i t.nodes.size).elim (h i) (hout i), fun h i _ => h i⟩

instance : Decidable t.Nested :=
  decidable_of_iff
    (∀ i < t.nodes.size, (t.node i).start ≤ (t.node i).stop ∧
      (∀ c ∈ t.children i, (t.node i).start ≤ (t.node c).start ∧ (t.node c).stop ≤ (t.node i).stop) ∧
      (t.children i).Pairwise (fun x y => (t.node x).stop ≤ (t.node y).start) ∧
      (t.isTrivia i = true → t.children i = [])) <| by
    rw [t.forall_node_iff fun i hi => by
      simp [children, node_of_size_le hi, default, instInhabitedNode.default]]
    exact ⟨fun h => ⟨fun i => (h i).1, fun {i c} hc => (h i).2.1 c hc, fun i => (h i).2.2.1, fun {i} => (h i).2.2.2⟩,
      fun h i => ⟨h.start_le_stop i, fun _ hc => h.inside hc, h.ordered i, h.comment_leaf⟩⟩

end Decidable

/-- A nested tree with its links and with the starts of blanks and comments that they give. -/
structure Orderly (t : SyntaxTree) : Prop extends t.Linked, t.Nested where
  fullStart_le_start : ∀ i : NodeId, (t.node i).fullStart ≤ (t.node i).start
  fullStart_le_child : ∀ {i c : NodeId}, c ∈ t.children i → (t.node i).fullStart ≤ (t.node c).fullStart
  stop_le_fullStart : ∀ i : NodeId, (t.children i).Pairwise
    fun x y => t.isTrivia x = false → (t.node x).stop ≤ (t.node y).fullStart
  fullStart_source : ∀ i : NodeId, (t.node i).fullStart = 0 ∨
    ∃ x < t.nodes.size, t.isTrivia x = false ∧ (t.node i).fullStart = (t.node x).stop

section Leads

variable {text : String} {p : Parse.ParseTree}

theorem Nested.children_leads (h : (ofParse text p).Nested) {s : Spot} (hs : s ∈ (rootSpot p).all)
    (hl : s.lead ≤ s.tree.start) :
    (∀ c ∈ s.children, s.lead ≤ c.lead ∧ c.lead ≤ c.tree.start) ∧
      s.children.Pairwise fun a b => a.isTrivia = false → a.tree.stop ≤ b.lead := by
  have hnode : ∀ c ∈ s.children, (ofParse text p).node c.id = c.node := fun c hc =>
    ofParse_node (Spot.child_mem_all hs hc)
  apply Spot.row_leads
  · intro c hc
    have hin := (h.inside (i := s.id) (c := c.id) (by
      rw [ofParse_children hs]
      exact List.mem_map_of_mem hc)).1
    rw [hnode c hc, ofParse_node hs] at hin
    exact Nat.le_trans hl hin
  · intro c hc
    have hle := h.start_le_stop c.id
    rwa [hnode c hc] at hle
  · have hord := h.ordered s.id
    rw [ofParse_children hs, List.pairwise_map] at hord
    refine hord.imp_of_mem ?_
    intro a b ha hb hab
    rwa [hnode a ha, hnode b hb] at hab

theorem Nested.lead_le_start (h : (ofParse text p).Nested) {s : Spot} (hs : s ∈ (rootSpot p).all) :
    s.lead ≤ s.tree.start := by
  induction hn : s.id using Nat.strongRecOn generalizing s with
  | ind n ih =>
      rcases Spot.exists_parent hs with rfl | ⟨r, hr, hsr⟩
      · exact Nat.zero_le _
      · have hlt : r.id < n := hn ▸ (Spot.mem_row hsr).2.2
        exact ((h.children_leads hr (ih r.id hlt hr rfl)).1 s hsr).2

theorem Nested.fullStart_eq_lead (h : (ofParse text p).Nested) {s : Spot} (hs : s ∈ (rootSpot p).all) :
    ((ofParse text p).node s.id).fullStart = s.lead := by
  rw [ofParse_node hs]
  exact Nat.min_eq_left (h.lead_le_start hs)

theorem lead_source {s : Spot} (hs : s ∈ (rootSpot p).all) :
    s.lead = 0 ∨ ∃ d ∈ (rootSpot p).all, d.isTrivia = false ∧ s.lead = d.tree.stop := by
  induction hn : s.id using Nat.strongRecOn generalizing s with
  | ind n ih =>
      rcases Spot.exists_parent hs with rfl | ⟨r, hr, hsr⟩
      · exact Or.inl rfl
      · rcases Spot.row_lead_source hsr with he | ⟨d, hd, he⟩
        · rw [he]
          exact ih r.id (hn ▸ (Spot.mem_row hsr).2.2) hr rfl
        · exact Or.inr ⟨d, Spot.child_mem_all hr hd, he⟩

theorem Nested.orderly (h : (ofParse text p).Nested) : (ofParse text p).Orderly where
  toLinked := ofParse_linked text p
  toNested := h
  fullStart_le_start i := by
    by_cases hi : i < (ofParse text p).nodes.size
    · obtain ⟨s, hs, rfl⟩ := exists_spot hi
      rw [ofParse_node hs]
      exact Nat.min_le_right _ _
    · rw [node_of_size_le (Nat.not_lt.mp hi)]
      exact Nat.le_refl _
  fullStart_le_child hc := by
    obtain ⟨s, hs, rfl, d, hd, rfl⟩ := exists_spot_of_mem hc
    rw [h.fullStart_eq_lead hs, h.fullStart_eq_lead (Spot.child_mem_all hs hd)]
    exact ((h.children_leads hs (h.lead_le_start hs)).1 d hd).1
  stop_le_fullStart i := by
    by_cases hi : i < (ofParse text p).nodes.size
    · obtain ⟨s, hs, rfl⟩ := exists_spot hi
      rw [ofParse_children hs, List.pairwise_map]
      refine (h.children_leads hs (h.lead_le_start hs)).2.imp_of_mem ?_
      intro a b ha hb hab ht
      rw [isTrivia, ofParse_node (Spot.child_mem_all hs ha)] at ht
      rw [h.fullStart_eq_lead (Spot.child_mem_all hs hb), ofParse_node (Spot.child_mem_all hs ha)]
      exact hab ht
    · rw [children, node_of_size_le (Nat.not_lt.mp hi)]
      exact List.Pairwise.nil
  fullStart_source i := by
    by_cases hi : i < (ofParse text p).nodes.size
    · obtain ⟨s, hs, rfl⟩ := exists_spot hi
      rw [h.fullStart_eq_lead hs]
      rcases lead_source hs with he | ⟨d, hd, hdt, he⟩
      · exact Or.inl he
      · refine Or.inr ⟨d.id, spot_lt hd, ?_, ?_⟩
        · rw [isTrivia, ofParse_node hd]
          exact hdt
        · rw [he, ofParse_node hd]
          rfl
    · rw [node_of_size_le (Nat.not_lt.mp hi)]
      exact Or.inl rfl

end Leads

/-- `a` and `b` are below two children of one node, and that of `a` comes first. -/
def Before (t : SyntaxTree) (a b : NodeId) : Prop :=
  ∃ p x y, [x, y].Sublist (t.children p) ∧ t.Below x a ∧ t.Below y b

variable {t : SyntaxTree} {a b c d i j x y : Nat}

theorem Before.below_left (h : t.Before a b) (hc : t.Below a c) : t.Before c b := by
  obtain ⟨p, x, y, hs, hx, hy⟩ := h
  exact ⟨p, x, y, hs, hx.trans hc, hy⟩

theorem Before.below_right (h : t.Before a b) (hc : t.Below b c) : t.Before a c := by
  obtain ⟨p, x, y, hs, hx, hy⟩ := h
  exact ⟨p, x, y, hs, hx, hy.trans hc⟩

theorem sublist_pair_of_mem {l : List Nat} (hx : x ∈ l) (hy : y ∈ l) (hne : x ≠ y) :
    [x, y].Sublist l ∨ [y, x].Sublist l := by
  obtain ⟨pre, post, rfl⟩ := List.append_of_mem hx
  rcases List.mem_append.mp hy with hy | hy
  · right
    exact (List.singleton_sublist.mpr hy).append (List.singleton_sublist.mpr List.mem_cons_self)
  · left
    have hp : y ∈ post := by
      rcases List.mem_cons.mp hy with rfl | hy
      · exact absurd rfl hne
      · exact hy
    exact ((List.singleton_sublist.mpr hp).cons_cons x).trans (List.sublist_append_right pre _)

namespace Linked

variable (h : t.Linked)
include h

/-- Two nodes are one below the other, or one before the other. -/
theorem below_or_before (ha : a < t.nodes.size) (hb : b < t.nodes.size) :
    t.Below a b ∨ t.Below b a ∨ t.Before a b ∨ t.Before b a := by
  have hroot := h.below_root hb
  induction hroot with
  | self => exact Or.inr (Or.inl (h.below_root ha))
  | @child j c hj hc ih =>
      rcases ih (h.lt_size_of_below hj h.size_pos) with hab | hba | hab | hba
      · exact Or.inl (Below.child hab hc)
      · rcases below_iff_child.mp hba with rfl | ⟨d, hd, hda⟩
        · exact Or.inl (Below.child Below.self hc)
        · by_cases he : d = c
          · exact Or.inr (Or.inl (he ▸ hda))
          · rcases sublist_pair_of_mem hd hc he with hs | hs
            · exact Or.inr (Or.inr (Or.inl ⟨j, d, c, hs, hda, Below.self⟩))
            · exact Or.inr (Or.inr (Or.inr ⟨j, c, d, hs, Below.self, hda⟩))
      · exact Or.inr (Or.inr (Or.inl (hab.below_right (Below.child Below.self hc))))
      · exact Or.inr (Or.inr (Or.inr (hba.below_left (Below.child Below.self hc))))

theorem lt_of_before (hb : t.Before a b) : a < b := by
  obtain ⟨p, x, y, hs, hx, hy⟩ := hb
  exact List.pairwise_iff_forall_sublist.mp (h.blocks p) hs a b hx hy

theorem below_or_before_of_lt (hlt : a < b) (hb : b < t.nodes.size) : t.Below a b ∨ t.Before a b := by
  rcases h.below_or_before (Nat.lt_trans hlt hb) hb with hab | hba | hab | hba
  · exact Or.inl hab
  · exact absurd (h.le_of_below hba) (Nat.not_le.mpr hlt)
  · exact Or.inr hab
  · exact absurd (h.lt_of_before hba) (Nat.lt_asymm hlt)

theorem before_of_siblings {p : Nat} (ha : a ∈ t.children p) (hb : b ∈ t.children p) (hlt : a < b) :
    t.Before a b := by
  rcases sublist_pair_of_mem ha hb (Nat.ne_of_lt hlt) with hs | hs
  · exact ⟨p, a, b, hs, Below.self, Below.self⟩
  · exact absurd (List.pairwise_iff_forall_sublist.mp (h.children_lt p) hs) (Nat.lt_asymm hlt)

theorem before_of_next (hi : t.isTrivia i = false) (hn : t.next? i = some c) : t.Before i c := by
  obtain ⟨p, hp⟩ := parent_of_next hn
  exact ⟨p, i, c, h.sublist_of_mem_following hp hi (by simp [h.following_of_next hi hn]), Below.self, Below.self⟩

theorem before_of_previous (hi : t.isTrivia i = false) (hn : t.previous? i = some d) : t.Before d i := by
  obtain ⟨p, hp⟩ := parent_of_previous hn
  exact ⟨p, d, i, h.sublist_of_mem_preceding hp hi (by simp [(h.preceding_of_previous hi hn).1]),
    Below.self, Below.self⟩

theorem not_below_of_before (hb : t.Before a b) : ¬t.Below a b := by
  intro hab
  obtain ⟨p, x, y, hs, hx, hy⟩ := hb
  have hlt := List.pairwise_iff_forall_sublist.mp (h.blocks p) hs b b (hx.trans hab) hy
  exact Nat.lt_irrefl b hlt

theorem eq_of_siblings {p : Nat} (ha : a ∈ t.children p) (hb : b ∈ t.children p) (hab : t.Below a b) : b = a := by
  rcases Nat.lt_or_eq_of_le (h.le_of_below hab) with hlt | he
  · exact absurd hab (h.not_below_of_before (h.before_of_siblings ha hb hlt))
  · exact he.symm

theorem below_or_below (ha : a < t.nodes.size) (hb : b < t.nodes.size) (hac : t.Below a c) (hbc : t.Below b c) :
    t.Below a b ∨ t.Below b a := by
  rcases h.below_or_before ha hb with hab | hba | hab | hba
  · exact Or.inl hab
  · exact Or.inr hba
  · exact absurd hac (h.not_below_of_before (hab.below_right hbc))
  · exact absurd hbc (h.not_below_of_before (hba.below_right hac))

end Linked

namespace Orderly

variable (h : t.Orderly)
include h

theorem range_of_below (hb : t.Below i j) :
    (t.node i).start ≤ (t.node j).start ∧ (t.node j).stop ≤ (t.node i).stop ∧
      (t.node i).fullStart ≤ (t.node j).fullStart := by
  induction hb with
  | self => exact ⟨Nat.le_refl _, Nat.le_refl _, Nat.le_refl _⟩
  | child _ hc ih =>
      obtain ⟨hstart, hstop⟩ := h.inside hc
      exact ⟨Nat.le_trans ih.1 hstart, Nat.le_trans hstop ih.2.1,
        Nat.le_trans ih.2.2 (h.fullStart_le_child hc)⟩

theorem stop_le_start (hb : t.Before a b) : (t.node a).stop ≤ (t.node b).start := by
  obtain ⟨p, x, y, hs, hx, hy⟩ := hb
  have hxy := List.pairwise_iff_forall_sublist.mp (h.ordered p) hs
  exact Nat.le_trans (h.range_of_below hx).2.1 (Nat.le_trans hxy (h.range_of_below hy).1)

theorem eq_of_leaves (ha : a < t.nodes.size) (hb : b < t.nodes.size) (hal : t.children a = [])
    (hbl : t.children b = []) (hab : (t.node a).start < (t.node b).stop)
    (hba : (t.node b).start < (t.node a).stop) : a = b := by
  rcases h.below_or_before ha hb with hb | hb | hb | hb
  · exact (eq_of_below_leaf hal hb).symm
  · exact eq_of_below_leaf hbl hb
  · have hle := h.stop_le_start hb
    omega
  · have hle := h.stop_le_start hb
    omega

theorem eq_of_below_trivia (ht : t.isTrivia i = true) (hb : t.Below i j) : j = i :=
  eq_of_below_leaf (h.comment_leaf ht) hb

theorem isTrivia_of_below (hb : t.Below i j) (hj : t.isTrivia j = false) : t.isTrivia i = false := by
  cases ht : t.isTrivia i with
  | false => rfl
  | true => rw [← h.eq_of_below_trivia ht hb, hj] at ht; exact ht.symm

theorem stop_le_lead (hb : t.Before a b) (ha : t.isTrivia a = false) :
    (t.node a).stop ≤ (t.node b).fullStart := by
  obtain ⟨p, x, y, hs, hx, hy⟩ := hb
  have hxy := List.pairwise_iff_forall_sublist.mp (h.stop_le_fullStart p) hs (h.isTrivia_of_below hx ha)
  exact Nat.le_trans (h.range_of_below hx).2.1 (Nat.le_trans hxy (h.range_of_below hy).2.2)

theorem next_cases (hi : t.isTrivia i = false) (hn : t.next? i = some c) (hb : t.Before i b)
    (hbt : t.isTrivia b = false) : t.Below c b ∨ t.Before c b := by
  obtain ⟨q, hq⟩ := parent_of_next hn
  have hfollow := h.following_of_next hi hn
  have hc : c ∈ t.significantChildren q := h.mem_of_next hq hi hn
  obtain ⟨hcq, hct⟩ := mem_significantChildren.mp hc
  obtain ⟨p, x, y, hs, hx, hy⟩ := hb
  rcases (h.below_child_iff (h.mem_of_parent hq)).mp hx with rfl | hxq
  · have hyt := h.isTrivia_of_below hy hbt
    have hmem := (h.mem_sides hi hyt hs).1
    rw [hfollow] at hmem
    rcases List.mem_cons.mp hmem with rfl | hmem
    · exact Or.inl hy
    · exact Or.inr ⟨q, c, y, h.sublist_of_mem_following (h.parent_of_mem hcq) hct hmem, Below.self, hy⟩
  · exact Or.inr ⟨p, x, y, hs, Below.child hxq hcq, hy⟩

theorem previous_cases (hi : t.isTrivia i = false) (hn : t.previous? i = some d) (hb : t.Before a i)
    (ha : t.isTrivia a = false) : t.Below d a ∨ t.Before a d := by
  obtain ⟨q, hq⟩ := parent_of_previous hn
  have hprecede := (h.preceding_of_previous hi hn).1
  have hd : d ∈ t.significantChildren q := h.mem_of_previous hq hi hn
  obtain ⟨hdq, hdt⟩ := mem_significantChildren.mp hd
  obtain ⟨p, x, y, hs, hx, hy⟩ := hb
  rcases (h.below_child_iff (h.mem_of_parent hq)).mp hy with rfl | hyq
  · have hxt := h.isTrivia_of_below hx ha
    have hmem := (h.mem_sides hxt hi hs).2
    rw [hprecede] at hmem
    rcases List.mem_append.mp hmem with hmem | hmem
    · exact Or.inr ⟨q, x, d, h.sublist_of_mem_preceding (h.parent_of_mem hdq) hdt hmem, hx, Below.self⟩
    · obtain rfl := List.mem_singleton.mp hmem
      exact Or.inl hx
  · exact Or.inr ⟨p, x, y, hs, hx, Below.child hyq hdq⟩

end Orderly

end SyntaxTree

end Unwire.Syntax
