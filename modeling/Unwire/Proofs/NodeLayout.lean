import Unwire.Syntax.Basic

namespace Unwire.Parse.Tree

mutual

def size : Tree → Nat
  | node _ _ _ _ children => sizeAll children + 1

def sizeAll : List Tree → Nat
  | [] => 0
  | t :: ts => t.size + sizeAll ts

end

end Unwire.Parse.Tree

namespace Unwire.Syntax

open Unwire.Parse (Tree)

/-- A part of a tree, with its place in the array and what it is added with. -/
structure Spot where
  tree : Tree
  id : NodeId
  parent : Option NodeId
  lead : Nat

namespace Spot

def isTrivia (s : Spot) : Bool := (Kind.ofName s.tree.kind).isTrivia

def row (parent : NodeId) (id lead : Nat) : List Tree → List Spot
  | [] => []
  | t :: ts =>
      ⟨t, id, some parent, lead⟩ ::
        row parent (id + t.size) (if (Kind.ofName t.kind).isTrivia then lead else t.stop) ts

def children (s : Spot) : List Spot := row s.id (s.id + 1) s.lead s.tree.children

def node (s : Spot) : Node where
  kind := .ofName s.tree.kind
  field := s.tree.field
  fullStart := min s.lead s.tree.start
  start := s.tree.start
  stop := s.tree.stop
  parent := s.parent
  children := s.children.map id

mutual

def spread (parent : Option NodeId) (id lead : Nat) : Tree → List Spot
  | .node kind field start stop children =>
      ⟨.node kind field start stop children, id, parent, lead⟩ :: spreadAll id (id + 1) lead children

def spreadAll (parent : NodeId) (id lead : Nat) : List Tree → List Spot
  | [] => []
  | t :: ts =>
      spread (some parent) id lead t ++
        spreadAll parent (id + t.size) (if (Kind.ofName t.kind).isTrivia then lead else t.stop) ts

end

def all (s : Spot) : List Spot := spread s.parent s.id s.lead s.tree

theorem spreadAll_eq_flatMap (parent : NodeId) (id lead : Nat) (ts : List Tree) :
    spreadAll parent id lead ts = (row parent id lead ts).flatMap all := by
  induction ts generalizing id lead with
  | nil => rfl
  | cons t ts ih => rw [spreadAll, row, List.flatMap_cons, ih, all]

theorem all_eq (s : Spot) : s.all = s :: s.children.flatMap all := by
  obtain ⟨⟨kind, field, start, stop, children⟩, id, parent, lead⟩ := s
  rw [all, spread, spreadAll_eq_flatMap]
  rfl

mutual

theorem spread_ids (parent : Option NodeId) (id lead : Nat) (t : Tree) :
    (spread parent id lead t).map Spot.id = List.range' id t.size := by
  obtain ⟨kind, field, start, stop, children⟩ := t
  rw [spread, List.map_cons, spreadAll_ids, Tree.size, List.range'_succ]

theorem spreadAll_ids (parent : NodeId) (id lead : Nat) (ts : List Tree) :
    (spreadAll parent id lead ts).map Spot.id = List.range' id (Tree.sizeAll ts) := by
  cases ts with
  | nil => rfl
  | cons t ts =>
      rw [spreadAll, List.map_append, spread_ids, spreadAll_ids, Tree.sizeAll, List.range'_append_1]

end

/-- A part and everything below it take a block of places, in preorder. -/
theorem all_ids (s : Spot) : s.all.map Spot.id = List.range' s.id s.tree.size :=
  spread_ids s.parent s.id s.lead s.tree

theorem length_spread (parent : Option NodeId) (id lead : Nat) (t : Tree) :
    (spread parent id lead t).length = t.size := by
  simpa using congrArg List.length (spread_ids parent id lead t)

theorem modify_append_cons {α : Type} (f : α → α) (xs : List α) (x : α) (ys : List α) :
    (xs ++ x :: ys).modify xs.length f = xs ++ f x :: ys := by
  induction xs with
  | nil => rfl
  | cons y xs ih => simp [ih]

mutual

theorem addTree_eq (parent : Option NodeId) (lead : Nat) (t : Tree) (nodes : Array Node) :
    addTree parent lead t nodes = nodes ++ ((spread parent nodes.size lead t).map node).toArray := by
  obtain ⟨kind, field, start, stop, children⟩ := t
  rw [addTree, addForest_eq]
  apply Array.ext'
  simp only [Array.size_push, Array.toList_modify, Array.toList_append, Array.toList_push,
    List.append_assoc, List.singleton_append, spread, List.map_cons]
  rw [← Array.length_toList, modify_append_cons]
  rfl

theorem addForest_eq (parent : NodeId) (lead : Nat) (ts : List Tree) (nodes : Array Node) :
    addForest parent lead ts nodes =
      ((row parent nodes.size lead ts).map Spot.id,
        nodes ++ ((spreadAll parent nodes.size lead ts).map node).toArray) := by
  cases ts with
  | nil => simp [addForest, row, spreadAll]
  | cons t ts =>
      rw [addForest, addForest_eq, addTree_eq]
      simp [row, spreadAll, length_spread, Array.append_assoc]

end

theorem mem_row {parent : NodeId} {id lead : Nat} {ts : List Tree} {c : Spot}
    (h : c ∈ row parent id lead ts) : c.tree ∈ ts ∧ c.parent = some parent ∧ id ≤ c.id := by
  induction ts generalizing id lead with
  | nil => simp [row] at h
  | cons t ts ih =>
      rw [row, List.mem_cons] at h
      rcases h with rfl | h
      · exact ⟨List.mem_cons_self, rfl, Nat.le_refl _⟩
      · obtain ⟨ht, hp, hi⟩ := ih h
        exact ⟨List.mem_cons_of_mem _ ht, hp, by omega⟩

/-- Siblings take blocks of places that follow one another. -/
theorem row_blocks (parent : NodeId) (id lead : Nat) (ts : List Tree) :
    (row parent id lead ts).Pairwise fun a b => a.id + a.tree.size ≤ b.id := by
  induction ts generalizing id lead with
  | nil => exact List.Pairwise.nil
  | cons t ts ih => exact List.Pairwise.cons (fun c hc => (mem_row hc).2.2) (ih _ _)

theorem size_le_sizeAll {t : Tree} {ts : List Tree} (h : t ∈ ts) : t.size ≤ Tree.sizeAll ts := by
  induction ts with
  | nil => simp at h
  | cons u us ih =>
      rw [Tree.sizeAll]
      rcases List.mem_cons.mp h with rfl | h
      · omega
      · have := ih h
        omega

theorem size_lt_of_mem_children {s c : Spot} (h : c ∈ s.children) : c.tree.size < s.tree.size := by
  have hm := size_le_sizeAll (mem_row h).1
  obtain ⟨⟨kind, field, start, stop, children⟩, id, parent, lead⟩ := s
  rw [Tree.size]
  exact Nat.lt_succ_of_le hm

/-- What goes from the children of every part to the part holds everywhere. -/
theorem children_induction {motive : Spot → Prop}
    (step : ∀ s, (∀ c ∈ s.children, motive c) → motive s) (s : Spot) : motive s := by
  induction hn : s.tree.size using Nat.strongRecOn generalizing s with
  | ind n ih => exact step s fun c hc => ih c.tree.size (hn ▸ size_lt_of_mem_children hc) c rfl

theorem mem_all_iff {s r : Spot} : s ∈ r.all ↔ s = r ∨ ∃ c ∈ r.children, s ∈ c.all := by
  rw [all_eq, List.mem_cons, List.mem_flatMap]

theorem mem_all_self (s : Spot) : s ∈ s.all := mem_all_iff.mpr (Or.inl rfl)

theorem mem_all_trans {a b c : Spot} (hab : a ∈ b.all) (hbc : b ∈ c.all) : a ∈ c.all := by
  induction c using children_induction with
  | step c ih =>
      rcases mem_all_iff.mp hbc with rfl | ⟨d, hd, hbd⟩
      · exact hab
      · exact mem_all_iff.mpr (Or.inr ⟨d, hd, ih d hd hbd⟩)

theorem child_mem_all {s c r : Spot} (hs : s ∈ r.all) (hc : c ∈ s.children) : c ∈ r.all :=
  mem_all_trans (mem_all_iff.mpr (Or.inr ⟨c, hc, c.mem_all_self⟩)) hs

theorem exists_parent {c r : Spot} (hc : c ∈ r.all) : c = r ∨ ∃ s ∈ r.all, c ∈ s.children := by
  induction r using children_induction with
  | step r ih =>
      rcases mem_all_iff.mp hc with rfl | ⟨d, hd, hcd⟩
      · exact Or.inl rfl
      · rcases ih d hd hcd with rfl | ⟨s, hs, hcs⟩
        · exact Or.inr ⟨r, r.mem_all_self, hd⟩
        · exact Or.inr ⟨s, mem_all_iff.mpr (Or.inr ⟨d, hd, hs⟩), hcs⟩

theorem id_of_mem_all {s r : Spot} (h : s ∈ r.all) : r.id ≤ s.id ∧ s.id < r.id + r.tree.size := by
  have hm : s.id ∈ r.all.map Spot.id := List.mem_map_of_mem h
  rwa [all_ids, List.mem_range'_1] at hm

end Spot

namespace SyntaxTree

variable (text : String) (p : Parse.ParseTree)

def rootSpot : Spot := ⟨p.root, 0, none, 0⟩

theorem ofParse_nodes :
    (ofParse text p).nodes = ((rootSpot p).all.map Spot.node).toArray := by
  rw [ofParse, Spot.addTree_eq]
  simp [rootSpot, Spot.all]

theorem ofParse_size : (ofParse text p).nodes.size = p.root.size := by
  have h := congrArg List.length (rootSpot p).all_ids
  simpa [ofParse_nodes, rootSpot] using h

variable {text p}

theorem ofParse_node {s : Spot} (h : s ∈ (rootSpot p).all) : (ofParse text p).node s.id = s.node := by
  obtain ⟨i, hi, rfl⟩ := List.getElem_of_mem h
  have hid : (rootSpot p).all[i].id = i := by
    have he := List.getElem_of_eq (rootSpot p).all_ids (i := i) (by simpa using hi)
    simpa [rootSpot] using he
  rw [hid, node, ofParse_nodes]
  simp [Array.getD, hi]

theorem exists_spot {i : NodeId} (h : i < (ofParse text p).nodes.size) :
    ∃ s ∈ (rootSpot p).all, s.id = i := by
  have hm : i ∈ (rootSpot p).all.map Spot.id := by
    rw [Spot.all_ids, List.mem_range'_1]
    rw [ofParse_size] at h
    exact ⟨Nat.zero_le _, by simpa [rootSpot] using h⟩
  exact List.mem_map.mp hm

theorem spot_lt {s : Spot} (h : s ∈ (rootSpot p).all) : s.id < (ofParse text p).nodes.size := by
  rw [ofParse_size]
  simpa [rootSpot] using (Spot.id_of_mem_all h).2

end SyntaxTree

end Unwire.Syntax
