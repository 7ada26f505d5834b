import Mathlib.Data.List.Nodup
import Mathlib.Logic.Function.Iterate
import Unwire.Proofs.TreeLinks

namespace Unwire.Parse

namespace Tree

mutual

def preorder : Tree → List Tree
  | node kind field start stop children => node kind field start stop children :: preorderAll children

def preorderAll : List Tree → List Tree
  | [] => []
  | t :: ts => t.preorder ++ preorderAll ts

end

theorem size_eq (t : Tree) : t.size = sizeAll t.children + 1 := by
  obtain ⟨kind, field, start, stop, children⟩ := t
  rfl

end Tree

/-- A place in a tree: the node there, the siblings after it, and the nodes above with the siblings after each. -/
structure Cursor where
  focus : Tree
  later : List Tree
  above : List (Tree × List Tree)

namespace Cursor

def ofRoot (t : Tree) : Cursor := ⟨t, [], []⟩

def firstChild? (c : Cursor) : Option Cursor :=
  match c.focus.children with
  | [] => none
  | t :: ts => some ⟨t, ts, (c.focus, c.later) :: c.above⟩

def nextSibling? (c : Cursor) : Option Cursor :=
  match c.later with
  | [] => none
  | t :: ts => some ⟨t, ts, c.above⟩

def parent? (c : Cursor) : Option Cursor :=
  match c.above with
  | [] => none
  | (t, ts) :: above => some ⟨t, ts, above⟩

end Cursor

end Unwire.Parse

namespace Unwire.Syntax

open Unwire.Parse (Tree Cursor)

def childless (t : Tree) (parent : Option NodeId) (lead : Nat) : Node :=
  { kind := .ofName t.kind, field := t.field, fullStart := min lead t.start, start := t.start, stop := t.stop, parent }

def adopt (parent : Option NodeId) (ids : List NodeId) (nodes : Array Node) : Array Node :=
  match parent with
  | none => nodes
  | some p => nodes.modify p fun n => { n with children := n.children ++ ids }

/-- What a walk does next: add the node at its cursor, go on from the node that it has finished, or nothing. -/
inductive Walk.Task where
  | enter (lead : Nat)
  | leave (id : NodeId)
  | halt

structure Walk where
  cursor : Cursor
  opened : List (NodeId × Nat)
  nodes : Array Node
  task : Walk.Task

namespace Walk

def start (t : Tree) : Walk := ⟨.ofRoot t, [], #[], .enter 0⟩

def innermost? (opened : List (NodeId × Nat)) : Option NodeId := opened.head?.map (·.1)

/-- One move of the cursor at most. A walk that has halted stays as it is. -/
def next (w : Walk) : Walk :=
  match w.task with
  | .enter lead =>
    let id := w.nodes.size
    let parent := innermost? w.opened
    let nodes := adopt parent [id] (w.nodes.push (childless w.cursor.focus parent lead))
    match w.cursor.firstChild? with
    | some cursor => ⟨cursor, (id, lead) :: w.opened, nodes, .enter lead⟩
    | none => { w with nodes, task := .leave id }
  | .leave id =>
    match w.opened with
    | [] => { w with task := .halt }
    | (parent, lead) :: opened =>
      let n := w.nodes.getD id default
      let lead := if n.kind.isTrivia then lead else n.stop
      match w.cursor.nextSibling? with
      | some cursor => { w with cursor, opened := (parent, lead) :: opened, task := .enter lead }
      | none => { w with cursor := w.cursor.parent?.getD w.cursor, opened, task := .leave parent }
  | .halt => w

end Walk

section Adopt

variable {parent : Option NodeId} {p : NodeId} {nodes : Array Node}

theorem size_adopt (parent : Option NodeId) (ids : List NodeId) (nodes : Array Node) :
    (adopt parent ids nodes).size = nodes.size := by
  cases parent <;> simp [adopt]

theorem adopt_nil (parent : Option NodeId) (nodes : Array Node) : adopt parent [] nodes = nodes := by
  cases parent with
  | none => rfl
  | some p => exact Array.ext (by simp [adopt]) fun i hi _ => by simp [adopt, Array.getElem_modify]

theorem adopt_adopt (parent : Option NodeId) (ids more : List NodeId) (nodes : Array Node) :
    adopt parent more (adopt parent ids nodes) = adopt parent (ids ++ more) nodes := by
  cases parent with
  | none => rfl
  | some p =>
      refine Array.ext (by simp [adopt]) fun i hi _ => ?_
      simp only [adopt, Array.getElem_modify]
      grind

theorem adopt_append (hp : ∀ p ∈ parent, p < nodes.size) (ids : List NodeId) (rest : Array Node) :
    adopt parent ids (nodes ++ rest) = adopt parent ids nodes ++ rest := by
  cases parent with
  | none => rfl
  | some p =>
      have hlt : p < nodes.size := hp p rfl
      refine Array.ext (by simp [adopt]) fun i hi _ => ?_
      simp only [adopt, Array.getElem_modify, Array.getElem_append, Array.size_modify]
      grind

theorem adopt_push_self (hp : nodes.size = p) (n : Node) (ids : List NodeId) :
    adopt (some p) ids (nodes.push n) = nodes.push { n with children := n.children ++ ids } := by
  refine Array.ext (by simp [adopt]) fun i hi _ => ?_
  simp only [adopt, Array.getElem_modify, Array.getElem_push]
  grind

end Adopt

namespace Walk

def among (c : Cursor) (id : NodeId) (opened : List (NodeId × Nat)) (nodes : Array Node) (lead : Nat) :
    List Tree → Walk
  | [] => ⟨c, opened, nodes, .leave id⟩
  | t :: ts => ⟨⟨t, ts, (c.focus, c.later) :: c.above⟩, (id, lead) :: opened, nodes, .enter lead⟩

variable {id p lead : Nat} {opened : List (NodeId × Nat)} {nodes : Array Node}

theorem next_enter (c : Cursor) (lead : Nat) {parent : Option NodeId} (hopened : innermost? opened = parent)
    (hp : ∀ p ∈ parent, p < nodes.size) :
    next ⟨c, opened, nodes, .enter lead⟩ =
      among c nodes.size opened ((adopt parent [nodes.size] nodes).push (childless c.focus parent lead)) lead
        c.focus.children := by
  have hpush := adopt_append hp [nodes.size] #[childless c.focus parent lead]
  rw [Array.append_singleton, Array.append_singleton] at hpush
  cases hc : c.focus.children <;> simp [next, Cursor.firstChild?, hc, among, hopened, hpush]

theorem next_leave (c : Cursor) (t : Tree) (ts : List Tree) {s : Spot} (hs : nodes.getD p default = s.node) :
    next ⟨⟨t, ts, (c.focus, c.later) :: c.above⟩, (id, lead) :: opened, nodes, .leave p⟩ =
      among c id opened nodes (if (Kind.ofName s.tree.kind).isTrivia then lead else s.tree.stop) ts := by
  cases ts with
  | nil => rfl
  | cons u us =>
      simp only [next, Cursor.nextSibling?, hs]
      rfl

theorem getD_spread (nodes : Array Node) (parent : Option NodeId) (id lead : Nat) (t : Tree) :
    (nodes ++ ((Spot.spread parent id lead t).map Spot.node).toArray).getD nodes.size default =
      (Spot.mk t id parent lead).node := by
  obtain ⟨kind, field, start, stop, children⟩ := t
  simp [Spot.spread, Array.getD]

mutual

/-- A walk comes back to the node that it enters. By then it has moved to and from each node below it, and has added
them all. -/
theorem iterate_enter (t : Tree) (later : List Tree) (above : List (Tree × List Tree))
    (opened : List (NodeId × Nat)) (nodes : Array Node) (lead : Nat) {parent : Option NodeId}
    (hopened : innermost? opened = parent) (hp : ∀ p ∈ parent, p < nodes.size) :
    next^[2 * Tree.sizeAll t.children + 1] ⟨⟨t, later, above⟩, opened, nodes, .enter lead⟩ =
      ⟨⟨t, later, above⟩, opened, adopt parent [nodes.size] nodes ++
        ((Spot.spread parent nodes.size lead t).map Spot.node).toArray, .leave nodes.size⟩ := by
  obtain ⟨kind, field, start, stop, children⟩ := t
  have hsize := size_adopt parent [nodes.size] nodes
  rw [Function.iterate_succ_apply, next_enter _ _ hopened hp, Tree.children,
    iterate_among children _ _ _ _ _ (by simp [hsize]), adopt_push_self hsize, Array.size_push, hsize, Spot.spread,
    List.map_cons, Array.push_eq_append, Array.append_assoc, ← List.toArray_cons]
  rfl

theorem iterate_among (ts : List Tree) (c : Cursor) (id : NodeId) (opened : List (NodeId × Nat)) (nodes : Array Node)
    (lead : Nat) (hid : id < nodes.size) :
    next^[2 * Tree.sizeAll ts] (among c id opened nodes lead ts) =
      ⟨c, opened, adopt (some id) ((Spot.row id nodes.size lead ts).map Spot.id) nodes ++
        ((Spot.spreadAll id nodes.size lead ts).map Spot.node).toArray, .leave id⟩ := by
  cases ts with
  | nil => simp [Tree.sizeAll, among, Spot.row, Spot.spreadAll, adopt_nil]
  | cons t ts =>
      have hsteps : 2 * Tree.sizeAll (t :: ts) = 2 * Tree.sizeAll ts + 1 + (2 * Tree.sizeAll t.children + 1) := by
        rw [Tree.sizeAll, Tree.size_eq]
        omega
      have hopened : innermost? ((id, lead) :: opened) = some id := rfl
      have hsize := size_adopt (some id) [nodes.size] nodes
      have hfirst := getD_spread (adopt (some id) [nodes.size] nodes) (some id) nodes.size lead t
      rw [hsize] at hfirst
      rw [hsteps, Function.iterate_add_apply, among, iterate_enter t _ _ _ nodes lead hopened (by simpa using hid),
        Function.iterate_succ_apply, next_leave c t ts hfirst,
        iterate_among ts _ _ _ _ _ (Nat.lt_of_lt_of_le hid (by simp [hsize])),
        adopt_append (by simpa [hsize] using hid), adopt_adopt]
      simp [Spot.row, Spot.spreadAll, hsize, Spot.length_spread]

end

theorem iterate_start (t : Tree) :
    next^[2 * t.size] (start t) = ⟨.ofRoot t, [], addTree none 0 t #[], .halt⟩ := by
  have hsteps : 2 * t.size = 1 + (2 * Tree.sizeAll t.children + 1) := by
    rw [Tree.size_eq]
    omega
  have hopened : innermost? [] = none := rfl
  rw [hsteps, Function.iterate_add_apply, start, Cursor.ofRoot, iterate_enter t _ _ _ _ _ hopened (by simp),
    Spot.addTree_eq]
  simp [next, adopt]

end Walk

inductive KindTree where
  | node (kind : Kind) (field : Option String) (start stop : Nat) (children : List KindTree)

namespace KindTree

mutual

def ofTree : Tree → KindTree
  | .node kind field start stop children => .node (.ofName kind) field start stop (ofTrees children)

def ofTrees : List Tree → List KindTree
  | [] => []
  | t :: ts => ofTree t :: ofTrees ts

end

theorem ofTrees_eq_map (ts : List Tree) : ofTrees ts = ts.map ofTree := by
  induction ts with
  | nil => rfl
  | cons t ts ih => rw [ofTrees, ih, List.map_cons]

theorem ofTree_eq (t : Tree) :
    ofTree t = .node (.ofName t.kind) t.field t.start t.stop (t.children.map ofTree) := by
  obtain ⟨kind, field, start, stop, children⟩ := t
  rw [ofTree, ofTrees_eq_map]
  rfl

end KindTree

namespace Spot

mutual

theorem spread_trees (parent : Option NodeId) (id lead : Nat) (t : Tree) :
    (spread parent id lead t).map Spot.tree = t.preorder := by
  obtain ⟨kind, field, start, stop, children⟩ := t
  rw [spread, List.map_cons, spreadAll_trees, Tree.preorder]

theorem spreadAll_trees (parent : NodeId) (id lead : Nat) (ts : List Tree) :
    (spreadAll parent id lead ts).map Spot.tree = Tree.preorderAll ts := by
  cases ts with
  | nil => rfl
  | cons t ts => rw [spreadAll, List.map_append, spread_trees, spreadAll_trees, Tree.preorderAll]

end

theorem size_le_of_mem_all {s r : Spot} (h : s ∈ r.all) : s.tree.size ≤ r.tree.size := by
  induction r using children_induction with
  | step r ih =>
      rcases mem_all_iff.mp h with rfl | ⟨c, hc, hs⟩
      · exact Nat.le_refl _
      · exact Nat.le_trans (ih c hc hs) (Nat.le_of_lt (size_lt_of_mem_children hc))

theorem row_trees (parent : NodeId) (id lead : Nat) (ts : List Tree) : (row parent id lead ts).map Spot.tree = ts := by
  induction ts generalizing id lead with
  | nil => rfl
  | cons t ts ih => rw [row, List.map_cons, ih]

end Spot

namespace SyntaxTree

def readBack (t : SyntaxTree) : Nat → NodeId → KindTree
  | 0, i => .node (t.node i).kind (t.node i).field (t.node i).start (t.node i).stop []
  | depth + 1, i =>
    .node (t.node i).kind (t.node i).field (t.node i).start (t.node i).stop ((t.children i).map (t.readBack depth))

/-- The array holds the parts of a tree in preorder, with links that agree. -/
structure Encodes (t : SyntaxTree) (tree : Tree) : Prop where
  size : t.nodes.size = tree.preorder.length
  node : ∀ {i : Nat} {u : Tree}, tree.preorder[i]? = some u → (t.node i).kind = .ofName u.kind ∧
    (t.node i).field = u.field ∧ (t.node i).start = u.start ∧ (t.node i).stop = u.stop
  root_parent : (t.node root).parent = none
  exists_parent : ∀ {i : Nat}, i < t.nodes.size → i ≠ root → ∃ q < i, (t.node i).parent = some q
  mem_children_iff : ∀ {q i : Nat}, i ∈ t.children q ↔ (t.node i).parent = some q
  children_lt : ∀ q : Nat, (t.children q).Pairwise (· < ·)
  count_children : ∀ {q i : Nat}, (t.node i).parent = some q → (t.children q).count i = 1
  readBack_root : t.readBack t.nodes.size root = .ofTree tree
  descendants_eq : ∀ {i : Nat} {u : Tree}, tree.preorder[i]? = some u → t.descendants i = List.range' i u.size
  /-- The walk down needs a step for each node that it meets, and further ones change nothing. -/
  preorder_eq : ∀ {i fuel : Nat} {u : Tree}, tree.preorder[i]? = some u → u.size ≤ fuel →
    t.preorder fuel [i] = t.descendants i

variable {text : String} {p : Parse.ParseTree}

theorem exists_spot_of_preorder {i : Nat} {u : Tree} (h : p.root.preorder[i]? = some u) :
    ∃ s ∈ (rootSpot p).all, s.id = i ∧ s.tree = u := by
  have htrees : (rootSpot p).all.map Spot.tree = p.root.preorder := Spot.spread_trees ..
  rw [← htrees, List.getElem?_map, Option.map_eq_some_iff] at h
  obtain ⟨s, hs, rfl⟩ := h
  have hid := congrArg (·[i]?) (rootSpot p).all_ids
  simp only [List.getElem?_map, hs, Option.map_some] at hid
  obtain ⟨_, hi⟩ := List.getElem?_eq_some_iff.mp hid.symm
  refine ⟨s, List.mem_of_getElem? hs, ?_, rfl⟩
  simpa [rootSpot] using hi.symm

theorem readBack_eq {s : Spot} (hs : s ∈ (rootSpot p).all) {depth : Nat} (hd : s.tree.size ≤ depth) :
    (ofParse text p).readBack depth s.id = .ofTree s.tree := by
  induction s using Spot.children_induction generalizing depth with
  | step s ih =>
      have hsize := s.tree.size_eq
      obtain ⟨depth, rfl⟩ : ∃ d, depth = d + 1 := ⟨depth - 1, by omega⟩
      have hchildren : (s.children.map Spot.id).map ((ofParse text p).readBack depth) =
          s.tree.children.map KindTree.ofTree := by
        rw [← Spot.row_trees s.id (s.id + 1) s.lead s.tree.children, List.map_map, List.map_map]
        refine List.map_congr_left fun c hc => ih c hc (Spot.child_mem_all hs hc) ?_
        have hlt := Spot.size_lt_of_mem_children hc
        omega
      rw [readBack, ofParse_children hs, hchildren, ofParse_node hs, KindTree.ofTree_eq]
      rfl

theorem preorder_map_id {pile : List Spot} (hpile : ∀ s ∈ pile, s ∈ (rootSpot p).all) {fuel : Nat}
    (hfuel : (pile.flatMap Spot.all).length ≤ fuel) :
    (ofParse text p).preorder fuel (pile.map Spot.id) = (pile.flatMap Spot.all).map Spot.id := by
  induction fuel generalizing pile with
  | zero =>
      cases pile with
      | nil => rfl
      | cons s pile => simp [Spot.all_eq s] at hfuel
  | succ fuel ih =>
      cases pile with
      | nil => rfl
      | cons s pile =>
          have hs := hpile s List.mem_cons_self
          have hall : (s :: pile).flatMap Spot.all = s :: (s.children ++ pile).flatMap Spot.all := by
            rw [List.flatMap_cons, Spot.all_eq, List.cons_append, List.flatMap_append]
          rw [hall, List.length_cons, Nat.add_le_add_iff_right] at hfuel
          rw [hall, List.map_cons, List.map_cons, preorder, ofParse_children hs, ← List.map_append, ih ?_ hfuel]
          intro c hc
          rcases List.mem_append.mp hc with hc | hc
          · exact Spot.child_mem_all hs hc
          · exact hpile c (List.mem_cons_of_mem _ hc)

theorem preorder_singleton {s : Spot} (hs : s ∈ (rootSpot p).all) {fuel : Nat} (hfuel : s.tree.size ≤ fuel) :
    (ofParse text p).preorder fuel [s.id] = List.range' s.id s.tree.size := by
  have hall : [s].flatMap Spot.all = s.all := by simp
  have hlength : s.all.length = s.tree.size := Spot.length_spread ..
  have hpile : (ofParse text p).preorder fuel ([s].map Spot.id) = ([s].flatMap Spot.all).map Spot.id := by
    apply preorder_map_id
    · simpa using hs
    · rwa [hall, hlength]
  rw [hall, s.all_ids] at hpile
  exact hpile

theorem descendants_spot {s : Spot} (hs : s ∈ (rootSpot p).all) :
    (ofParse text p).descendants s.id = List.range' s.id s.tree.size := by
  refine preorder_singleton hs ?_
  rw [ofParse_size]
  exact Spot.size_le_of_mem_all hs

theorem ofParse_encodes (text : String) (p : Parse.ParseTree) : (ofParse text p).Encodes p.root where
  size := by
    rw [ofParse_size, ← Spot.spread_trees none 0 0, List.length_map, Spot.length_spread]
  node h := by
    obtain ⟨s, hs, rfl, rfl⟩ := exists_spot_of_preorder h
    rw [ofParse_node hs]
    exact ⟨rfl, rfl, rfl, rfl⟩
  root_parent := by
    rw [show root = (rootSpot p).id from rfl, ofParse_node (rootSpot p).mem_all_self]
    rfl
  exists_parent h hne := by
    obtain ⟨d, hd, rfl⟩ := exists_spot h
    rcases Spot.exists_parent hd with rfl | ⟨s, hs, hds⟩
    · exact absurd rfl hne
    · refine ⟨s.id, (Spot.mem_row hds).2.2, ?_⟩
      rw [ofParse_node hd]
      exact (Spot.mem_row hds).2.1
  mem_children_iff := ⟨ofParse_parent_of_mem, ofParse_mem_of_parent⟩
  children_lt := (ofParse_linked text p).children_lt
  count_children h :=
    List.count_eq_one_of_mem (((ofParse_linked text p).children_lt _).imp Nat.ne_of_lt) (ofParse_mem_of_parent h)
  readBack_root := readBack_eq (rootSpot p).mem_all_self (Nat.le_of_eq (ofParse_size text p).symm)
  descendants_eq h := by
    obtain ⟨s, hs, rfl, rfl⟩ := exists_spot_of_preorder h
    exact descendants_spot hs
  preorder_eq h hfuel := by
    obtain ⟨s, hs, rfl, rfl⟩ := exists_spot_of_preorder h
    rw [preorder_singleton hs hfuel, descendants_spot hs]

/-- The loop halts when it has entered and left each node once. The array that it has filled by then is that of the
syntax tree, and it encodes the tree that was walked. -/
theorem walk_encodes_tree (text : String) (p : Parse.ParseTree) :
    Walk.next^[2 * p.root.size] (Walk.start p.root) =
        ⟨.ofRoot p.root, [], (ofParse text p).nodes, .halt⟩ ∧
      (ofParse text p).Encodes p.root :=
  ⟨Walk.iterate_start p.root, ofParse_encodes text p⟩

end SyntaxTree

end Unwire.Syntax
