import Unwire.Parse.Piece

namespace Unwire.Parse

open Unwire.Grammar (Table)

inductive Place where
  | state (number : Nat)
  /-- Nothing fits; tokens are passed over until something does. -/
  | lost
  | finished
  deriving DecidableEq, Inhabited

structure Link where
  node : Nat
  piece : Option Piece
  deriving Inhabited

structure Node where
  place : Place
  links : Array Link
  pos : Nat
  cost : Nat
  progress : Nat
  weight : Int
  deriving Inhabited

structure Waypoint where
  pos : Nat
  depth : Nat
  place : Place

inductive Status where
  | active
  | paused (ahead : Piece)
  | halted
  deriving Inhabited

def Status.isActive : Status → Bool
  | active => true
  | _ => false

def Status.isPaused : Status → Bool
  | paused _ => true
  | _ => false

def Status.isHalted : Status → Bool
  | halted => true
  | _ => false

structure Branch where
  node : Nat
  base : Nat
  status : Status
  waypoints : Array Waypoint
  deriving Inhabited

namespace Stack

def maxLinks : Nat := 8

def maxWalks : Nat := 64

abbrev Nodes := Array Node

def node (nodes : Nodes) (i : Nat) : Node := nodes.getD i default

def above (t : Table) (nodes : Nodes) (below : Nat) (piece : Option Piece) (place : Place) : Node :=
  let b := node nodes below
  match piece with
  | none => { b with place, links := #[⟨below, none⟩] }
  | some p =>
    { place, links := #[⟨below, some p⟩], pos := p.info.stop, cost := b.cost + p.cost,
      progress := b.progress + p.progress t, weight := b.weight + p.info.weight }

def similar : Option Piece → Option Piece → Bool
  | none, none => true
  | some p, some q => p.similar q
  | _, _ => false

def weightOf : Option Piece → Int
  | none => 0
  | some p => p.info.weight

inductive Joining where
  | replace (index : Nat)
  | ignore
  /-- Both lead to nodes that can be made one. -/
  | unite (node : Nat)
  | append

def joining (nodes : Nodes) (links : List (Link × Nat)) (l : Link) : Joining :=
  match links with
  | [] => .append
  | (e, i) :: rest =>
    if similar e.piece l.piece then
      if e.node == l.node then
        if weightOf e.piece < weightOf l.piece then .replace i else .ignore
      else
        let a := node nodes e.node
        let b := node nodes l.node
        if a.place == b.place && a.pos == b.pos && a.cost == b.cost then .unite e.node
        else joining nodes rest l
    else joining nodes rest l

def addLink (t : Table) : Nat → Nat → Link → Nodes → Nodes
  | 0, _, _, nodes => nodes
  | fuel + 1, i, l, nodes =>
    if l.node == i then nodes else
      let n := node nodes i
      let weight := (node nodes l.node).weight + weightOf l.piece
      match joining nodes n.links.toList.zipIdx l with
      | .ignore => nodes
      | .replace j => nodes.modify i fun n => { n with links := n.links.setIfInBounds j l, weight }
      | .unite e =>
        let nodes := (node nodes l.node).links.foldl (fun nodes m => addLink t fuel e m nodes) nodes
        nodes.modify i fun n => { n with weight := max n.weight weight }
      | .append =>
        if maxLinks ≤ n.links.size then nodes else
          let progress := (node nodes l.node).progress +
            (match l.piece with | none => 0 | some p => p.progress t)
          nodes.modify i fun n =>
            { n with links := n.links.push l, progress := max n.progress progress, weight := max n.weight weight }

/-- A way down from the top: the node reached, the pieces passed, from left to right, and their number
without extra ones. -/
structure Walk where
  node : Nat
  pieces : List Piece
  depth : Nat

def Walk.follow (w : Walk) (l : Link) : Walk :=
  match l.piece with
  | none => ⟨l.node, w.pieces, w.depth + 1⟩
  | some p => ⟨l.node, p :: w.pieces, if p.info.extra then w.depth else w.depth + 1⟩

structure Round (σ : Type) where
  result : σ
  main : Array Walk
  side : Array Walk
  size : Nat

/-- One step down on every way. `visit` looks at the node reached and tells whether to stop there. -/
def round {σ : Type} (nodes : Nodes) (visit : σ → Node → Walk → σ × Bool) (walks : Array Walk) (result : σ) :
    Round σ :=
  walks.foldl (fun r w =>
    let n := node nodes w.node
    let (result, stop) := visit r.result n w
    match n.links[0]? with
    | none => { r with result, size := r.size - 1 }
    | some first =>
      if stop then { r with result, size := r.size - 1 } else
        let (side, size) := n.links.foldl (fun (acc : Array Walk × Nat) l =>
          if maxWalks ≤ acc.2 then acc else (acc.1.push (w.follow l), acc.2 + 1)) (r.side, r.size) 1
        ⟨result, r.main.push (w.follow first), side, size⟩)
    ⟨result, #[], #[], walks.size⟩

def descend {σ : Type} (nodes : Nodes) (visit : σ → Node → Walk → σ × Bool) : Nat → Array Walk → σ → σ
  | 0, _, result => result
  | fuel + 1, walks, result =>
    if walks.isEmpty then result else
      let r := round nodes visit walks result
      descend nodes visit fuel (r.main ++ r.side) r.result

structure Slice where
  node : Nat
  ways : Array (List Piece)

def addWay (slices : Array Slice) (node : Nat) (pieces : List Piece) : Array Slice :=
  match slices.findIdx? fun s => s.node == node with
  | some i => slices.modify i fun s => { s with ways := s.ways.push pieces }
  | none => slices.push ⟨node, #[pieces]⟩

def pop (nodes : Nodes) (top depth : Nat) : Array Slice :=
  descend nodes (fun slices _ w =>
    if w.depth == depth then (addWay slices w.node w.pieces, true) else (slices, false))
    (nodes.size + 1) #[⟨top, [], 0⟩] #[]

def popAll (nodes : Nodes) (top : Nat) : Array Slice :=
  descend nodes (fun slices n w =>
    if n.links.isEmpty then (addWay slices w.node w.pieces, true) else (slices, false))
    (nodes.size + 1) #[⟨top, [], 0⟩] #[]

def popFault? (nodes : Nodes) (top : Nat) : Option (Nat × Piece) :=
  descend nodes (fun (found : Option (Nat × Piece)) _ w =>
    match w.pieces with
    | [] => (found, false)
    | p :: _ => (if found.isNone && p.isFault then some (w.node, p) else found, true))
    (nodes.size + 1) #[⟨top, [], 0⟩] none

def maxDepth : Nat := 16

def waypoints (nodes : Nodes) (top : Nat) : Array Waypoint :=
  descend nodes (fun (found : Array Waypoint) n w =>
    if maxDepth < w.depth then (found, true)
    else
      let known := (found.toList.reverse.takeWhile fun p => w.depth ≤ p.depth).any fun p =>
        p.depth == w.depth && p.place == n.place
      (if known then found else found.push ⟨n.pos, w.depth, n.place⟩, false))
    (nodes.size + 1) #[⟨top, [], 0⟩] #[]

end Stack

end Unwire.Parse
