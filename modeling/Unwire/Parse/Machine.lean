import Unwire.Grammar.Automaton
import Unwire.Parse.Stack
import Unwire.Scan.Token

namespace Unwire.Parse

open Unwire.Grammar
open Unwire.Scan (Source Tokens Reading)

structure Setting where
  table : Table
  extras : TokenSet
  tokens : Tokens
  source : Source

def Setting.isExtra (e : Setting) : Label → Bool
  | .symbol n => e.extras.testBit n
  | _ => false

structure Machine where
  nodes : Stack.Nodes
  branches : Array Branch
  complete : Option Piece
  completions : Nat

abbrev Run := ReaderT Setting (StateT Machine Automaton.Building)

def maxBranches : Nat := 6
def spareBranches : Nat := 4

namespace Machine

def initial : Machine :=
  { nodes := #[⟨.state Automaton.start, #[], 0, 0, 0, 0⟩]
    branches := #[⟨0, 0, .active, #[]⟩]
    complete := none
    completions := 0 }

def branch (m : Machine) (v : Nat) : Branch := m.branches.getD v default

def top (m : Machine) (v : Nat) : Node := Stack.node m.nodes (m.branch v).node

def modifyBranch (m : Machine) (v : Nat) (f : Branch → Branch) : Machine :=
  { m with branches := m.branches.modify v f }

def erase (m : Machine) (v : Nat) : Machine :=
  { m with branches := m.branches.eraseIdxIfInBounds v }

def halt (m : Machine) (v : Nat) : Machine :=
  m.modifyBranch v fun b => { b with status := .halted }

def renumber (m : Machine) (a b : Nat) : Machine :=
  if a == b then m else
    let old := m.branch b
    let moved := m.branch a
    let moved := if moved.waypoints.isEmpty then { moved with waypoints := old.waypoints } else moved
    { m with branches := (m.branches.setIfInBounds b moved).eraseIdxIfInBounds a }

def push (t : Table) (m : Machine) (v : Nat) (piece : Option Piece) (place : Place) : Machine :=
  let n := Stack.above t m.nodes (m.branch v).node piece place
  let i := m.nodes.size
  { m with
    nodes := m.nodes.push n
    branches := m.branches.modify v fun b =>
      { b with node := i, base := if piece.isNone then n.progress else b.base } }

def mergeable (m : Machine) (i j : Nat) : Bool :=
  let a := m.top i
  let b := m.top j
  (m.branch i).status.isActive && (m.branch j).status.isActive &&
    a.place == b.place && a.pos == b.pos && a.cost == b.cost

/-- Makes branch `j` a part of the earlier branch `i` where both stand at the same place. -/
def merge? (t : Table) (m : Machine) (i j : Nat) : Option Machine :=
  if !m.mergeable i j then none else
    let target := (m.branch i).node
    let nodes := (m.top j).links.foldl (fun nodes l => Stack.addLink t (m.nodes.size + 1) target l nodes) m.nodes
    let n := Stack.node nodes target
    let m := { m with nodes }
    let m := if n.place == .lost then m.modifyBranch i fun b => { b with base := n.progress } else m
    some (m.erase j)

def mergeInto? (t : Table) (m : Machine) (j : Nat) (candidates : List Nat) : Option Machine :=
  candidates.findSome? fun i => m.merge? t i j

def since (m : Machine) (v : Nat) : Nat := (m.top v).progress - (m.branch v).base

/-- Progress cannot fall behind the point from which it is counted. -/
def settleBase (m : Machine) (v : Nat) : Machine :=
  let p := (m.top v).progress
  m.modifyBranch v fun b => if p < b.base then { b with base := p } else b

def cost (m : Machine) (v : Nat) : Nat :=
  let n := m.top v
  let gap := n.place == .lost && (match n.links[0]? with | some l => l.piece.isNone | none => true)
  n.cost + (if (m.branch v).status.isPaused || gap then Cost.recovery else 0)

structure Standing where
  cost : Nat
  since : Nat
  weight : Int
  lost : Bool

def standing (m : Machine) (v : Nat) : Standing :=
  let paused := (m.branch v).status.isPaused
  { cost := m.cost v + (if paused then Cost.tree else 0)
    since := m.since v
    weight := (m.top v).weight
    lost := paused || (m.top v).place == .lost }

inductive Verdict where
  | takeLeft
  | preferLeft
  | neither
  | preferRight
  | takeRight

def Standing.compare (a b : Standing) : Verdict :=
  if !a.lost && b.lost then if a.cost < b.cost then .takeLeft else .preferLeft
  else if a.lost && !b.lost then if b.cost < a.cost then .takeRight else .preferRight
  else if a.cost < b.cost then
    if (b.cost - a.cost) * (1 + a.since) > Cost.tolerance then .takeLeft else .preferLeft
  else if b.cost < a.cost then
    if (a.cost - b.cost) * (1 + b.since) > Cost.tolerance then .takeRight else .preferRight
  else if b.weight < a.weight then .preferLeft
  else if a.weight < b.weight then .preferRight
  else .neither

/-- Whether some other reading that is at least as far makes one of this cost pointless. -/
def outdone (m : Machine) (v : Nat) (cost : Nat) : Bool :=
  (match m.complete with | some p => p.cost ≤ cost | none => false) ||
    (let here : Standing := ⟨cost, m.since v, (m.top v).weight, false⟩
     (List.range m.branches.size).any fun i =>
      if i == v || !(m.branch i).status.isActive || (m.top i).pos < (m.top v).pos then false else
        match here.compare (m.standing i) with
        | .takeRight => true
        | .preferRight => m.mergeable i v
        | _ => false)

def advancedFrom (m : Machine) (base : Nat) : Nat → Nat → Bool
  | 0, _ => false
  | fuel + 1, i =>
    let n := Stack.node m.nodes i
    match n.links[0]? with
    | none => false
    | some l =>
      match l.piece with
      | none => false
      | some p =>
        p.info.lead < p.info.stop ||
          (base < n.progress && p.cost == 0 && advancedFrom m base fuel l.node)

def advanced (m : Machine) (v : Nat) : Bool :=
  (m.top v).cost == 0 || m.advancedFrom (m.branch v).base (m.nodes.size + 1) (m.branch v).node

end Machine

def Machine.keepBest (m : Machine) (root : Piece) : Machine :=
  let better := match m.complete with
    | none => true
    | some p => p.yieldsTo root
  { m with complete := if better then some root else m.complete, completions := m.completions + 1 }

namespace Run

def build {α : Type} (x : Automaton.Building α) : Run α := liftM x

def place (v : Nat) : Run Place := return ((← get).top v).place

def push (v : Nat) (piece : Option Piece) (place : Place) : Run Unit := do
  let t := (← read).table
  modify fun m => m.push t v piece place

def actions (state : Nat) (label : Label) : Run (Array Action) :=
  match label with
  | .symbol n => build (Automaton.actionsOn state n)
  | _ => return #[]

def moveTo (place : Place) (symbol : Nat) : Run Place :=
  match place with
  | .state s => do
    match ← build (Automaton.move s symbol) with
    | some s' => return .state s'
    | none => return .lost
  | _ => return .lost

/-- Looks for a token; once nothing fits, for any token further on, and what is passed over is a fault. -/
def find (k : Tokens) (s : Source) (expected : TokenSet) (emptyAllowed : Bool) (pos : Nat) :
    Nat → Nat → Bool → Option Nat → Piece
  | 0, cur, _, skipped => .leaf .fault pos (skipped.getD cur) cur
  | fuel + 1, cur, lost, skipped =>
    let wanted := if lost then k.anywhere else expected
    let found := match k.contextual? s wanted cur with
      | some r => if r.stop ≤ cur && (lost || !emptyAllowed) then none else some r
      | none => none
    let found := found <|> k.plain? s wanted expected cur
    match found, skipped with
    | some r, none => .leaf (.symbol r.token) pos r.start r.stop false r.keyword
    | some _, some start => .leaf .fault pos start cur
    | none, _ =>
      if !lost then find k s expected emptyAllowed pos fuel cur true skipped else
        let j := s.skip Scan.isGap cur
        let start := skipped.getD j
        if s.size ≤ j then .leaf .fault pos start j
        else find k s expected emptyAllowed pos fuel (j + 1) true (some start)

def readToken (v : Nat) : Run Piece := do
  let e ← read
  let m ← get
  let pos := (m.top v).pos
  match (m.top v).place with
  | .state n =>
    let expected ← build (Automaton.expected n)
    return find e.tokens e.source expected (m.advanced v) pos (e.source.size + 3) pos false none
  | _ => return find e.tokens e.source e.tokens.anywhere false pos (e.source.size + 3) pos true none

/-- The best of several ways to fill a production, and the extra pieces behind it. -/
def choose (t : Table) (s : Source) (label : Label) (production : Option Nat) (pos : Nat) :
    List (List Piece) → Option (Piece × List Piece)
  | [] => none
  | w :: ws =>
    let make (w : List Piece) : Piece × List Piece :=
      let (parts, extras) := Piece.splitExtras w
      (.node t s label production pos parts, extras)
    some (ws.foldl (fun best w =>
      let next := make w
      if best.1.yieldsTo next.1 then next else best) (make w))

/-- Completes a production on top of a branch. Each place from which it can have begun gives a branch of
its own, unless it meets one that exists; the first new one is returned. -/
def reduce (v : Nat) (production : Nat) : Run (Option Nat) := do
  let e ← read
  let p := e.table.productions.getD production default
  let m ← get
  let initial := m.branches.size
  let halted := (m.branches.filter (·.status.isHalted)).size
  let base := (m.branch v).base
  let pos := (m.top v).pos
  let slices := Stack.pop m.nodes (m.branch v).node p.steps.size
  for slice in slices do
    let j := (← get).branches.size
    if j > maxBranches + spareBranches + halted then continue
    match choose e.table e.source (.symbol p.head) (some production) pos slice.ways.toList with
    | none => continue
    | some (parent, extras) =>
      modify fun m => { m with branches := m.branches.push ⟨slice.node, base, .active, #[]⟩ }
      let next ← moveTo ((← get).top j).place p.head
      push j (some (parent.addWeight p.bonus)) next
      for x in extras do push j (some x) next
      modify fun m =>
        (m.mergeInto? e.table j ((List.range j).filter (· != v))).getD m
  return if (← get).branches.size > initial then some initial else none

def accept (v : Nat) (stop : Piece) : Run Unit := do
  let e ← read
  push v (some stop) .finished
  let m ← get
  for slice in Stack.popAll m.nodes (m.branch v).node do
    for pieces in slice.ways do
      let (after, before) := pieces.reverse.span (·.info.extra)
      match before with
      | [] => continue
      | root :: before =>
        let parts := before.reverse ++ root.parts ++ after.reverse
        let piece := Piece.node e.table e.source root.label root.info.production 0 parts
        modify (·.keepBest piece)
  modify (·.halt v)

end Run

end Unwire.Parse
