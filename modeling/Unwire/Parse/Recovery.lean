import Unwire.Parse.Ending

namespace Unwire.Parse.Run

open Unwire.Grammar

structure Prospects where
  shift : Bool := false
  reductions : Array Nat := #[]
  seen : List (Nat × Nat) := []

def Prospects.add (t : Table) (p : Prospects) : Action → Prospects
  | .shift again => { p with shift := p.shift || !again }
  | .reduce n =>
    let q := t.productions.getD n default
    let key := (q.head, q.steps.size)
    if q.steps.isEmpty || p.seen.contains key then p
    else { p with reductions := p.reductions.push n, seen := key :: p.seen }
  | _ => p

def prospects (state : Nat) (token : Option Nat) : Run Prospects := do
  let t := (← read).table
  let expected ← build (Automaton.expected state)
  let tokens := match token with
    | some n => [n]
    | none => (List.range t.tokens.size).tail
  let mut p : Prospects := {}
  for n in tokens do
    if expected.testBit n then
      for a in ← build (Automaton.actionsOn state n) do
        p := p.add t a
  return p

/-- Makes every reduction that some token would allow on the branches from `v` on, and tells whether
`token` can then be read on one of them. -/
def reduceAll (start : Nat) (token : Option Nat) (initial : Nat) : Nat → Nat → Nat → Bool → Run Bool
  | 0, _, _, can => return can
  | fuel + 1, v, turn, can => do
    let t := (← read).table
    let count := (← get).branches.size
    if count ≤ v then return can
    match (← get).mergeInto? t v ((List.range v).drop initial) with
    | some m =>
      set m
      reduceAll start token initial fuel v (turn + 1) can
    | none =>
      match ← place v with
      | .state n =>
        let p ← prospects n token
        let mut made : Option Nat := none
        for r in p.reductions do
          made ← reduce v r
        let next := if v == start then count else v + 1
        if p.shift then reduceAll start token initial fuel next (turn + 1) true
        else
          match made with
          | some w =>
            if turn < maxBranches then
              modify (·.renumber w v)
              reduceAll start token initial fuel v (turn + 1) can
            else
              if token.isSome then modify (·.erase v)
              reduceAll start token initial fuel next (turn + 1) can
          | none =>
            if token.isSome then modify (·.erase v)
            reduceAll start token initial fuel next (turn + 1) can
      | _ => reduceAll start token initial fuel (if v == start then count else v + 1) (turn + 1) can

def potentialReductions (v : Nat) (token : Option Nat) : Run Bool := do
  let m ← get
  reduceAll v token m.branches.size (m.nodes.size + 64) v 0 false

/-- Tries to put in one token after which `ahead` fits. At the end of the text any token may come next, and `others`
are the states in which the token is tried as well. -/
def insertMissing (v : Nat) (ahead : Piece) (others : List Nat) : List Nat → Run Bool
  | [] => return false
  | n :: rest => do
    match ← place v, ahead.label with
    | .state s, .symbol look =>
      let acts ← build (Automaton.actionsOn s n)
      let readable := match acts.back? with
        | some (.shift _) => true
        | _ => false
      if !readable then insertMissing v ahead others rest else
        match ← build (Automaton.move s n) with
        | none => insertMissing v ahead others rest
        | some next =>
          let ends ←
            if reducesFirst (← build (Automaton.actionsOn next look)) then pure true
            else if look == 0 then endsText next n others
            else pure false
          if next == s || !ends then insertMissing v ahead others rest else
            let m ← get
            let w := m.branches.size
            let pos := (m.top v).pos
            modify fun m => { m with branches := m.branches.push { m.branch v with waypoints := #[] } }
            push w (some (.leaf (.symbol n) pos pos pos true)) (.state next)
            if ← potentialReductions w (if look == 0 then none else some look) then return true
            insertMissing v ahead others rest
    | _, _ => return false

/-- Goes back `depth` pieces, to a place where reading can go on; what was taken back is a fault. -/
def backTo (v : Nat) (depth : Nat) (goal : Place) : Run Bool := do
  let e ← read
  let m ← get
  let base := (m.branch v).base
  let mut did := false
  for slice in Stack.pop m.nodes (m.branch v).node depth do
    if (Stack.node m.nodes slice.node).place == goal then
      let pieces := slice.ways[0]?.getD []
      let (node, pieces) := match Stack.popFault? (← get).nodes slice.node with
        | some (below, p) => (below, p.parts ++ pieces)
        | none => (slice.node, pieces)
      let w := (← get).branches.size
      modify fun m => { m with branches := m.branches.push ⟨node, base, .active, #[]⟩ }
      let (parts, extras) := Piece.splitExtras pieces
      if !parts.isEmpty then
        push w (some (Piece.node e.table e.source .fault none 0 parts).asExtra) goal
      for x in extras do push w (some x) goal
      did := true
  return did

def goBack (v : Nat) (ahead : Piece) (count cost : Nat) : List Waypoint → Run Bool
  | [] => return false
  | p :: rest => do
    let e ← read
    let m ← get
    let pos := (m.top v).pos
    match p.place with
    | .state n =>
      if p.pos == pos then goBack v ahead count cost rest
      else if (List.range count).any fun j => (m.top j).place == p.place && (m.top j).pos == pos then
        goBack v ahead count cost rest
      else
        let s := e.source
        let total := cost + Cost.tree * p.depth + Cost.byte * (s.byteAt pos - s.byteAt p.pos) +
          Cost.row * (s.rowAt pos - s.rowAt p.pos)
        if m.outdone v total then return false
        if (← actions n ahead.label).isEmpty then goBack v ahead count cost rest
        else if ← backTo v (p.depth + if m.since v > 0 then 1 else 0) p.place then return true
        else goBack v ahead count cost rest
    | _ => goBack v ahead count cost rest

def skipToken (v : Nat) (ahead : Piece) : Run Unit := do
  let e ← read
  let m ← get
  let ahead := if e.isExtra ahead.label then ahead.asExtra else ahead
  let one := Piece.node e.table e.source .skipped none 0 [ahead]
  if m.since v > 0 then
    match (Stack.pop m.nodes (m.branch v).node 1)[0]? with
    | none => push v (some one) .lost
    | some slice =>
      modify (·.modifyBranch v fun b => { b with node := slice.node })
      let before := slice.ways[0]?.getD []
      push v (some (Piece.node e.table e.source .skipped none 0 (before ++ [one]))) .lost
  else push v (some one) .lost

def recover (v : Nat) (ahead : Piece) : Run Unit := do
  let e ← read
  modify (·.settleBase v)
  let m ← get
  let count := m.branches.size
  let cost := m.cost v
  let did ← if ahead.isFault then pure false
    else goBack v ahead count cost (m.branch v).waypoints.toList
  if did && (← get).branches.size > maxBranches then modify (·.halt v)
  else if ahead.label == .symbol 0 then
    let pos := (m.top v).pos
    push v (some (Piece.node e.table e.source .fault none pos [])) .finished
    accept v ahead
  else
    let s := e.source
    let i := ahead.info
    let total := cost + Cost.tree + Cost.byte * (s.byteAt i.stop - s.byteAt i.lead) +
      Cost.row * (s.rowAt i.stop - s.rowAt i.lead)
    if (← get).outdone v total then modify (·.halt v) else skipToken v ahead

def handleFault (v : Nat) (ahead : Piece) : Run Unit := do
  let t := (← read).table
  let before := (← get).branches.size
  discard <| potentialReductions v none
  let count := (← get).branches.size
  let mut inserted := false
  for w in v :: (List.range count).drop before do
    if !inserted then
      let m ← get
      let others ← if ahead.label == .symbol 0 then replanted m.nodes (m.nodes.size + 1) (m.branch w).node [] else pure []
      inserted ← insertMissing w ahead others (List.range t.tokens.size).tail
    push w none .lost
  for _ in (List.range count).drop before do
    modify fun m => (m.merge? t v before).getD m
  modify fun m =>
    let found := Stack.waypoints m.nodes (m.branch v).node
    m.modifyBranch v fun b => { b with waypoints := found }
  recover v ahead

end Unwire.Parse.Run
