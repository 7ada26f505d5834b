import Unwire.Parse.Recovery

namespace Unwire.Parse.Run

open Unwire.Grammar

inductive Outcome where
  | settled
  | reduced (branch : Option Nat)

def perform (v state : Nat) (ahead : Piece) (token : Nat) : List Action → Option Nat → Run Outcome
  | [], last => return .reduced last
  | .shift true :: rest, last => perform v state ahead token rest last
  | .shift false :: _, _ => do
    push v (some ahead) (← moveTo (.state state) token)
    return .settled
  | .extra :: _, _ => do
    push v (some ahead.asExtra) (.state state)
    return .settled
  | .accept :: _, _ => do
    accept v ahead
    return .settled
  | .reduce p :: rest, last => do
    let made ← reduce v p
    perform v state ahead token rest (made <|> last)

/-- Leaves a branch until it is clear whether another one gets past the token. -/
def pause (v : Nat) (ahead : Piece) : Run Unit := modify fun m =>
  let p := (m.top v).progress
  m.modifyBranch v fun b => { b with status := .paused ahead, base := p }

def advanceWith (v : Nat) : Nat → Piece → Run Unit
  | 0, _ => modify (·.halt v)
  | fuel + 1, ahead => do
    match ← place v, ahead.label with
    | .state s, .symbol n =>
      let acts ← build (Automaton.actionsOn s n)
      match ← perform v s ahead n acts.toList none with
      | .settled => return
      | .reduced (some w) =>
        modify (·.renumber w v)
        advanceWith v fuel ahead
      | .reduced none =>
        let asName := ahead.info.keyword && n != Table.word &&
          !(← build (Automaton.actionsOn s Table.word)).isEmpty
        if asName then
          let i := ahead.info
          advanceWith v fuel (.leaf (.symbol Table.word) i.lead i.start i.stop)
        else pause v ahead
    | .state _, _ => pause v ahead
    | _, label =>
      if (← read).isExtra label then push v (some ahead.asExtra) .lost else recover v ahead

def advance (v : Nat) : Run Unit := do
  let ahead ← readToken v
  advanceWith v ((← get).nodes.size + 64) ahead

def rank (standing : Machine.Standing) : Nat → Nat → Nat → Run Nat
  | 0, i, _ => return i + 1
  | fuel + 1, i, j => do
    if i ≤ j then return i + 1
    let t := (← read).table
    modify (·.settleBase j)
    let m ← get
    match (m.standing j).compare standing with
    | .takeLeft =>
      modify (·.erase i)
      return i
    | .preferLeft | .neither =>
      match m.merge? t j i with
      | some m => set m; return i
      | none => rank standing fuel i (j + 1)
    | .preferRight =>
      match m.merge? t j i with
      | some m => set m; return i
      | none =>
        modify fun m => { m with branches := m.branches.swapIfInBounds i j }
        rank standing fuel i (j + 1)
    | .takeRight =>
      modify (·.erase j)
      rank standing fuel (i - 1) j

/-- Puts the branches in order and returns the least cost of one that is not lost. -/
def sortBranches : Nat → Nat → Option Nat → Run (Option Nat)
  | 0, _, least => return least
  | fuel + 1, i, least => do
    let m ← get
    if m.branches.size ≤ i then return least
    if (m.branch i).status.isHalted then
      modify (·.erase i)
      sortBranches fuel i least
    else
      modify (·.settleBase i)
      let s := (← get).standing i
      let least := if s.lost then least else some (match least with | none => s.cost | some c => min c s.cost)
      let next ← rank s (m.branches.size + 1) i 0
      sortBranches fuel next least

def resume : Nat → Nat → Bool → Option Nat → Run (Option Nat)
  | 0, _, _, least => return least
  | fuel + 1, i, going, least => do
    let m ← get
    match (m.branch i).status with
    | .paused ahead =>
      if !going && m.completions < maxBranches then
        let least := m.cost i
        modify (·.modifyBranch i fun b => { b with status := .active })
        handleFault i ahead
        resume fuel (i + 1) true (some least)
      else
        modify (·.erase i)
        resume fuel i going least
    | _ => resume fuel (i + 1) true least

def condense : Run (Option Nat) := do
  let least ← sortBranches (2 * (← get).branches.size + 2) 0 none
  modify fun m => { m with branches := m.branches.take maxBranches }
  resume (← get).branches.size 0 false least

/-- Advances branch `v` until it is past `last`, or level with it if another branch went there first. -/
def advancePast (v : Nat) : Nat → Nat → Run Nat
  | 0, last => return last
  | fuel + 1, last => do
    if !((← get).branch v).status.isActive || (← get).branches.size ≤ v then return last
    advance v
    let pos := ((← get).top v).pos
    if last < pos || (0 < v && pos == last) then return pos
    advancePast v fuel last

def turn : Nat → Nat → Nat → Run Nat
  | 0, _, last => return last
  | fuel + 1, v, last => do
    if (← get).branches.size ≤ v then return last
    let last ← advancePast v fuel last
    turn fuel (v + 1) last

def loop : Nat → Nat → Run Unit
  | 0, _ => return
  | fuel + 1, last => do
    let size := (← read).source.size
    let last ← turn (size + 64) 0 last
    let least ← condense
    let m ← get
    let won := match m.complete, least with
      | some p, some c => p.cost < c
      | some _, none => true
      | none, _ => false
    if won || m.branches.isEmpty then return
    loop fuel last

end Run

open Unwire.Grammar Unwire.Scan in
/-- Reads a text with an automaton. Faults are part of the result, so there always is one. -/
def readPiece (a : Automaton) (tokens : Tokens) (s : Source) : Piece :=
  let e : Setting := ⟨a.outlook.table, a.outlook.extras, tokens, s⟩
  let fuel := 16 * (s.size + 16)
  let m := ((Run.loop fuel 0).run e |>.run .initial |>.run a).1.2
  m.complete.getD (.leaf .fault 0 0 s.size)

end Unwire.Parse
