import Unwire.Parse.Machine

namespace Unwire.Parse.Run

open Unwire.Grammar

def beginsText (state : Nat) : Run Bool := do
  let t := (← read).table
  let whole := ((t.productions.getD t.goal default).steps.getD 0 (.plain 0)).symbol - t.tokens.size
  let first ← build (Automaton.stateAt Automaton.start)
  let s ← build (Automaton.stateAt state)
  return (List.range first.fresh.size).all fun h => first.fresh.getD h 0 == 0 || h == whole || s.fresh.getD h 0 != 0

def readSymbols (state : Nat) : List Nat → Run (Option Nat)
  | [] => return some state
  | n :: rest => do
    match ← build (Automaton.move state n) with
    | none => return none
    | some s => readSymbols s rest

/-- The states in which reading would be if the text began at a node below where it could begin. `after` has been read
since node `i`. -/
def replanted (nodes : Stack.Nodes) : Nat → Nat → List Nat → Run (List Nat)
  | 0, _, _ => return []
  | fuel + 1, i, after => do
    let n := Stack.node nodes i
    let here ← match n.place with
      | .state s => do
        if ← beginsText s then return (← readSymbols Automaton.start after).toList else return []
      | _ => pure []
    match n.links.toList with
    | [] => return here
    | l :: _ =>
      match l.piece with
      | none => return here
      | some p =>
        let after := match p.label with
          | .symbol k => if p.info.extra then after else k :: after
          | _ => after
        return here ++ (← replanted nodes fuel l.node after)

def contextualTokens : Run TokenSet := do
  return (← read).tokens.contextual.foldl (fun m p => m ||| TokenSet.single p.2) 0

def reducesFirst (actions : Array Action) : Bool :=
  match actions.toList with
  | .reduce _ :: _ => true
  | _ => false

/-- Whether the text could end in `state`, which a token leads to; the same token is tried in other states. A construct
that could end the text if the text began inside of what is still open could end it here, as far as the contextual
tokens agree. -/
def endsText (state token : Nat) (others : List Nat) : Run Bool := do
  let mask ← contextualTokens
  let here ← build (Automaton.expected state)
  others.anyM fun q => do
    match ← build (Automaton.move q token) with
    | none => return false
    | some s =>
      let there ← build (Automaton.expected s)
      return here &&& mask == there &&& mask && reducesFirst (← build (Automaton.actionsOn s 0))

end Unwire.Parse.Run
