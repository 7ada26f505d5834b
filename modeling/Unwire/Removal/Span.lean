import Unwire.Config
import Unwire.Syntax.Basic

namespace Unwire

open Syntax

structure Span where
  start : Nat
  stop : Nat
  deriving DecidableEq, Repr, Inhabited

namespace Removal

variable (t : SyntaxTree)

def isComma (i : NodeId) : Bool := (t.node i).kind == .comma

def fullSpan (i : NodeId) : Span := ⟨(t.node i).fullStart, (t.node i).stop⟩

/-- Whether nothing kept is among the siblings that follow an element, and no comma ends them. -/
def closes (removed : NodeId → Bool) : List NodeId → Bool
  | c :: e :: rest =>
    if isComma t c then !(t.node e).kind.isClosingBracket && removed e && closes removed rest else true
  | [c] => !isComma t c
  | [] => true

def isListElement (i : NodeId) : Bool :=
  match (t.node i).parent with
  | none => false
  | some p => (t.node p).kind.isList

/-- An element of a list that nothing kept follows takes the comma before it, unless the list ends in a comma. Any other
node takes the comma after it. -/
def listAwareSpan (removed : NodeId → Bool) (i : NodeId) : Span :=
  let span := fullSpan t i
  if isListElement t i && closes t removed (t.following i) then
    match (t.previous? i).filter (isComma t) with
    | some comma => { span with start := (t.node comma).start }
    | none => span
  else
    match (t.next? i).filter (isComma t) with
    | some comma => { span with stop := (t.node comma).stop }
    | none => span

def nextCharSpan (i : NodeId) : Span :=
  let span := fullSpan t i
  if (Text.dropBytes? span.stop t.text).bind List.head? == some ',' then { span with stop := span.stop + 1 } else span

def spanOf (policy : SeparatorPolicy) (removed : NodeId → Bool) (i : NodeId) : Span :=
  match policy with
  | .listAware => listAwareSpan t removed i
  | .nextChar => nextCharSpan t i

end Removal

end Unwire
