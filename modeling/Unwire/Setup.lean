import Unwire.Syntax.Basic

namespace Unwire.Syntax

structure SetupFunction where
  node : NodeId
  name : String
  deriving DecidableEq, Repr

namespace SyntaxTree

variable (t : SyntaxTree)

def declarations : List NodeId :=
  (t.significantChildren root).map fun i =>
    if (t.node i).kind == .exportStatement then (t.childByField? i "declaration").getD i else i

def setupFunction? (start : String) (i : NodeId) : Option SetupFunction :=
  if (t.node i).kind == .functionDeclaration then do
    let name := t.textOf (← t.childByField? i "name")
    if start.toList.isPrefixOf name.toList then some ⟨i, name⟩ else none
  else none

def findSetup? (start : String) : Option SetupFunction :=
  t.declarations.findSome? (t.setupFunction? start)

/-- The first `new` expression at or below a node that mentions the class. -/
def findInstantiation? (setup : NodeId) (className : String) : Option NodeId :=
  (t.descendants setup).find? fun i =>
    (t.node i).kind == .newExpression && Text.occursIn className.toList (t.textOf i).toList

/-- All names in the first argument list of a `new` expression, in order. -/
def wiredNames (instantiation : NodeId) : List String :=
  match (t.descendants instantiation).find? fun i => (t.node i).kind == .argumentList with
  | none => []
  | some arguments =>
    ((t.descendants arguments).filter fun i => (t.node i).kind == .identifier).map t.textOf

end SyntaxTree

end Unwire.Syntax
