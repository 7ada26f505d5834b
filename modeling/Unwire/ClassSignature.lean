import Unwire.Dependency
import Unwire.Syntax.Basic
import Unwire.Text.Blank

namespace Unwire

open Syntax

structure ClassSignature where
  name : String
  dependencies : List Dependency
  deriving DecidableEq, Repr

structure ClassNotFound where
  path : String
  className : Option String
  deriving DecidableEq, Repr

def ClassNotFound.message (e : ClassNotFound) : String :=
  match e.className with
  | some name => s!"{e.path}: class `{name}` not found"
  | none => s!"{e.path}: no class declaration found"

namespace ClassSignature

variable (t : SyntaxTree)

def annotatedType (written : String) : String :=
  .ofList (Text.trim (written.toList.dropWhile (· == ':')))

/-- The dependency of a parameter; a pattern is none. -/
def dependency? (parameter : NodeId) : Option Dependency := do
  let pattern ← t.childByField? parameter "pattern"
  if (t.node pattern).kind == .identifier then
    some ⟨t.textOf pattern, (t.childByField? parameter "type").map fun a => annotatedType (t.textOf a)⟩
  else none

def constructor? (classNode : NodeId) : Option NodeId := do
  let body ← t.childByField? classNode "body"
  (t.children body).find? fun m =>
    (t.node m).kind == .methodDefinition && ((t.childByField? m "name").map t.textOf) == some "constructor"

def dependenciesOf (classNode : NodeId) : List Dependency :=
  match (constructor? t classNode).bind (t.childByField? · "parameters") with
  | none => []
  | some parameters => (t.children parameters).filterMap fun p =>
    if (t.node p).kind == .formalParameter then dependency? t p else none

/-- The first class of the file, or the first of a given name. -/
def find? (className : Option String) : Option ClassSignature :=
  (t.descendants SyntaxTree.root).findSome? fun i =>
    if (t.node i).kind == .classDeclaration then do
      let name := t.textOf (← t.childByField? i "name")
      if className.all (· == name) then some ⟨name, dependenciesOf t i⟩ else none
    else none

def read (reader : Reader) (path text : String) (className : Option String) :
    Except ClassNotFound ClassSignature :=
  match find? (.read reader path text) className with
  | some signature => .ok signature
  | none => .error ⟨path, className⟩

end ClassSignature

end Unwire
