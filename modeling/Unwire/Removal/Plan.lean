import Std.Data.HashSet
import Unwire.Removal.Span

namespace Unwire

open Syntax

inductive Site where
  | declaration
  | usage
  deriving DecidableEq, Repr

structure Removal where
  site : Site
  name : String
  span : Span
  deriving DecidableEq, Repr

namespace Removal

variable (t : SyntaxTree)

/-- The names that a variable statement declares, those in patterns apart. -/
def declaredNames (statement : NodeId) : List String :=
  (t.children statement).filterMap fun d =>
    if (t.node d).kind == .variableDeclarator then do
      let name ← t.childByField? d "name"
      if (t.node name).kind == .identifier then some (t.textOf name) else none
    else none

def isDeclaredName (i : NodeId) : Bool :=
  (t.node i).field == some "name" &&
    match (t.node i).parent with
    | none => false
    | some p => (t.node p).kind == .variableDeclarator

def staleDeclarations (setup : NodeId) (stale : List String) : List (NodeId × String) :=
  match t.childByField? setup "body" with
  | none => []
  | some body => (t.significantChildren body).filterMap fun statement =>
    if (t.node statement).kind == .variableStatement then
      ((declaredNames t statement).find? stale.contains).map (statement, ·)
    else none

/-- The mentions of stale names that declare nothing and are outside of `declarations`. -/
def staleUsages (setup : NodeId) (stale : List String) (declarations : List NodeId) : List NodeId :=
  (t.descendants setup).filter fun i =>
    (t.node i).kind == .identifier && stale.contains (t.textOf i) && !isDeclaredName t i &&
      (let above := t.ancestors i
       !declarations.any above.contains)

/-- Declarations first, then usages, both in the order of the text. -/
def plan (setup : NodeId) (stale : List String) (policy : SeparatorPolicy) : List Removal :=
  if stale.isEmpty then [] else
    let declarations := staleDeclarations t setup stale
    let usages := staleUsages t setup stale (declarations.map (·.1))
    let nodes := Std.HashSet.ofList (declarations.map (·.1) ++ usages)
    let removed (i : NodeId) : Bool := nodes.contains i
    declarations.map (fun (i, name) => ⟨.declaration, name, spanOf t policy removed i⟩) ++
      usages.map (fun i => ⟨.usage, t.textOf i, spanOf t policy removed i⟩)

end Removal

end Unwire
