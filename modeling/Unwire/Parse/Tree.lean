import Unwire.Grammar.TypeScript
import Unwire.Parse.Reading

namespace Unwire.Parse

open Unwire.Grammar
open Unwire.Scan (Source Tokens)

/-- A node, with the bytes from `start` up to `stop`. -/
inductive Tree where
  | node (kind : String) (field : Option String) (start stop : Nat) (children : List Tree)
  deriving Inhabited, Repr

namespace Tree

def kind : Tree → String
  | node k _ _ _ _ => k

def field : Tree → Option String
  | node _ f _ _ _ => f

def start : Tree → Nat
  | node _ _ s _ _ => s

def stop : Tree → Nat
  | node _ _ _ e _ => e

def children : Tree → List Tree
  | node _ _ _ _ cs => cs

end Tree

structure Role where
  shown : Option String := none
  field : Option String := none

mutual

/-- The nodes that a piece makes, in front of `rest`: one, or those of its parts where it is hidden. Parts of a
hidden piece take over its field if they have none. -/
def nodesOf (t : Table) (s : Source) (role : Role) : Piece → List Tree → List Tree
  | .mk i parts, rest =>
    let name := match i.label with
      | .symbol n =>
        let x := t.symbols.getD n default
        role.shown <|> (if x.visible then some x.name else none)
      | .skipped => none
      | .fault => some "ERROR"
    let steps := ((i.production.bind fun n => t.productions[n]?).map (·.steps.toList)).getD []
    match name with
    | some kind =>
      .node kind role.field (s.byteAt i.start) (s.byteAt i.stop) (nodesOfParts t s none steps parts []) :: rest
    | none => nodesOfParts t s role.field steps parts rest

def nodesOfParts (t : Table) (s : Source) (field : Option String) :
    List Step → List Piece → List Tree → List Tree
  | _, [], rest => rest
  | steps, p :: ps, rest =>
    if p.info.extra then nodesOf t s {} p (nodesOfParts t s field steps ps rest)
    else
      let step := steps.head?
      let role : Role := { shown := step.bind (·.shown), field := step.bind (·.field) <|> field }
      nodesOf t s role p (nodesOfParts t s field steps.tail ps rest)

end

structure ParseTree where
  root : Tree
  faulty : Bool

structure Language where
  automaton : Automaton
  tokens : Tokens

def Language.ofGrammar (g : Grammar) : Language :=
  let a := Automaton.ofGrammar g
  ⟨a, Tokens.ofTable a.outlook.table⟩

def Language.parse (l : Language) (text : String) : ParseTree :=
  let s := Source.ofString text
  let t := l.automaton.outlook.table
  let p := readPiece l.automaton l.tokens s
  let kind := match p.label with
    | .symbol n => (t.symbols.getD n default).name
    | _ => "ERROR"
  { root := .node kind none (s.byteAt p.info.start) (s.byteAt s.size) (nodesOfParts t s none [] p.parts [])
    faulty := 0 < p.cost }

def typeScript : Language := .ofGrammar (Grammar.typeScript false)

def typeScriptMarkup : Language := .ofGrammar (Grammar.typeScript true)

end Unwire.Parse
