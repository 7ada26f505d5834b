import Unwire.Parse.Tree
import Unwire.Path
import Unwire.Syntax.Kind
import Unwire.Text.Offset

namespace Unwire

open Unwire.Parse (ParseTree)

abbrev Reader := Dialect → String → ParseTree

def Reader.typeScript : Reader
  | .plain => Parse.typeScript.parse
  | .markup => Parse.typeScriptMarkup.parse

namespace Syntax

abbrev NodeId := Nat

structure Node where
  kind : Kind
  field : Option String := none
  /-- Where the blanks and comments before the node start. -/
  fullStart : Nat
  start : Nat
  stop : Nat
  parent : Option NodeId := none
  children : List NodeId := []
  deriving Repr, Inhabited

structure SyntaxTree where
  text : List Char
  nodes : Array Node
  faulty : Bool := false

mutual

/-- Adds the nodes of a tree, in preorder. `lead` is where the last node before it that is no comment ends. -/
def addTree (parent : Option NodeId) (lead : Nat) : Parse.Tree → Array Node → Array Node
  | .node kind field start stop children, nodes =>
    let id := nodes.size
    let (ids, nodes) := addForest id lead children
      (nodes.push { kind := .ofName kind, field, fullStart := min lead start, start, stop, parent })
    nodes.modify id ({ · with children := ids })

def addForest (parent : NodeId) (lead : Nat) : List Parse.Tree → Array Node → List NodeId × Array Node
  | [], nodes => ([], nodes)
  | t :: ts, nodes =>
    let id := nodes.size
    let nodes := addTree (some parent) lead t nodes
    let (ids, nodes) := addForest parent (if (Kind.ofName t.kind).isTrivia then lead else t.stop) ts nodes
    (id :: ids, nodes)

end

namespace SyntaxTree

def ofParse (text : String) (p : ParseTree) : SyntaxTree :=
  { text := text.toList, nodes := addTree none 0 p.root #[], faulty := p.faulty }

def read (reader : Reader) (path text : String) : SyntaxTree :=
  ofParse text (reader (.ofPath path) text)

def root : NodeId := 0

variable (t : SyntaxTree)

def node (i : NodeId) : Node := t.nodes.getD i default

def textBetween (start stop : Nat) : String :=
  .ofList ((Text.slice? start stop t.text).getD [])

def textOf (i : NodeId) : String := t.textBetween (t.node i).start (t.node i).stop

def fullTextOf (i : NodeId) : String := t.textBetween (t.node i).fullStart (t.node i).stop

def children (i : NodeId) : List NodeId := (t.node i).children

def isTrivia (i : NodeId) : Bool := (t.node i).kind.isTrivia

def significantChildren (i : NodeId) : List NodeId := (t.children i).filter (!t.isTrivia ·)

def childByField? (i : NodeId) (field : String) : Option NodeId :=
  (t.children i).find? fun c => (t.node c).field == some field

def preorder : Nat → List NodeId → List NodeId
  | _, [] => []
  | 0, _ => []
  | fuel + 1, i :: pile => i :: preorder fuel (t.children i ++ pile)

def descendants (i : NodeId) : List NodeId := t.preorder t.nodes.size [i]

def upward : Nat → NodeId → List NodeId
  | 0, _ => []
  | fuel + 1, i => i :: ((t.node i).parent.map (upward fuel)).getD []

def ancestors (i : NodeId) : List NodeId := t.upward t.nodes.size i

def isWithin (i j : NodeId) : Bool := (t.ancestors i).contains j

def following (i : NodeId) : List NodeId :=
  match (t.node i).parent with
  | none => []
  | some p => ((t.significantChildren p).dropWhile (· != i)).tail

/-- The children of the parent of `i` that are no comments and come before `i`; all of them if `i` is a comment. -/
def preceding (i : NodeId) : List NodeId :=
  match (t.node i).parent with
  | none => []
  | some p => (t.significantChildren p).takeWhile (· != i)

def next? (i : NodeId) : Option NodeId := (t.following i).head?

def previous? (i : NodeId) : Option NodeId := (t.preceding i).getLast?

def outline (i : NodeId) : String :=
  .join <| (t.descendants i).map fun d =>
    let depth := ((t.ancestors d).takeWhile (· != i)).length
    .join (List.replicate depth "  ") ++ (t.node d).kind.title ++ " " ++ Text.quoted (t.textOf d) ++ "\n"

end SyntaxTree

end Syntax

end Unwire
