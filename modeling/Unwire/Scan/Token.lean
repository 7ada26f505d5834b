import Unwire.Grammar.Outlook
import Unwire.Scan.Context
import Unwire.Scan.Lexeme

namespace Unwire.Scan

open Unwire.Grammar

structure Reading where
  token : Nat
  start : Nat
  stop : Nat
  keyword : Bool := false

structure Tokens where
  literals : Array (List Char × Nat)
  lexemes : Array (Lexeme × Nat)
  words : Std.HashMap String Nat
  wordSet : TokenSet
  contextual : List (Lexeme × Nat)
  operator : Nat
  escape : Nat
  regexBody : Nat
  /-- What is looked for where nothing fits: every token that can be told by itself. -/
  anywhere : TokenSet
  deriving Inhabited

namespace Tokens

def dependent : Lexeme → Bool
  | .doubleRun | .singleRun | .doubleMarkupRun | .singleMarkupRun | .regexBody | .regexFlags | .regexEnd => true
  | _ => false

def ofTable (t : Table) : Tokens :=
  let numbered := t.tokens.toList.zipIdx
  let lexemes := numbered.filterMap fun (k, i) =>
    match k with
    | .lexeme l => some (l, i)
    | _ => none
  let numberOf (l : Lexeme) : Nat := ((lexemes.find? fun p => p.1 == l).map (·.2)).getD 0
  { literals := (numbered.filterMap fun (k, i) =>
      match k with
      | .literal s => if t.words.contains s then none else some (s.toList, i)
      | _ => none).toArray
    lexemes := (lexemes.filter fun p => !Lexeme.contextual.contains p.1).toArray
    words := t.words
    wordSet := t.words.fold (fun m _ i => m ||| TokenSet.single i) 0
    contextual := lexemes.filter fun p => Lexeme.contextual.contains p.1
    operator := ((numbered.find? fun p => p.1 == .literal "||").map (·.2)).getD 0
    escape := numberOf .escape
    regexBody := numberOf .regexBody
    anywhere := numbered.foldl (fun m (k, i) =>
      match k with
      | .lexeme l => if dependent l then m else m ||| TokenSet.single i
      | _ => m ||| TokenSet.single i) 0 }

def expectation (k : Tokens) (expected : TokenSet) : Expectation :=
  let has (l : Lexeme) : Bool := k.contextual.any fun p => p.1 == l && expected.testBit p.2
  { semicolon := has .automaticSemicolon
    signatureSemicolon := has .signatureSemicolon
    templateRun := has .templateRun
    ternaryMark := has .ternaryMark
    markupComment := has .markupComment
    markupText := has .markupText
    operator := expected.testBit k.operator
    escape := expected.testBit k.escape
    regexBody := expected.testBit k.regexBody }

def contextual? (k : Tokens) (s : Source) (expected : TokenSet) (i : Nat) : Option Reading :=
  (s.contextual? (k.expectation expected) i).bind fun f =>
    (k.contextual.find? fun p => p.1 == f.lexeme).map fun p => ⟨p.2, f.start, f.stop, false⟩

structure Candidate where
  rank : Int
  literal : Bool
  reading : Reading

/-- Rank goes before length, and at equal length what is written out before what is only a class. -/
def Candidate.beats (a b : Candidate) : Bool :=
  if a.rank != b.rank then a.rank > b.rank
  else if a.reading.stop != b.reading.stop then a.reading.stop > b.reading.stop
  else if a.literal != b.literal then a.literal
  else a.reading.token < b.reading.token

/-- The token at a position that its own characters tell. A name is taken for a word of the grammar
where that word is `allowed`. -/
def plain? (k : Tokens) (s : Source) (expected allowed : TokenSet) (i : Nat) : Option Reading :=
  let j := s.skip isGap i
  let better (best : Option Candidate) (c : Candidate) : Option Candidate :=
    match best with
    | none => some c
    | some b => if c.beats b then some c else some b
  let best := k.literals.foldl (fun best (cs, token) =>
    if expected.testBit token then
      match s.after? j cs with
      | some stop => better best ⟨0, true, ⟨token, j, stop, false⟩⟩
      | none => best
    else best) none
  let names := expected.testBit Table.word || expected &&& k.wordSet != 0
  let best := k.lexemes.foldl (fun best (l, token) =>
    if expected.testBit token || (token == Table.word && names) then
      let start := if l.immediate then i else j
      match s.lexeme? l start with
      | some stop => better best ⟨l.rank, false, ⟨token, start, stop, false⟩⟩
      | none => best
    else best) best
  match best with
  | some c =>
    let r := c.reading
    if r.token == Table.word then
      match k.words[s.slice r.start r.stop]? with
      | some w => if allowed.testBit w then some { r with token := w, keyword := true } else some r
      | none => some r
    else some r
  | none => if s.size ≤ j && expected.testBit 0 then some ⟨0, j, j, false⟩ else none

end Tokens

end Unwire.Scan
