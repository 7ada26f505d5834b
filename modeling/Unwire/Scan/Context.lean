import Unwire.Grammar.Lexeme
import Unwire.Scan.Source

namespace Unwire.Scan

open Unwire.Text
open Unwire.Grammar (Lexeme)

structure Expectation where
  semicolon : Bool
  signatureSemicolon : Bool
  templateRun : Bool
  ternaryMark : Bool
  markupComment : Bool
  markupText : Bool
  operator : Bool
  escape : Bool
  regexBody : Bool

structure Found where
  lexeme : Lexeme
  start : Nat
  stop : Nat

namespace Source

variable (s : Source)

def atEnd (i : Nat) : Bool :=
  match s.at? i with
  | none => true
  | some c => c == '\x00'

def blockComment : Nat → Nat → Nat
  | 0, i => i
  | fuel + 1, i =>
    if s.atEnd i then i
    else if s.isAt i '*' then
      if s.isAt (i + 1) '/' then i + 2 else blockComment fuel (i + 1)
    else blockComment fuel (i + 1)

/-- Skips spaces and comments; nothing if a slash begins no comment. -/
def skipTrivia : Nat → Nat → Option Nat
  | 0, i => some i
  | fuel + 1, i =>
    let i := s.skip isSpace i
    if s.isAt i '/' then
      if s.isAt (i + 1) '/' then skipTrivia fuel (s.skip (fun c => c != '\n' && c != '\x00') (i + 2))
      else if s.isAt (i + 1) '*' then skipTrivia fuel (s.blockComment s.size (i + 2))
      else none
    else some i

def opensStatement (e : Expectation) (i : Nat) : Bool :=
  match s.at? i with
  | none => true
  | some c =>
    if "`,.;*%><=?^|&/:".toList.contains c then false
    else if c == '\x7b' then !e.signatureSemicolon
    else if c == '(' || c == '[' then !e.operator
    else if c == '+' then s.isAt (i + 1) '+'
    else if c == '-' then s.isAt (i + 1) '-'
    else if c == '!' then !s.isAt (i + 1) '='
    else if c == 'i' then
      if !s.isAt (i + 1) 'n' then true
      else if !s.hasAt (i + 2) Char.isAlpha then false
      else if !s.startsAt (i + 2) "stanceof".toList then true
      else s.hasAt (i + 10) Char.isAlpha
    else true

/-- Whether a semicolon may be left out here: at the end of the text, before a closing brace, and at the
end of a line unless the next one goes on. -/
def semicolonOmitted (e : Expectation) (i : Nat) : Bool :=
  let j := s.skip (fun c => isSpace c && c != '\n') i
  if s.atEnd j then true
  else if s.isAt j '\x7d' then
    if s.isAt (s.skip isSpace (j + 1)) ':' then e.operator else true
  else if s.isAt j '\n' then
    match s.skipTrivia s.size (j + 1) with
    | none => false
    | some k => s.opensStatement e k
  else false

def ternaryMark? (i : Nat) : Option Found :=
  let j := s.skip isSpace i
  if !s.isAt j '?' || s.isAt (j + 1) '?' then none
  else if s.isAt (j + 1) '.' then
    if s.hasAt (j + 2) Char.isDigit then some ⟨.ternaryMark, j, j + 1⟩ else none
  else
    let k := s.skip isSpace (j + 1)
    if s.isAt k ':' || s.isAt k ')' || s.isAt k ',' then none else some ⟨.ternaryMark, j, j + 1⟩

def templateEnd? : Nat → Nat → Option Nat
  | 0, _ => none
  | fuel + 1, i =>
    if s.atEnd i then none
    else if s.isAt i '\x60' || s.isAt i '\\' || (s.isAt i '$' && s.isAt (i + 1) '\x7b') then some i
    else templateEnd? fuel (i + 1)

/-- The end of a run of text in markup, and whether it holds more than line feeds and the blanks after them. -/
def markupText : Nat → Nat → Bool → Bool → Nat × Bool
  | 0, i, _, saw => (i, saw)
  | fuel + 1, i, atLine, saw =>
    match s.at? i with
    | none => (i, saw)
    | some c =>
      if "\x00<>\x7b\x7d&".toList.contains c then (i, saw)
      else if c == '\n' then markupText fuel (i + 1) true saw
      else
        let atLine := atLine && isSpace c
        markupText fuel (i + 1) atLine (saw || !atLine)

def markupComment? (start i : Nat) : Option Found :=
  let j := s.skip (fun c => isSpace c || c == '\u2028' || c == '\u2029') i
  let start := if start < i then start else j
  if s.startsAt j "<!--".toList || s.startsAt j "-->".toList then
    some ⟨.markupComment, start,
      s.skip (fun c => !(c == '\x00' || c == '\n' || c == '\u2028' || c == '\u2029')) j⟩
  else none

def contextual? (e : Expectation) (i : Nat) : Option Found :=
  if e.templateRun then
    if e.semicolon then none
    else
      match s.templateEnd? (s.size + 1) i with
      | some j => if i < j then some ⟨.templateRun, i, j⟩ else none
      | none => none
  else
    let (j, saw) := if e.markupText then s.markupText s.size i false false else (i, false)
    if saw then some ⟨.markupText, i, j⟩
    else if e.semicolon || e.signatureSemicolon then
      if s.semicolonOmitted e j then some ⟨.automaticSemicolon, i, i⟩
      else if e.ternaryMark && s.isAt (s.skip isSpace j) '?' then s.ternaryMark? j
      else none
    else if e.ternaryMark then s.ternaryMark? j
    else if e.markupComment && !e.operator && !e.escape && !e.regexBody then s.markupComment? i j
    else none

end Source

end Unwire.Scan
