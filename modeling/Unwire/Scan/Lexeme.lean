import Unwire.Grammar.Lexeme
import Unwire.Scan.Source

namespace Unwire.Scan

open Unwire.Text
open Unwire.Grammar (Lexeme)

def isGap (c : Char) : Bool :=
  isBlank c || c == '\ufeff' || c == '\u2060' || c == '\u200b'

def isHex (c : Char) : Bool := c.isDigit || ('a' ≤ c && c ≤ 'f') || ('A' ≤ c && c ≤ 'F')

def isOctal (c : Char) : Bool := '0' ≤ c && c ≤ '7'

def isNamePart (c : Char) : Bool :=
  '\x1f' < c && !isGap c && !":;`\"'@#.,|^&<=>+-*/\\%?!~()[]\x7b\x7d".toList.contains c

namespace Source

variable (s : Source)

def run? (p : Char → Bool) (least most i : Nat) : Option Nat :=
  let j := min (s.skip p i) (i + most)
  if i + least ≤ j then some j else none

def unicodeEscape? (i : Nat) : Option Nat :=
  (s.after? i "\\u".toList).bind fun j =>
    match s.run? isHex 4 4 j with
    | some k => some k
    | none =>
      (s.after? j ['\x7b']).bind fun k => (s.run? isHex 1 s.size k).bind fun l => s.after? l ['\x7d']

def namePart? (i : Nat) : Option Nat :=
  if s.hasAt i isNamePart then some (i + 1) else s.unicodeEscape? i

def nameRest : Nat → Nat → Nat
  | 0, i => i
  | fuel + 1, i =>
    match s.namePart? i with
    | none => i
    | some j => nameRest fuel j

def name? (i : Nat) : Option Nat :=
  if s.hasAt i Char.isDigit then none
  else (s.namePart? i).map fun j => s.nameRest s.size j

def digitsRest (p : Char → Bool) : Nat → Nat → Nat
  | 0, i => i
  | fuel + 1, i =>
    if s.hasAt i p then digitsRest p fuel (i + 1)
    else if s.isAt i '_' && s.hasAt (i + 1) p then digitsRest p fuel (i + 2)
    else i

def digits? (p : Char → Bool) (i : Nat) : Option Nat :=
  if s.hasAt i p then some (s.digitsRest p s.size (i + 1)) else none

def optional (i : Nat) (r : Option Nat) : Nat := r.getD i

/-- The digits before a decimal point or an exponent; only a lone zero may begin more than one digit. -/
def wholePart? (i : Nat) : Option Nat :=
  let lead (c : Char) : Bool := '1' ≤ c && c ≤ '9'
  let from1 (j : Nat) : Nat :=
    match s.digits? Char.isDigit (j + 1) with
    | some k => k
    | none => if s.isAt (j + 1) '_' then optional (j + 1) (s.digits? Char.isDigit (j + 2)) else j + 1
  if s.hasAt i lead then some (from1 i)
  else if s.isAt i '0' then
    if s.hasAt (i + 1) lead then some (from1 (i + 1)) else some (i + 1)
  else none

def exponent? (i : Nat) : Option Nat :=
  if s.isAt i 'e' || s.isAt i 'E' then
    let j := if s.isAt (i + 1) '-' || s.isAt (i + 1) '+' then i + 2 else i + 1
    s.digits? Char.isDigit j
  else none

def bigMark (i : Nat) : Nat := if s.isAt i 'n' then i + 1 else i

def based? (small large : Char) (p : Char → Bool) (i : Nat) : Option Nat :=
  if s.isAt i '0' && (s.isAt (i + 1) small || s.isAt (i + 1) large) then
    (s.digits? p (i + 2)).map s.bigMark
  else none

def longest : List (Option Nat) → Option Nat
  | [] => none
  | r :: rs =>
    match r, longest rs with
    | some a, some b => some (max a b)
    | some a, none => some a
    | none, b => b

def number? (i : Nat) : Option Nat :=
  let fraction (j : Nat) : Nat := optional j (s.exponent? j)
  longest [
    s.based? 'x' 'X' isHex i,
    s.based? 'b' 'B' (fun c => c == '0' || c == '1') i,
    s.based? 'o' 'O' isOctal i,
    (s.digits? Char.isDigit i).map s.bigMark,
    (s.wholePart? i).bind fun j => s.exponent? j,
    (s.wholePart? i).bind fun j =>
      (s.after? j ['.']).map fun k => fraction (optional k (s.digits? Char.isDigit k)),
    (s.after? i ['.']).bind fun j => (s.digits? Char.isDigit j).map fraction]

def escape? (i : Nat) : Option Nat :=
  (s.after? i ['\\']).bind fun j => longest [
    if s.hasAt j fun c => !(c == 'x' || c == 'u' || isOctal c) then some (j + 1) else none,
    s.run? isOctal 1 3 j,
    (s.after? j ['x']).bind (s.run? isHex 2 2),
    s.unicodeEscape? i,
    if (s.isAt j '\r' || s.isAt j '?') && s.hasAt (j + 1) (fun c => c == '\n' || c == '\u2028' || c == '\u2029')
      then some (j + 2) else none]

def blockEnd? : Nat → Nat → Option Nat
  | 0, _ => none
  | fuel + 1, i =>
    match s.at? i with
    | none => none
    | some c => if c == '*' && s.isAt (i + 1) '/' then some (i + 2) else blockEnd? fuel (i + 1)

def comment? (i : Nat) : Option Nat :=
  match s.after? i "//".toList with
  | some j => some (s.skip (fun c => !(c == '\r' || c == '\n' || c == '\u2028' || c == '\u2029')) j)
  | none => (s.after? i "/*".toList).bind fun j => s.blockEnd? s.size j

def regexClass? : Nat → Nat → Option Nat
  | 0, _ => none
  | fuel + 1, i =>
    match s.at? i with
    | none => none
    | some c =>
      if c == ']' then some (i + 1)
      else if c == '\n' then none
      else if c == '\\' then (if s.hasAt (i + 1) (· != '\n') then regexClass? fuel (i + 2) else none)
      else regexClass? fuel (i + 1)

def regexPart? (i : Nat) : Option Nat :=
  match s.at? i with
  | none => none
  | some c =>
    if c == '[' then s.regexClass? s.size (i + 1)
    else if c == '\\' then (if s.hasAt (i + 1) (· != '\n') then some (i + 2) else none)
    else if c == '/' || c == '\n' then none
    else some (i + 1)

def regexRest : Nat → Nat → Nat
  | 0, i => i
  | fuel + 1, i =>
    match s.regexPart? i with
    | none => i
    | some j => regexRest fuel j

def isMarkupNamePart (c : Char) : Bool := c.isAlphanum || c == '_' || c == '$'

def characterReference? (i : Nat) : Option Nat :=
  (s.after? i ['&']).bind fun j =>
    let body := match s.after? j ['#'] with
      | some k =>
        if s.isAt k 'x' || s.isAt k 'X' then s.run? isHex 1 6 (k + 1) else s.run? Char.isDigit 1 5 k
      | none => s.run? Char.isAlpha 1 30 j
    body.bind fun k => s.after? k [';']

/-- Text of an attribute up to its quote; an ampersand belongs to it if no reference can begin there. -/
def markupRun (quote : Char) : Nat → Nat → Nat
  | 0, i => i
  | fuel + 1, i =>
    match s.at? i with
    | none => i
    | some c =>
      if c == quote then i
      else if c == '&' then
        if s.hasAt (i + 1) fun d => !(d == '#' || d.isAlpha) then markupRun quote fuel (i + 2) else i
      else markupRun quote fuel (i + 1)

/-- The end of a token of the class that begins at `i`. Tokens of contextual classes are read elsewhere. -/
def lexeme? (l : Lexeme) (i : Nat) : Option Nat :=
  let run (j : Nat) : Option Nat := if i < j then some j else none
  match l with
  | .hashBang => (s.after? i "#!".toList).map (s.skip (· != '\n'))
  | .identifier => s.name? i
  | .privateName => (s.after? i ['#']).bind s.name?
  | .comment => s.comment? i
  | .number => s.number? i
  | .escape => s.escape? i
  | .doubleRun => run (s.skip (fun c => !(c == '"' || c == '\\' || c == '\r' || c == '\n')) i)
  | .singleRun => run (s.skip (fun c => !(c == '\'' || c == '\\' || c == '\r' || c == '\n')) i)
  | .doubleMarkupRun => run (s.markupRun '"' s.size i)
  | .singleMarkupRun => run (s.markupRun '\'' s.size i)
  | .markupName =>
    if s.hasAt i fun c => c.isAlpha || c == '_' || c == '$' then
      (s.after? (s.skip isMarkupNamePart (i + 1)) ['-']).map
        (s.skip fun c => isMarkupNamePart c || c == '-')
    else none
  | .characterReference => s.characterReference? i
  | .regexBody => run (s.regexRest s.size i)
  | .regexEnd => s.after? i ['/']
  | .regexFlags => run (s.skip Char.isLower i)
  | .automaticSemicolon | .templateRun | .ternaryMark | .markupComment | .markupText | .signatureSemicolon => none

end Source

end Unwire.Scan
