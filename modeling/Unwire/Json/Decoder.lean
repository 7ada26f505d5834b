namespace Unwire.Json

abbrev Decoder (α : Type) := List Char → Option (α × List Char)

namespace Decoder

def isBlank (c : Char) : Bool := c == ' ' || c == '\n' || c == '\t' || c == '\r'

def skipBlanks (cs : List Char) : List Char := cs.dropWhile isBlank

def expect (c : Char) (cs : List Char) : Option (List Char) :=
  match skipBlanks cs with
  | d :: rest => if c == d then some rest else none
  | [] => none

def hexDigit? (c : Char) : Option Nat :=
  if '0' ≤ c && c ≤ '9' then some (c.toNat - '0'.toNat)
  else if 'a' ≤ c && c ≤ 'f' then some (c.toNat - 'a'.toNat + 10)
  else if 'A' ≤ c && c ≤ 'F' then some (c.toNat - 'A'.toNat + 10)
  else none

def unit? (a b c d : Char) : Option Nat := do
  return (← hexDigit? a) * 4096 + (← hexDigit? b) * 256 + (← hexDigit? c) * 16 + (← hexDigit? d)

def escaped? : Char → Option Char
  | '"' => some '"'
  | '\\' => some '\\'
  | '/' => some '/'
  | 'b' => some '\x08'
  | 'f' => some '\x0c'
  | 'n' => some '\n'
  | 'r' => some '\r'
  | 't' => some '\t'
  | _ => none

def isHighSurrogate (n : Nat) : Bool := 0xd800 ≤ n && n < 0xdc00

def isLowSurrogate (n : Nat) : Bool := 0xdc00 ≤ n && n < 0xe000

def before (c : Char) (read : Option (List Char × List Char)) : Option (List Char × List Char) :=
  read.map fun (cs, rest) => (c :: cs, rest)

/-- The characters of a string up to the closing quote. A surrogate has to stand in a pair. -/
def readChars : Decoder (List Char)
  | [] => none
  | c :: rest =>
    if c == '"' then some ([], rest)
    else if c != '\\' then if c < ' ' then none else before c (readChars rest)
    else match rest with
      | [] => none
      | k :: rest =>
        if k != 'u' then (escaped? k).bind fun c => before c (readChars rest)
        else match rest with
          | a :: b :: c :: d :: rest =>
            (unit? a b c d).bind fun n =>
              if isLowSurrogate n then none
              else if !isHighSurrogate n then before (Char.ofNat n) (readChars rest)
              else match rest with
                | x :: y :: e :: f :: g :: h :: rest =>
                  (unit? e f g h).bind fun m =>
                    if x == '\\' && y == 'u' && isLowSurrogate m then
                      before (Char.ofNat (0x10000 + (n - 0xd800) * 0x400 + (m - 0xdc00))) (readChars rest)
                    else none
                | _ => none
          | _ => none

def string : Decoder String := fun cs => do
  let (cs, rest) ← readChars (← expect '"' cs)
  return (.ofList cs, rest)

def digitsValue (ds : List Char) : Nat := ds.foldl (fun n d => 10 * n + (d.toNat - '0'.toNat)) 0

/-- A number without sign, fraction and exponent that is below `bound`. -/
def natural (bound : Nat) : Decoder Nat := fun cs =>
  let cs := skipBlanks cs
  let digits := cs.takeWhile Char.isDigit
  let rest := cs.dropWhile Char.isDigit
  let n := digitsValue digits
  if digits.isEmpty || (digits.head? == some '0' && 1 < digits.length) then none
  else if rest.head? == some '.' || rest.head? == some 'e' || rest.head? == some 'E' then none
  else if n < bound then some (n, rest)
  else none

def skipWord (word : List Char) (cs : List Char) : Option (List Char) :=
  if word.isPrefixOf cs then some (cs.drop word.length) else none

def null : Decoder Unit := fun cs => (skipWord "null".toList (skipBlanks cs)).map ((), ·)

/-- `null` reads as nothing. -/
def optional {α : Type} (value : Decoder α) : Decoder (Option α) := fun cs =>
  match null cs with
  | some (_, rest) => some (none, rest)
  | none => (value cs).map fun (a, rest) => (some a, rest)

def skipString : List Char → Option (List Char)
  | [] => none
  | c :: rest =>
    if c == '"' then some rest
    else if c != '\\' then if c < ' ' then none else skipString rest
    else match rest with
      | [] => none
      | k :: rest =>
        if k != 'u' then if (escaped? k).isSome then skipString rest else none
        else match rest with
          | a :: b :: c :: d :: rest => if (unit? a b c d).isSome then skipString rest else none
          | _ => none

def skipDigits (cs : List Char) : Option (List Char) :=
  if (cs.head?.map Char.isDigit).getD false then some (cs.dropWhile Char.isDigit) else none

def skipFraction : List Char → Option (List Char)
  | '.' :: rest => skipDigits rest
  | rest => some rest

def skipExponent : List Char → Option (List Char)
  | 'e' :: '+' :: rest | 'e' :: '-' :: rest | 'E' :: '+' :: rest | 'E' :: '-' :: rest => skipDigits rest
  | 'e' :: rest | 'E' :: rest => skipDigits rest
  | rest => some rest

def skipNumber (cs : List Char) : Option (List Char) := do
  let rest ← match cs with
    | '0' :: rest => if (rest.head?.map Char.isDigit).getD false then none else some rest
    | _ => skipDigits cs
  skipExponent (← skipFraction rest)

mutual

def skipValue : Nat → List Char → Option (List Char)
  | 0, _ => none
  | fuel + 1, cs =>
    match skipBlanks cs with
    | '"' :: rest => skipString rest
    | '[' :: rest =>
      match expect ']' rest with
      | some rest => some rest
      | none => skipItems fuel rest
    | '\x7b' :: rest =>
      match expect '\x7d' rest with
      | some rest => some rest
      | none => skipMembers fuel rest
    | '-' :: rest => skipNumber rest
    | 'n' :: rest => skipWord "ull".toList rest
    | 't' :: rest => skipWord "rue".toList rest
    | 'f' :: rest => skipWord "alse".toList rest
    | rest => skipNumber rest

def skipItems : Nat → List Char → Option (List Char)
  | 0, _ => none
  | fuel + 1, cs => do
    let rest ← skipValue fuel cs
    match skipBlanks rest with
    | ',' :: rest => skipItems fuel rest
    | ']' :: rest => some rest
    | _ => none

def skipMembers : Nat → List Char → Option (List Char)
  | 0, _ => none
  | fuel + 1, cs => do
    let rest ← skipString (← expect '"' cs)
    let rest ← skipValue fuel (← expect ':' rest)
    match skipBlanks rest with
    | ',' :: rest => skipMembers fuel rest
    | '\x7d' :: rest => some rest
    | _ => none

end

def ignored : Decoder Unit := fun cs => (skipValue (2 * cs.length + 2) cs).map ((), ·)

/-- Reads the members of an object after its first key starts; `member` takes each value in. -/
def readMembers {σ : Type} (member : String → σ → Decoder σ) : Nat → σ → Decoder σ
  | 0, _ => fun _ => none
  | fuel + 1, s => fun cs => do
    let (key, rest) ← string cs
    let (s, rest) ← member key s (← expect ':' rest)
    match skipBlanks rest with
    | ',' :: rest => readMembers member fuel s rest
    | '\x7d' :: rest => some (s, rest)
    | _ => none

def members {σ : Type} (member : String → σ → Decoder σ) (s : σ) : Decoder σ := fun cs => do
  let rest ← expect '\x7b' cs
  match expect '\x7d' rest with
  | some rest => some (s, rest)
  | none => readMembers member rest.length s rest

def once {α : Type} (value : Decoder α) (old : Option α) : Decoder (Option α) := fun cs =>
  match old with
  | some _ => none
  | none => (value cs).map fun (a, rest) => (some a, rest)

def decode? {α : Type} (value : Decoder α) (text : String) : Option α := do
  let (a, rest) ← value text.toList
  if (skipBlanks rest).isEmpty then some a else none

end Decoder

end Unwire.Json
