import Unwire.Text.Blank

namespace Unwire.Scan

structure Source where
  chars : Array Char
  /-- The number of bytes before each character, and of all bytes. -/
  bytes : Array Nat
  /-- The number of line feeds before each character, and of all. -/
  rows : Array Nat

namespace Source

def ofString (text : String) : Source :=
  let chars := text.toList.toArray
  let sums (f : Char → Nat) : Array Nat :=
    (chars.foldl (fun (acc : Array Nat × Nat) c => (acc.1.push (acc.2 + f c), acc.2 + f c)) (#[0], 0)).1
  { chars, bytes := sums Char.utf8Size, rows := sums fun c => if c == '\n' then 1 else 0 }

def size (s : Source) : Nat := s.chars.size

def byteAt (s : Source) (i : Nat) : Nat := s.bytes.getD i 0

def rowAt (s : Source) (i : Nat) : Nat := s.rows.getD i 0

def at? (s : Source) (i : Nat) : Option Char := s.chars[i]?

def hasAt (s : Source) (i : Nat) (p : Char → Bool) : Bool := (s.at? i).any p

def isAt (s : Source) (i : Nat) (c : Char) : Bool := s.at? i == some c

def skip (s : Source) (p : Char → Bool) (i : Nat) : Nat :=
  if h : i < s.chars.size then
    if p s.chars[i] then s.skip p (i + 1) else i
  else i
termination_by s.chars.size - i

def startsAt (s : Source) (i : Nat) : List Char → Bool
  | [] => true
  | c :: cs => s.isAt i c && s.startsAt (i + 1) cs

def after? (s : Source) (i : Nat) (cs : List Char) : Option Nat :=
  if s.startsAt i cs then some (i + cs.length) else none

def slice (s : Source) (i j : Nat) : String := String.ofList (s.chars.extract i j).toList

end Source

end Unwire.Scan
