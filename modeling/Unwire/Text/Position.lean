import Unwire.Text.Offset

namespace Unwire.Text

/-- Whether a line ends with `c` when `rest` follows. A carriage return and a line feed after it end one line, with the
line feed. -/
def endsLine (c : Char) (rest : List Char) : Bool :=
  c == '\n' || c == '\x0b' || c == '\x0c' || c == '\u0085' || c == '\u2028' || c == '\u2029' ||
    (c == '\r' && rest.head? != some '\n')

/-- A line and a column, both counted from zero, the column in characters. -/
structure Position where
  line : Nat
  column : Nat
  deriving DecidableEq, Repr, Inhabited

def Position.next (p : Position) (c : Char) (rest : List Char) : Position :=
  if endsLine c rest then ⟨p.line + 1, 0⟩ else ⟨p.line, p.column + 1⟩

def Position.advance (p : Position) : Nat → List Char → Position
  | _, [] => p
  | n, c :: cs => if c.utf8Size ≤ n then (p.next c cs).advance (n - c.utf8Size) cs else p

/-- The position of byte `n`; inside a character, that of the character. -/
def position (n : Nat) (cs : List Char) : Position := Position.advance ⟨0, 0⟩ n cs

def charIndex : Nat → List Char → Nat
  | _, [] => 0
  | n, c :: cs => if c.utf8Size ≤ n then charIndex (n - c.utf8Size) cs + 1 else 0

end Unwire.Text
