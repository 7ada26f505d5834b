import Unwire.Removal.Plan
import Unwire.Text.Position

namespace Unwire

/-- Removes `text`, which starts at byte `start` of the file at `path`. -/
structure Edit where
  path : String
  start : Nat
  text : String
  deriving DecidableEq, Repr

structure Place where
  position : Text.Position
  firstChar : Nat
  stopChar : Nat
  deriving DecidableEq, Repr

namespace Edit

def stop (e : Edit) : Nat := e.start + e.text.utf8ByteSize

def ofRemoval (path : String) (t : Syntax.SyntaxTree) (r : Removal) : Edit :=
  ⟨path, r.span.start, t.textBetween r.span.start r.span.stop⟩

def position (e : Edit) (text : List Char) : Text.Position := Text.position e.start text

def place? (e : Edit) (text : List Char) : Option Place :=
  if e.stop ≤ Text.width text then
    some ⟨e.position text, Text.charIndex e.start text, Text.charIndex e.stop text⟩
  else none

end Edit

end Unwire
