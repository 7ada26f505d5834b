import Unwire.Text.Printable

namespace Unwire.Text

/-- A quote, a backslash and the common controls follow a backslash; other characters that are not printable are
written by their code in base 16. -/
def spell (c : Char) : List Char :=
  if c == '"' then ['\\', '"']
  else if c == '\\' then ['\\', '\\']
  else if c == '\t' then ['\\', 't']
  else if c == '\r' then ['\\', 'r']
  else if c == '\n' then ['\\', 'n']
  else if c == '\x00' then ['\\', '0']
  else if isPrintable c then [c]
  else "\\u\x7b".toList ++ Nat.toDigits 16 c.toNat ++ ['\x7d']

def quote (cs : List Char) : List Char := '"' :: (cs.flatMap spell ++ ['"'])

def quoted (s : String) : String := .ofList (quote s.toList)

end Unwire.Text
