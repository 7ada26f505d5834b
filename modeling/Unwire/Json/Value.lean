namespace Unwire

inductive Json where
  | number (n : Nat)
  | string (s : String)
  | array (items : List Json)
  | object (members : List (String × Json))
  deriving Repr, Inhabited

namespace Json

def escape (c : Char) : List Char :=
  if c == '"' then ['\\', '"']
  else if c == '\\' then ['\\', '\\']
  else if c == '\x08' then ['\\', 'b']
  else if c == '\t' then ['\\', 't']
  else if c == '\n' then ['\\', 'n']
  else if c == '\x0c' then ['\\', 'f']
  else if c == '\r' then ['\\', 'r']
  else if c < ' ' then ['\\', 'u', '0', '0', Nat.digitChar (c.toNat / 16), Nat.digitChar (c.toNat % 16)]
  else [c]

def writeString (s : String) : List Char := '"' :: (s.toList.flatMap escape ++ ['"'])

mutual

def compact : Json → List Char
  | number n => Nat.toDigits 10 n
  | string s => writeString s
  | array items => '[' :: compactItems items
  | object members => '\x7b' :: compactMembers members

def compactItems : List Json → List Char
  | [] => [']']
  | [v] => compact v ++ [']']
  | v :: vs => compact v ++ ',' :: compactItems vs

def compactMembers : List (String × Json) → List Char
  | [] => ['\x7d']
  | [(k, v)] => writeString k ++ ':' :: (compact v ++ ['\x7d'])
  | (k, v) :: vs => writeString k ++ ':' :: (compact v ++ ',' :: compactMembers vs)

end

def newLine (level : Nat) : List Char := '\n' :: List.replicate (2 * level) ' '

mutual

def indented (level : Nat) : Json → List Char
  | number n => Nat.toDigits 10 n
  | string s => writeString s
  | array [] => ['[', ']']
  | array items => '[' :: indentedItems level items
  | object [] => ['\x7b', '\x7d']
  | object members => '\x7b' :: indentedMembers level members

def indentedItems (level : Nat) : List Json → List Char
  | [] => newLine level ++ [']']
  | [v] => newLine (level + 1) ++ indented (level + 1) v ++ newLine level ++ [']']
  | v :: vs => newLine (level + 1) ++ indented (level + 1) v ++ ',' :: indentedItems level vs

def indentedMembers (level : Nat) : List (String × Json) → List Char
  | [] => newLine level ++ ['\x7d']
  | [(k, v)] =>
    newLine (level + 1) ++ writeString k ++ [':', ' '] ++ indented (level + 1) v ++ newLine level ++ ['\x7d']
  | (k, v) :: vs =>
    newLine (level + 1) ++ writeString k ++ [':', ' '] ++ indented (level + 1) v ++ ',' :: indentedMembers level vs

end

def toLine (v : Json) : String := .ofList v.compact

def toLines (v : Json) : String := .ofList (v.indented 0)

end Json

end Unwire
