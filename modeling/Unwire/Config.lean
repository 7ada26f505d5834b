namespace Unwire

inductive SeparatorPolicy where
  /-- The comma after the node, or the one before it where the removal empties the end of a list. -/
  | listAware
  /-- A comma that directly follows the node. -/
  | nextChar
  deriving DecidableEq, Repr

def SeparatorPolicy.name : SeparatorPolicy → String
  | listAware => "list-aware"
  | nextChar => "next-char"

def SeparatorPolicy.ofName? : String → Option SeparatorPolicy
  | "list-aware" => some listAware
  | "next-char" => some nextChar
  | _ => none

structure Config where
  setupPrefix : String := "setup"
  separators : SeparatorPolicy := .listAware
  deriving DecidableEq, Repr

end Unwire
