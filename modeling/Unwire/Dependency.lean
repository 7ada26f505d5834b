namespace Unwire

structure Dependency where
  name : String
  /-- The type as it is written; it does not count in comparisons. -/
  typeName : Option String := none
  deriving DecidableEq, Repr

/-- Wired names that are no longer desired, each once, in order of their first use. -/
def staleNames (wired : List String) (desired : List Dependency) : List String :=
  (wired.filter fun name => !desired.any (·.name == name)).eraseDups

def unwiredDependencies (wired : List String) (desired : List Dependency) : List Dependency :=
  desired.filter fun d => !wired.contains d.name

end Unwire
