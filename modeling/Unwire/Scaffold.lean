import Unwire.Text.Capital

namespace Unwire

/-- A class, and the spec file of an earlier form of it. -/
structure Scaffold where
  stem : String
  className : String
  wired : List String
  current : List String
  deriving DecidableEq, Repr

namespace Scaffold

def inSync (stem className : String) (dependencies : List String) : Scaffold :=
  ⟨stem, className, dependencies, dependencies⟩

/-- Many dependencies, of which the first and every `staleEvery`-th after it are stale; none if `staleEvery` is zero. -/
def wide (count staleEvery : Nat) : Scaffold :=
  let name (i : Nat) := s!"dep{i}"
  let kept := (List.range count).filter fun i => staleEvery == 0 || i % staleEvery != 0
  ⟨"wide", "Wide", (List.range count).map name, kept.map name⟩

def typeFor (name : String) : String := .ofList (Text.capitalize name.toList)

def parameter (name : String) : String := name ++ ": " ++ typeFor name

def classText (s : Scaffold) : String :=
  "export class " ++ s.className ++ " \x7b\n  constructor(" ++ ", ".intercalate (s.current.map parameter) ++
    ") \x7b\x7d\n\x7d\n"

def specLines (stem className : String) (names : List String) : List String :=
  ["import \x7b " ++ className ++ " \x7d from './" ++ stem ++ "';",
    "",
    "describe('" ++ className ++ "', () => \x7b",
    "  it('when build is called it should construct', () => \x7b",
    "    // arrange",
    "    const \x7b build \x7d = setup().default();",
    "    // act",
    "    const instance = build();",
    "    // assert",
    "    expect(instance).toBeTruthy();",
    "  \x7d);",
    "\x7d);",
    "",
    "function setup() \x7b"] ++
  names.map (fun name => "  let " ++ parameter name ++ ";") ++
  ["  const builder = \x7b"] ++
  names.map (fun name => "    " ++ name ++ ",") ++
  ["    default() \x7b",
    "      return builder;",
    "    \x7d,",
    "    build() \x7b",
    "      return new " ++ className ++ "(" ++ ", ".intercalate names ++ ");",
    "    \x7d",
    "  \x7d;",
    "",
    "  return builder;",
    "\x7d"]

def specFor (stem className : String) (names : List String) : String :=
  .join ((specLines stem className names).map (· ++ "\n"))

def specText (s : Scaffold) : String := specFor s.stem s.className s.wired

end Scaffold

end Unwire
