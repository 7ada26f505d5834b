import Unwire.Sync.Basic
import Unwire.Sync.Collection

namespace Unwire

structure SyncArgs where
  paths : List String := []
  className : Option String := none
  config : Config := {}
  dryRun : Bool := false
  json : Bool := false
  deriving DecidableEq, Repr

inductive Invocation where
  | help
  | version
  | sync (args : SyncArgs)
  deriving DecidableEq, Repr

inductive UsageError where
  | classNameMissing
  | setupPrefixMissing
  | unknownFlag (flag : String)
  | pathMissing
  | classOfManyPaths
  deriving DecidableEq, Repr

def UsageError.message : UsageError → String
  | classNameMissing => "--class requires a class name"
  | setupPrefixMissing => "--setup-prefix requires a non-empty prefix"
  | unknownFlag flag => s!"Unknown flag: '{flag}'"
  | pathMissing => "Missing required <PATH> argument"
  | classOfManyPaths => "--class can only be used with a single class file"

namespace CommandLine

def finish (a : SyncArgs) : Except UsageError SyncArgs :=
  if a.paths.isEmpty then .error .pathMissing
  else if a.className.isSome && 1 < a.paths.length then .error .classOfManyPaths
  else .ok a

/-- Takes arguments into `a`, and gives those that it leaves unread after a request for help or the version. -/
def parseFrom (a : SyncArgs) : List String → Except UsageError (Invocation × List String)
  | [] => (finish a).map fun a => (.sync a, [])
  | arg :: rest =>
    if arg == "--class" then
      match rest with
      | [] => .error .classNameMissing
      | name :: rest => parseFrom { a with className := some name } rest
    else if arg == "--setup-prefix" then
      match rest with
      | [] => .error .setupPrefixMissing
      | start :: rest =>
        if start.isEmpty then .error .setupPrefixMissing
        else parseFrom { a with config := { a.config with setupPrefix := start } } rest
    else if arg == "--legacy-separators" then
      parseFrom { a with config := { a.config with separators := .nextChar } } rest
    else if arg == "--dry-run" then parseFrom { a with dryRun := true } rest
    else if arg == "--json" then parseFrom { a with json := true } rest
    else if arg == "--help" then .ok (.help, rest)
    else if arg == "--version" then .ok (.version, rest)
    else if ['-'].isPrefixOf arg.toList then .error (.unknownFlag arg)
    else parseFrom { a with paths := a.paths ++ [arg] } rest

def parse (args : List String) : Except UsageError (Invocation × List String) := parseFrom {} args

def versionLine : String := "scaffold-sync 0.1.0"

def usage : String :=
  .join <| [versionLine ++ ", keeps generated spec files in sync with their classes.",
    "",
    "Usage: scaffold-sync [OPTIONS] <PATH>...",
    "",
    "Each PATH is a class file (foo.ts, updating foo.spec.ts) or a directory",
    "searched recursively for class files that have a spec file.",
    "",
    "Available options:",
    "",
    "--class <NAME>               Class-under-test name (default: first class in the file)",
    "--setup-prefix <PREFIX>      Name prefix of the setup function (default: setup)",
    "--legacy-separators          Only absorb a comma directly after a removed node",
    "--dry-run                    Report edits without writing files",
    "--json                       Print reports as JSON",
    "--version                    Print the version",
    "--help                       Print this help message",
    ""].map (· ++ "\n")

structure Outcome where
  output : String := ""
  errors : String := ""
  failed : Bool := false
  deriving DecidableEq, Repr

abbrev Results := List (String × Except Sync.SyncError Sync.Report)

def reports (results : Results) : List Sync.Report := results.filterMap (·.2.toOption)

def failures (results : Results) : List String :=
  results.filterMap fun (path, result) =>
    match result with
    | .ok _ => none
    | .error e => some (s!"cannot update existing test file for {path}: {e.message}")

def Outcome.ofResults (args : SyncArgs) (results : Results) : Outcome :=
  let failed := failures results
  { output :=
      if args.json then (Json.array ((reports results).map (·.toJson))).toLines ++ "\n"
      else .join ((reports results).map (·.toText args.dryRun))
    errors := .join <| (failed ++
      if failed.isEmpty then [] else [s!"Error: {failed.length} file(s) could not be updated"]).map (· ++ "\n")
    failed := !failed.isEmpty }

def sync (reader : Reader) (args : SyncArgs) : Job Outcome := do
  let files ← Sync.collect args.paths
  let settings : Sync.Settings :=
    { reader, config := args.config, className := args.className, dryRun := args.dryRun }
  return .ofResults args (← settings.syncFiles files)

def run (reader : Reader) (args : List String) : Job Outcome :=
  if args.isEmpty then .done { output := usage }
  else match parse args with
    | .error e => .done { errors := s!"Error: {e.message}\n", failed := true }
    | .ok (.help, _) => .done { output := usage }
    | .ok (.version, _) => .done { output := versionLine ++ "\n" }
    | .ok (.sync args, _) => sync reader args

end CommandLine

end Unwire
