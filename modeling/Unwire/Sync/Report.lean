import Unwire.ClassSignature
import Unwire.FileTree
import Unwire.Json.Forms
import Unwire.Edit.Application
import Unwire.UpdatePlan

namespace Unwire.Sync

/-- An edit with its line and column, both counted from one. -/
structure LocatedEdit where
  edit : Edit
  line : Nat
  column : Nat
  deriving DecidableEq, Repr

def LocatedEdit.ofEdit (text : List Char) (edit : Edit) : LocatedEdit :=
  let p := edit.position text
  ⟨edit, p.line + 1, p.column + 1⟩

inductive Status where
  | updated (edits : List LocatedEdit)
  | upToDate
  | noSpecFile
  deriving DecidableEq, Repr

structure Report where
  classFile : String
  specFile : String
  className : String
  unwired : List String
  status : Status
  deriving DecidableEq, Repr

def LocatedEdit.toJson (e : LocatedEdit) : Json :=
  .object [("path", .string e.edit.path), ("start", .number e.edit.start), ("text", .string e.edit.text),
    ("line", .number e.line), ("column", .number e.column)]

def Status.toMembers : Status → List (String × Json)
  | updated edits => [("status", .string "updated"), ("edits", .array (edits.map (·.toJson)))]
  | upToDate => [("status", .string "up-to-date")]
  | noSpecFile => [("status", .string "no-spec-file")]

namespace Report

def toJson (r : Report) : Json :=
  .object <| [("class_file", .string r.classFile), ("spec_file", .string r.specFile),
    ("class_name", .string r.className), ("unwired", .array (r.unwired.map .string))] ++ r.status.toMembers

def editLine (specFile : String) (e : LocatedEdit) : String :=
  s!"  {specFile}:{e.line}:{e.column}  remove " ++ .ofList (Text.quote (Text.trim e.edit.text.toList))

def statusLines (r : Report) (dryRun : Bool) : List String :=
  match r.status with
  | .updated edits =>
    let verb := if dryRun then "would update" else "updated"
    let ending := if edits.length == 1 then "" else "s"
    s!"{verb} {r.specFile} ({edits.length} edit{ending})" :: edits.map (editLine r.specFile)
  | .upToDate => [s!"up to date {r.specFile}"]
  | .noSpecFile => [s!"no spec file for {r.classFile}"]

def unwiredLines (r : Report) : List String :=
  if r.unwired.isEmpty then [] else ["  not wired in setup (add by hand): " ++ ", ".intercalate r.unwired]

def toText (r : Report) (dryRun : Bool) : String :=
  .join ((r.statusLines dryRun ++ r.unwiredLines).map (· ++ "\n"))

end Report

inductive SyncError where
  | readClass (path : String) (cause : FileError)
  | noClass (cause : ClassNotFound)
  | readSpec (path : String) (cause : FileError)
  | update (cause : UpdateError)
  | edit (cause : EditError)
  | writeSpec (path : String) (cause : FileError)
  deriving DecidableEq, Repr

def SyncError.message : SyncError → String
  | readClass path cause => s!"Failed to read class file {path}: {cause.message}"
  | noClass cause => cause.message
  | readSpec path cause => s!"Failed to read spec file {path}: {cause.message}"
  | update cause => cause.message
  | edit cause => cause.message
  | writeSpec path cause => s!"Failed to write spec file {path}: {cause.message}"

end Unwire.Sync
