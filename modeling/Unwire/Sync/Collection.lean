import Unwire.Job
import Unwire.Text.Offset

namespace Unwire.Sync

def endsIn (name suffix : String) : Bool := suffix.toList.isSuffixOf name.toList

def isClassFile (name : String) : Bool :=
  (endsIn name ".ts" || endsIn name ".tsx") && !endsIn name ".d.ts" &&
    !Text.occursIn ".spec.".toList name.toList

/-- Directories of this name are left out with all below them. -/
def packages : String := "node_modules"

variable {α : Type}

mutual

/-- The class files below the directory at a path, by depth, siblings by name. -/
def candidates (path : String) : Entry α → List String
  | .file _ => []
  | .directory es => ((candidatesByName path es).mergeSort fun a b => a.1 ≤ b.1).flatMap (·.2)

def candidatesByName (path : String) : List (String × Entry α) → List (String × List String)
  | [] => []
  | (name, e) :: rest =>
    let found := if name == packages then []
      else match e with
        | .file _ => if isClassFile name then [Path.below path name] else []
        | .directory _ => candidates (Path.below path name) e
    (name, found) :: candidatesByName path rest

end

def keepSpecified : List String → Job (List String)
  | [] => return []
  | file :: files => .isFile (Path.spec file) fun found => do
    let kept ← keepSpecified files
    return if found then file :: kept else kept

/-- The class files that a path names: those below a directory, and else the path itself. -/
def collectFrom (path : String) : Job (List String) :=
  .listing path fun
  | none => return [path]
  | some directory =>
    if Path.fileName? path == some packages then return [] else keepSpecified (candidates path directory)

def collect : List String → Job (List String)
  | [] => return []
  | path :: paths => return (← collectFrom path) ++ (← collect paths)

end Unwire.Sync
