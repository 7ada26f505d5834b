import Unwire.Job
import Unwire.Sync.Report

namespace Unwire.Sync

structure Settings where
  reader : Reader
  config : Config := {}
  className : Option String := none
  dryRun : Bool := false

namespace Settings

variable (s : Settings)

/-- Reads a class file and its spec file, and writes the spec file back where the class no longer takes what its setup
function wires. -/
def syncFile (path : String) : Job (Except SyncError Report) :=
  .read path fun
  | .error cause => .done (.error (.readClass path cause))
  | .ok classText =>
    match ClassSignature.read s.reader path classText s.className with
    | .error cause => .done (.error (.noClass cause))
    | .ok signature =>
      let spec := Path.spec path
      let report : Report := ⟨path, spec, signature.name, [], .noSpecFile⟩
      .isFile spec fun
      | false => .done (.ok report)
      | true => .read spec fun
        | .error cause => .done (.error (.readSpec spec cause))
        | .ok text =>
          match UpdatePlan.make s.reader spec text signature.dependencies signature.name s.config with
          | .error cause => .done (.error (.update cause))
          | .ok plan =>
            let report := { report with unwired := plan.unwired.map Dependency.name }
            if plan.edits.isEmpty then .done (.ok { report with status := .upToDate })
            else
              let report := { report with status := .updated (plan.edits.map (.ofEdit text.toList)) }
              if s.dryRun then .done (.ok report)
              else match applyEdits text plan.edits with
                | .error cause => .done (.error (.edit cause))
                | .ok patched => .write spec patched fun
                  | .error cause => .done (.error (.writeSpec spec cause))
                  | .ok () => .done (.ok report)

def syncFiles : List String → Job (List (String × Except SyncError Report))
  | [] => return []
  | path :: paths => return (path, ← s.syncFile path) :: (← syncFiles paths)

end Settings

end Unwire.Sync
