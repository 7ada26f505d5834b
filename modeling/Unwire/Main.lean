import Unwire.CommandLine

namespace Unwire

def FileError.ofIO : IO.Error → FileError
  | .noFileOrDirectory .. => .notFound
  | .inappropriateType _ code _ => if code == 20 then .notADirectory else .isADirectory
  | e => .other (toString e)

partial def listDirectory (path : String) : IO (Entry Unit) := do
  let entries ← (← IO.FS.realPath path).readDir
  let listed ← entries.toList.mapM fun e => do
    if ← e.path.isDir then return (e.fileName, ← listDirectory e.path.toString)
    else return (e.fileName, .file ())
  return .directory listed

def isDirectory (path : String) : IO Bool := do
  if path.isEmpty then return false
  try (← IO.FS.realPath path).isDir catch _ => return false

def isFileAt (path : String) : IO Bool := do
  if path.isEmpty then return false
  try
    let path ← IO.FS.realPath path
    return (← path.pathExists) && !(← path.isDir)
  catch _ => return false

def readText (path : String) : IO (Except FileError String) := do
  if ← isDirectory path then return .error .isADirectory
  try
    match String.fromUTF8? (← IO.FS.readBinFile path) with
    | some text => return .ok text
    | none => return .error .notText
  catch e => return .error (.ofIO e)

def writeText (path text : String) : IO (Except FileError Unit) := do
  try return .ok (← IO.FS.writeFile path text) catch e => return .error (.ofIO e)

def Job.perform {α : Type} : Job α → IO α
  | .done a => return a
  | .listing path next => do
    if ← isDirectory path then (next (some (← listDirectory path))).perform else (next none).perform
  | .read path next => do (next (← readText path)).perform
  | .isFile path next => do (next (← isFileAt path)).perform
  | .write path text next => do (next (← writeText path text)).perform

end Unwire

def main (args : List String) : IO UInt32 := do
  let outcome ← (Unwire.CommandLine.run .typeScript args).perform
  IO.print outcome.output
  IO.eprint outcome.errors
  return if outcome.failed then 1 else 0
