import Unwire.FileTree

namespace Unwire

/-- Work that ends in a value. Each step but the last looks at a file or writes one, and goes on with what it found. -/
inductive Job (α : Type) where
  | done (value : α)
  | listing (path : String) (next : Option (Entry Unit) → Job α)
  | read (path : String) (next : Except FileError String → Job α)
  | isFile (path : String) (next : Bool → Job α)
  | write (path text : String) (next : Except FileError Unit → Job α)

namespace Job

variable {α β : Type}

def bind : Job α → (α → Job β) → Job β
  | done a, f => f a
  | listing path next, f => .listing path fun r => (next r).bind f
  | read path next, f => .read path fun r => (next r).bind f
  | isFile path next, f => .isFile path fun r => (next r).bind f
  | write path text next, f => .write path text fun r => (next r).bind f

instance : Monad Job where
  pure := done
  bind := bind

/-- One step, and the files after it. A job that is done stays as it is. -/
def step : Job α → FileTree → Job α × FileTree
  | done a, files => (done a, files)
  | listing path next, files => (next (files.listing? path), files)
  | read path next, files => (next (files.read path), files)
  | isFile path next, files => (next (files.isFile path), files)
  | write path text next, files =>
    match files.write path (.text text) with
    | .ok files' => (next (.ok ()), files')
    | .error e => (next (.error e), files)

def run : Job α → FileTree → α × FileTree
  | done a, files => (a, files)
  | listing path next, files => (next (files.listing? path)).run files
  | read path next, files => (next (files.read path)).run files
  | isFile path next, files => (next (files.isFile path)).run files
  | write path text next, files =>
    match files.write path (.text text) with
    | .ok files' => (next (.ok ())).run files'
    | .error e => (next (.error e)).run files

theorem run_step (j : Job α) (files : FileTree) : (j.step files).1.run (j.step files).2 = j.run files := by
  cases j with
  | write path text next =>
    simp only [step, run]
    cases files.write path (.text text) <;> rfl
  | _ => rfl

theorem run_bind (j : Job α) (f : α → Job β) (files : FileTree) :
    (j.bind f).run files = (f (j.run files).1).run (j.run files).2 := by
  induction j generalizing files with
  | done a => rfl
  | write path text next ih =>
    simp only [bind, run]
    cases files.write path (.text text) <;> exact ih _ _
  | _ => rename_i ih; exact ih _ _

end Job

end Unwire
