import Unwire.Path

namespace Unwire

inductive Content where
  | text (s : String)
  | binary (bytes : List UInt8)
  deriving DecidableEq, Repr

inductive Entry (α : Type) where
  | file (content : α)
  | directory (entries : List (String × Entry α))

inductive FileError where
  | notFound
  | notADirectory
  | isADirectory
  | notText
  | other (description : String)
  deriving DecidableEq, Repr

def FileError.message : FileError → String
  | notFound => "No such file or directory (os error 2)"
  | notADirectory => "Not a directory (os error 20)"
  | isADirectory => "Is a directory (os error 21)"
  | notText => "stream did not contain valid UTF-8"
  | other description => description

namespace Entry

variable {α : Type}

def isDirectory : Entry α → Bool
  | file _ => false
  | directory _ => true

def entries : Entry α → List (String × Entry α)
  | file _ => []
  | directory es => es

def find? : List String → Entry α → Option (Entry α)
  | [], e => some e
  | name :: names, e => (e.entries.lookup name).bind (find? names)

def assign {β : Type} (name : String) (b : β) : List (String × β) → List (String × β)
  | [] => [(name, b)]
  | (other, x) :: rest => if other == name then (name, b) :: rest else (other, x) :: assign name b rest

/-- Puts an entry at a list of names, with the directories that are missing on the way. -/
def put (new : Entry α) : List String → Entry α → Entry α
  | [], _ => new
  | name :: names, e =>
    directory (assign name (put new names ((e.entries.lookup name).getD (directory []))) e.entries)

def erase : List String → Entry α → Entry α
  | name :: names, directory es =>
    directory <| if names.isEmpty then es.filter (·.1 != name)
      else es.map fun (other, e) => (other, if other == name then erase names e else e)
  | _, e => e

mutual

def shape : Entry α → Entry Unit
  | file _ => file ()
  | directory es => directory (shapes es)

def shapes : List (String × Entry α) → List (String × Entry Unit)
  | [] => []
  | (name, e) :: rest => (name, shape e) :: shapes rest

end

end Entry

abbrev FileTree := Entry Content

namespace FileTree

def empty : FileTree := .directory []

/-- The names that lead to the end of a path which starts at `place`. All but the last have to be directories. -/
def resolveFrom (root : FileTree) : List String → List String → Except FileError (List String)
  | place, [] => .ok place
  | place, name :: names =>
    match root.find? place with
    | some (.directory es) =>
      if name == "" || name == "." then resolveFrom root place names
      else if name == ".." then resolveFrom root place.dropLast names
      else if (es.lookup name).isSome then resolveFrom root (place ++ [name]) names
      else .error .notFound
    | _ => .error .notADirectory

def segments (path : String) : List String := (Path.segments path.toList).map .ofList

def resolve (root : FileTree) (path : String) : Except FileError (List String) :=
  if path.isEmpty then .error .notFound else root.resolveFrom [] (segments path)

def get (root : FileTree) (path : String) : Except FileError (Entry Content) := do
  match root.find? (← root.resolve path) with
  | some e => return e
  | none => throw .notFound

def isFile (root : FileTree) (path : String) : Bool :=
  match root.get path with
  | .ok (.file _) => true
  | _ => false

def listing? (root : FileTree) (path : String) : Option (Entry Unit) :=
  match root.get path with
  | .ok (.directory es) => some (Entry.directory es).shape
  | _ => none

def read (root : FileTree) (path : String) : Except FileError String := do
  match ← root.get path with
  | .file (.text s) => return s
  | .file (.binary _) => throw .notText
  | .directory _ => throw .isADirectory

/-- Where a file that is to be written goes; its directory has to be there. -/
def target (root : FileTree) (path : String) : Except FileError (List String) :=
  match root.resolve path, Path.split? path.toList with
  | .error .notFound, some (parent, name) => do
    let place ← if parent.isEmpty then pure [] else root.resolve (.ofList parent)
    return place ++ [.ofList name]
  | place, _ => place

def write (root : FileTree) (path : String) (content : Content) : Except FileError FileTree := do
  let place ← root.target path
  match root.find? place with
  | some (.directory _) => throw .isADirectory
  | _ => return Entry.put (.file content) place root

def createFrom : FileTree → List String → List String → Except FileError FileTree
  | root, _, [] => .ok root
  | root, place, name :: names =>
    if name == "" || name == "." then createFrom root place names
    else if name == ".." then createFrom root place.dropLast names
    else
      let place := place ++ [name]
      match root.find? place with
      | none => createFrom (Entry.put (.directory []) place root) place names
      | some (.directory _) => createFrom root place names
      | some (.file _) => .error .notADirectory

def createDirectories (root : FileTree) (path : String) : Except FileError FileTree :=
  createFrom root [] (segments path)

def remove (root : FileTree) (path : String) : Except FileError FileTree := do
  return Entry.erase (← root.resolve path) root

end FileTree

end Unwire
