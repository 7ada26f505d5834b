import Unwire.Text.Offset

namespace Unwire.Path

/-- Drops slashes and names that stay in place from the end of a path, read backwards. A single slash, or a single dot,
at the front of the path stays. -/
def settle : List Char → List Char
  | '/' :: c :: r => settle (c :: r)
  | '.' :: '/' :: c :: r => settle (c :: r)
  | ['.', '/'] => ['/']
  | r => r

/-- The last name of a path and the path before it. A path that ends by going up or stays in place has none. -/
def split? (path : List Char) : Option (List Char × List Char) :=
  let r := settle path.reverse
  let name := (r.takeWhile (· != '/')).reverse
  if name == [] || name == ['.'] || name == ['.', '.'] then none
  else some ((settle (r.dropWhile (· != '/'))).reverse, name)

def join (path name : List Char) : List Char :=
  match path.getLast? with
  | none => name
  | some '/' => path ++ name
  | some _ => path ++ '/' :: name

/-- A name without its extension, and the extension: what follows the last dot, unless that dot comes first. -/
def divide (name : List Char) : List Char × Option (List Char) :=
  let r := name.reverse
  match r.dropWhile (· != '.') with
  | '.' :: c :: before => ((c :: before).reverse, some (r.takeWhile (· != '.')).reverse)
  | _ => (name, none)

def segments : List Char → List (List Char)
  | [] => [[]]
  | c :: cs =>
    if c == '/' then [] :: segments cs
    else match segments cs with
      | name :: names => (c :: name) :: names
      | [] => [[c]]

def below (directory name : String) : String := .ofList (join directory.toList name.toList)

def fileName? (path : String) : Option String :=
  (split? path.toList).map fun (_, name) => .ofList name

def extension? (path : String) : Option String :=
  (split? path.toList).bind fun (_, name) => (divide name).2.map .ofList

/-- The name of the spec file that belongs to a class file: `.spec` goes before the extension, which is `.ts` where
there is none. -/
def specName (name : List Char) : List Char :=
  (divide name).1 ++ ".spec".toList ++ '.' :: (divide name).2.getD ['t', 's']

def spec (path : String) : String :=
  let (parent, name) := (split? path.toList).getD (path.toList, [])
  .ofList (join parent (specName name))

end Unwire.Path

namespace Unwire

inductive Dialect where
  | plain
  | markup
  deriving DecidableEq, Repr

def Dialect.ofPath (path : String) : Dialect :=
  if Path.extension? path == some "tsx" then .markup else .plain

end Unwire
