import Unwire.Edit.Basic
import Unwire.Text.Quoted

namespace Unwire

inductive EditError where
  | outOfBounds (start stop size : Nat)
  | overlapping (first second : Nat)
  | mismatch (start : Nat) (expected found : String)
  deriving DecidableEq, Repr

def EditError.message : EditError → String
  | outOfBounds start stop size => s!"edit {start}..{stop} is outside of the {size} byte document"
  | overlapping first second => s!"edits starting at {first} and {second} overlap"
  | mismatch start expected found =>
    s!"edit at {start} expected to remove " ++ Text.quoted expected ++ " but found " ++ Text.quoted found

namespace Edit

def checkText (text : List Char) (e : Edit) : Except EditError Unit :=
  match Text.slice? e.start e.stop text with
  | none => .error (.outOfBounds e.start e.stop (Text.width text))
  | some found =>
    if found == e.text.toList then .ok () else .error (.mismatch e.start e.text (.ofList found))

def checkOrder : List Edit → Except EditError Unit
  | e :: f :: rest =>
    if f.start < e.stop then .error (.overlapping e.start f.start) else checkOrder (f :: rest)
  | _ => .ok ()

def cut (offset : Nat) : List Edit → List Char → List Char
  | [], cs => cs
  | e :: rest, cs =>
    (Text.takeBytes? (e.start - offset) cs).getD [] ++
      cut e.stop rest ((Text.dropBytes? (e.stop - offset) cs).getD [])

def sorted (edits : List Edit) : List Edit := edits.mergeSort fun e f => e.start ≤ f.start

end Edit

/-- Removes the text of all edits. Refuses edits that are not in the text, remove another text than they find, or
overlap. -/
def applyEdits (text : String) (edits : List Edit) : Except EditError String := do
  let edits := Edit.sorted edits
  edits.forM (Edit.checkText text.toList)
  Edit.checkOrder edits
  return .ofList (Edit.cut 0 edits text.toList)

end Unwire
