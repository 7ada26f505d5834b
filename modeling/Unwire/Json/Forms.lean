import Unwire.Config
import Unwire.Dependency
import Unwire.Edit.Basic
import Unwire.Json.Decoder
import Unwire.Json.Value

namespace Unwire

open Json (Decoder)
open Json.Decoder

namespace Edit

def toJson (e : Edit) : Json :=
  .object [("path", .string e.path), ("start", .number e.start), ("text", .string e.text)]

structure Draft where
  path : Option String := none
  start : Option Nat := none
  text : Option String := none

def Draft.finish (d : Draft) : Option Edit := do
  return ⟨← d.path, ← d.start, ← d.text⟩

def start64 : Decoder Nat := natural UInt64.size

def Draft.member (key : String) (d : Draft) : Decoder Draft := fun cs =>
  match key with
  | "path" => (once string d.path cs).map fun (v, rest) => ({ d with path := v }, rest)
  | "start" => (once start64 d.start cs).map fun (v, rest) => ({ d with start := v }, rest)
  | "text" => (once string d.text cs).map fun (v, rest) => ({ d with text := v }, rest)
  | _ => (ignored cs).map fun (_, rest) => (d, rest)

def ofObject : Decoder Edit := fun cs => do
  let (d, rest) ← members Draft.member {} cs
  return (← d.finish, rest)

def ofArray : Decoder Edit := fun cs => do
  let (path, rest) ← string (← expect '[' cs)
  let (start, rest) ← start64 (← expect ',' rest)
  let (text, rest) ← string (← expect ',' rest)
  return (⟨path, start, text⟩, ← expect ']' rest)

def decoder : Decoder Edit := fun cs => ofObject cs <|> ofArray cs

end Edit

namespace Dependency

def toJson (d : Dependency) : Json :=
  .object <| ("name", .string d.name) :: match d.typeName with
    | some type => [("type_name", .string type)]
    | none => []

structure Draft where
  name : Option String := none
  typeName : Option (Option String) := none

def Draft.finish (d : Draft) : Option Dependency := do
  return ⟨← d.name, d.typeName.getD none⟩

def Draft.member (key : String) (d : Draft) : Decoder Draft := fun cs =>
  match key with
  | "name" => (once string d.name cs).map fun (v, rest) => ({ d with name := v }, rest)
  | "type_name" => (once (optional string) d.typeName cs).map fun (v, rest) => ({ d with typeName := v }, rest)
  | _ => (ignored cs).map fun (_, rest) => (d, rest)

def ofObject : Decoder Dependency := fun cs => do
  let (d, rest) ← members Draft.member {} cs
  return (← d.finish, rest)

def ofArray : Decoder Dependency := fun cs => do
  let (name, rest) ← string (← expect '[' cs)
  match expect ']' rest with
  | some rest => return (⟨name, none⟩, rest)
  | none =>
    let (type, rest) ← optional string (← expect ',' rest)
    return (⟨name, type⟩, ← expect ']' rest)

def decoder : Decoder Dependency := fun cs => ofObject cs <|> ofArray cs

end Dependency

namespace SeparatorPolicy

def toJson (p : SeparatorPolicy) : Json := .string p.name

def ofString : Decoder SeparatorPolicy := fun cs => do
  let (name, rest) ← string cs
  return (← ofName? name, rest)

/-- The name may also be the only key of an object that holds `null`. -/
def ofObject : Decoder SeparatorPolicy := fun cs => do
  let (p, rest) ← ofString (← expect '\x7b' cs)
  let (_, rest) ← null (← expect ':' rest)
  return (p, ← expect '\x7d' rest)

def decoder : Decoder SeparatorPolicy := fun cs => ofString cs <|> ofObject cs

end SeparatorPolicy

namespace Config

def toJson (c : Config) : Json :=
  .object [("setup_prefix", .string c.setupPrefix), ("separator_policy", c.separators.toJson)]

structure Draft where
  setupPrefix : Option String := none
  separators : Option SeparatorPolicy := none

def Draft.finish (d : Draft) : Option Config := do
  return ⟨← d.setupPrefix, ← d.separators⟩

def Draft.member (key : String) (d : Draft) : Decoder Draft := fun cs =>
  match key with
  | "setup_prefix" => (once string d.setupPrefix cs).map fun (v, rest) => ({ d with setupPrefix := v }, rest)
  | "separator_policy" =>
    (once SeparatorPolicy.decoder d.separators cs).map fun (v, rest) => ({ d with separators := v }, rest)
  | _ => (ignored cs).map fun (_, rest) => (d, rest)

def ofObject : Decoder Config := fun cs => do
  let (d, rest) ← members Draft.member {} cs
  return (← d.finish, rest)

def ofArray : Decoder Config := fun cs => do
  let (start, rest) ← string (← expect '[' cs)
  let (separators, rest) ← SeparatorPolicy.decoder (← expect ',' rest)
  return (⟨start, separators⟩, ← expect ']' rest)

def decoder : Decoder Config := fun cs => ofObject cs <|> ofArray cs

end Config

end Unwire
