import Unwire.Dependency
import Unwire.Edit.Basic
import Unwire.Setup

namespace Unwire

open Syntax

inductive UpdateError where
  | setupNotFound (path setupPrefix : String)
  | instantiationNotFound (path setup className : String)
  deriving DecidableEq, Repr

def UpdateError.message : UpdateError → String
  | setupNotFound path start =>
    s!"{path}: there is no `{start}*` function in the source file, cannot update it"
  | instantiationNotFound path setup className =>
    s!"{path}: `{setup}` never calls `new {className}(...)`, cannot update it"

structure UpdatePlan where
  setup : String
  wired : List String
  stale : List String
  unwired : List Dependency
  edits : List Edit
  deriving DecidableEq, Repr

namespace UpdatePlan

def ofTree (t : SyntaxTree) (path : String) (desired : List Dependency) (className : String) (config : Config) :
    Except UpdateError UpdatePlan :=
  match t.findSetup? config.setupPrefix with
  | none => .error (.setupNotFound path config.setupPrefix)
  | some setup =>
    match t.findInstantiation? setup.node className with
    | none => .error (.instantiationNotFound path setup.name className)
    | some instantiation =>
      let wired := t.wiredNames instantiation
      let stale := staleNames wired desired
      .ok {
        setup := setup.name
        wired, stale
        unwired := unwiredDependencies wired desired
        edits := (Removal.plan t setup.node stale config.separators).map (Edit.ofRemoval path t) }

def make (reader : Reader) (path text : String) (desired : List Dependency) (className : String) (config : Config) :
    Except UpdateError UpdatePlan :=
  ofTree (.read reader path text) path desired className config

end UpdatePlan

end Unwire
