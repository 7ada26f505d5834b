import Unwire.Grammar.Production
import Unwire.Scan.Source

namespace Unwire.Parse

open Unwire.Grammar (Table Step)
open Unwire.Scan (Source)

inductive Label where
  | symbol (number : Nat)
  | skipped
  | fault
  deriving DecidableEq, Inhabited

def Label.order : Label → Label → Ordering
  | .symbol a, .symbol b => compare a b
  | .symbol _, _ => .lt
  | _, .symbol _ => .gt
  | .skipped, .skipped | .fault, .fault => .eq
  | .skipped, .fault => .lt
  | .fault, .skipped => .gt

def Label.isFaulty : Label → Bool
  | .symbol _ => false
  | _ => true

structure Info where
  label : Label
  production : Option Nat
  lead : Nat
  start : Nat
  stop : Nat
  weight : Int
  extra : Bool
  missing : Bool
  keyword : Bool
  faults : Nat
  /-- The number of children, and of all descendants, that will be nodes of the tree. -/
  children : Nat
  descendants : Nat
  deriving Inhabited

inductive Piece where
  | mk (info : Info) (parts : List Piece)
  deriving Inhabited

namespace Cost

def recovery : Nat := 500
def missing : Nat := 110
def tree : Nat := 100
def byte : Nat := 1
def row : Nat := 30

/-- Readings further apart than this are not pursued side by side. -/
def tolerance : Nat := 1800

end Cost

namespace Piece

def info : Piece → Info
  | mk i _ => i

def parts : Piece → List Piece
  | mk _ ps => ps

def label (p : Piece) : Label := p.info.label

def isFault (p : Piece) : Bool := p.label == .fault

def cost (p : Piece) : Nat :=
  if p.info.missing then Cost.missing + Cost.recovery else p.info.faults

def asExtra : Piece → Piece
  | mk i ps => mk { i with extra := true } ps

def addWeight (n : Int) : Piece → Piece
  | mk i ps => mk { i with weight := i.weight + n } ps

def visible (t : Table) (p : Piece) : Bool :=
  match p.label with
  | .symbol n => (t.symbols.getD n default).visible
  | .skipped => false
  | .fault => true

def progress (t : Table) (p : Piece) : Nat :=
  p.info.descendants + (if p.visible t then 1 else 0) + (if p.label == .skipped then 1 else 0)

def leaf (label : Label) (lead start stop : Nat) (missing keyword : Bool := false) : Piece :=
  mk { label, production := none, lead, start, stop, weight := 0, extra := label == .symbol 0,
       missing, keyword, faults := 0, children := 0, descendants := 0 } []

def skipCost (t : Table) (p : Piece) : Nat :=
  if p.info.extra || (p.isFault && p.parts.isEmpty) then 0
  else if p.visible t then Cost.tree
  else if p.parts.isEmpty then 0
  else Cost.tree * p.info.children

/-- Adds up the parts; `steps` are the steps of the production that non-extra parts stand for. -/
def summarize (t : Table) (faulty : Bool) : List Piece → List Step → Info → Info
  | [], _, i => i
  | p :: ps, steps, i =>
    let renamed := !p.info.extra && p.label != .symbol 0 && (steps.head?.bind (·.shown)).isSome
    let counts := renamed || p.visible t
    let i := { i with
      faults := i.faults + (if p.label == .skipped then 0 else p.cost) + (if faulty then p.skipCost t else 0)
      weight := i.weight + p.info.weight
      children := i.children + (if counts then 1 else p.info.children)
      descendants := i.descendants + p.info.descendants + (if counts then 1 else 0) }
    summarize t faulty ps (if p.info.extra then steps else steps.tail) i

def node (t : Table) (s : Source) (label : Label) (production : Option Nat) (pos : Nat) (parts : List Piece) :
    Piece :=
  let lead := (parts.head?.map (·.info.lead)).getD pos
  let start := (parts.head?.map (·.info.start)).getD pos
  let stop := (parts.getLast?.map (·.info.stop)).getD pos
  let steps := ((production.bind fun n => t.productions[n]?).map (·.steps.toList)).getD []
  let i := summarize t label.isFaulty parts steps
    { label, production, lead, start, stop, weight := 0, extra := false, missing := false, keyword := false,
      faults := 0, children := 0, descendants := 0 }
  let i := if label.isFaulty then
      { i with faults := i.faults + Cost.recovery + Cost.byte * (s.byteAt stop - s.byteAt start) +
          Cost.row * (s.rowAt stop - s.rowAt start) }
    else i
  mk i parts

mutual

/-- Compares the shapes of two pieces: label, number of parts, then parts in order. -/
def shape : Piece → Piece → Ordering
  | mk i ps, mk j qs =>
    (i.label.order j.label).then <| (compare ps.length qs.length).then <| shapes ps qs

def shapes : List Piece → List Piece → Ordering
  | p :: ps, q :: qs => (shape p q).then (shapes ps qs)
  | _, _ => .eq

end

/-- Whether the second reading of the same text is to be preferred. -/
def yieldsTo (p q : Piece) : Bool :=
  if p.cost != q.cost then q.cost < p.cost
  else if p.info.weight != q.info.weight then p.info.weight < q.info.weight
  else if p.cost > 0 then true
  else shape p q == .gt

def similar (p q : Piece) : Bool :=
  p.label == q.label &&
    ((p.cost > 0 && q.cost > 0) ||
      (p.info.start - p.info.lead == q.info.start - q.info.lead &&
        p.info.stop - p.info.start == q.info.stop - q.info.start &&
        p.parts.length == q.parts.length && p.info.extra == q.info.extra))

def splitExtras (ps : List Piece) : List Piece × List Piece :=
  let r := ps.reverse
  ((r.dropWhile (·.info.extra)).reverse, (r.takeWhile (·.info.extra)).reverse)

end Piece

end Unwire.Parse
