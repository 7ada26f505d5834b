import Unwire.Grammar.Production

namespace Unwire.Grammar

abbrev TokenSet := Nat

def TokenSet.single (token : Nat) : TokenSet := 1 <<< token

/-- A symbol at the left end of another. Inside the other it is followed by one of `inner`; where `outer`
holds it may also reach to the other's right end. -/
structure Leftmost where
  symbol : Nat
  inner : TokenSet
  outer : Bool
  deriving Inhabited

structure Outlook where
  table : Table
  first : Array TokenSet
  leftmost : Array (Array Leftmost)
  productions : Array (Array Nat)
  openers : Array (Array (Nat × Array Nat))
  extras : TokenSet
  deriving Inhabited

namespace Outlook

def firstLoop (pairs : List (Nat × Nat)) : Nat → Array TokenSet → Array TokenSet
  | 0, first => first
  | fuel + 1, first =>
    let next := pairs.foldl (fun (f : Array TokenSet) (a, b) =>
      f.modify a (· ||| f.getD b 0)) first
    if next == first then first else firstLoop pairs fuel next

def edges (t : Table) (first : Array TokenSet) (productions : Array Nat) : Array Leftmost :=
  productions.foldl (fun es p =>
    let steps := (t.productions.getD p default).steps
    match steps[0]? with
    | none => es
    | some s =>
      if t.isToken s.symbol then es else
        let inner := match steps[1]? with | none => 0 | some s' => first.getD s'.symbol 0
        match es.findIdx? fun e => e.symbol == s.symbol with
        | none => es.push ⟨s.symbol, inner, steps.size == 1⟩
        | some i => es.modify i fun e => ⟨e.symbol, e.inner ||| inner, e.outer || steps.size == 1⟩) #[]

def leftmostLoop (edges : Array (Array Leftmost)) :
    Nat → List Nat → Array (Option (TokenSet × Bool)) → Array (Option (TokenSet × Bool))
  | 0, _, found => found
  | _, [], found => found
  | fuel + 1, b :: work, found =>
    match found.getD b none with
    | none => leftmostLoop edges fuel work found
    | some (inner, outer) =>
      let next := (edges.getD b #[]).foldl (fun (acc : List Nat × Array (Option (TokenSet × Bool))) e =>
        let inner' := e.inner ||| (if e.outer then inner else 0)
        let outer' := e.outer && outer
        let seen := acc.2.getD e.symbol none
        let (i, o) := seen.getD (0, false)
        let now := (i ||| inner', o || outer')
        if seen.isSome && now == (i, o) then acc else (e.symbol :: acc.1, acc.2.setIfInBounds e.symbol (some now)))
        (work, found)
      leftmostLoop edges fuel next.1 next.2

def ofTable (t : Table) : Outlook :=
  let n := t.symbols.size
  let productions : Array (Array Nat) :=
    t.productions.foldl (fun (acc : Array (Array Nat) × Nat) p =>
      (acc.1.modify p.head (·.push acc.2), acc.2 + 1)) (Array.replicate n #[], 0) |>.1
  let pairs := distinct (t.productions.toList.filterMap fun p =>
    p.steps[0]?.map fun s => (p.head, s.symbol))
  let first := firstLoop pairs n (Array.ofFn fun i : Fin n => if t.isToken i then TokenSet.single i else 0)
  let edges := productions.map (edges t first)
  let leftmost : Array (Array Leftmost) := Array.ofFn fun i : Fin n =>
    let found := leftmostLoop edges (n * (t.tokens.size + 2)) [i.val]
      ((Array.replicate n none).setIfInBounds i (some (0, true)))
    (found.toList.zipIdx.filterMap fun (e, s) => e.map fun (inner, outer) => ⟨s, inner, outer⟩).toArray
  let openers : Array (Array (Nat × Array Nat)) :=
    (List.range t.productions.size).foldl (fun acc p =>
      let q := t.productions.getD p default
      match q.steps[0]? with
      | none => acc
      | some s => acc.modify s.symbol fun os =>
        match os.back? with
        | some (h, ps) => if h == q.head then os.pop.push (h, ps.push p) else os.push (q.head, #[p])
        | none => #[(q.head, #[p])]) (Array.replicate n #[])
  let extras := t.tokens.toList.zipIdx.foldl (fun m (k, i) =>
    match k with
    | .lexeme l => if l.extra then m ||| TokenSet.single i else m
    | _ => m) 0
  { table := t, first, leftmost, productions, openers, extras }

end Outlook

end Unwire.Grammar
