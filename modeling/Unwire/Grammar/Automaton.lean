import Unwire.Grammar.Outlook

namespace Unwire.Grammar

/-- A production read up to `dot`, to be followed by one of `ahead`. -/
structure Item where
  production : Nat
  dot : Nat
  ahead : TokenSet
  deriving BEq, Hashable, Inhabited

inductive Action where
  /-- Read the token. With `again` the token only continues a repetition that a reduction also serves. -/
  | shift (again : Bool)
  | extra
  | reduce (production : Nat)
  | accept
  deriving BEq, Inhabited

structure State where
  kernel : Array Item
  fresh : Array TokenSet
  shiftable : TokenSet
  done : Array (Nat × TokenSet)
  reducible : TokenSet
  /-- The symbol that everything here reduces to, if the only thing to do is to rename one hidden node. -/
  chain : Option Nat
  deriving Inhabited

namespace Table

def rankedBy (t : Table) (e : Ranked) (l : Option Level) (heads : List Nat) : Bool :=
  match e with
  | .level name => l == some (.named name)
  | .rule name => heads.any fun h => (t.symbols.getD h default).name == name

def orderedBy (t : Table) (l : Option Level) (ls : List Nat) (r : Option Level) (rs : List Nat) :
    List Ranked → Bool → Bool → Option Ordering
  | [], _, _ => none
  | e :: es, sawLeft, sawRight =>
    if t.rankedBy e l ls then
      if sawRight then some .lt else t.orderedBy l ls r rs es true sawRight
    else if t.rankedBy e r rs then
      if sawLeft then some .gt else t.orderedBy l ls r rs es sawLeft true
    else t.orderedBy l ls r rs es sawLeft sawRight

/-- Numbers are compared with numbers, all else by the first order that knows both sides. -/
def compareLevels (t : Table) (l : Option Level) (ls : List Nat) (r : Option Level) (rs : List Nat) : Ordering :=
  let number : Option Level → Option Int
    | none => some 0
    | some (.rank n) => some n
    | some (.named _) => none
  match number l, number r with
  | some a, some b =>
    if a == 0 && b == 0 then ordered else compare a b
  | _, _ => ordered
where
  ordered := (t.orders.findSome? fun o => t.orderedBy l ls r rs o false false).getD .eq

end Table

namespace Outlook

def production (o : Outlook) (p : Nat) : Production := o.table.productions.getD p default

def next? (o : Outlook) (i : Item) : Option Nat :=
  (o.production i.production).steps[i.dot]?.map (·.symbol)

def stateOf (o : Outlook) (kernel : Array Item) : State :=
  let base := o.table.tokens.size
  let fresh := kernel.foldl (fun (fresh : Array TokenSet) i =>
    let steps := (o.production i.production).steps
    match steps[i.dot]? with
    | none => fresh
    | some s =>
      if s.symbol < base then fresh else
        let follow := match steps[i.dot + 1]? with
          | none => i.ahead
          | some s' => o.first.getD s'.symbol 0
        (o.leftmost.getD s.symbol #[]).foldl (fun fresh e =>
          fresh.modify (e.symbol - base) (· ||| e.inner ||| (if e.outer then follow else 0))) fresh)
    (Array.replicate (o.table.symbols.size - base) 0)
  let shiftable := kernel.foldl (fun m i =>
    match o.next? i with
    | none => m
    | some x => m ||| o.first.getD x 0) 0
  let done := kernel.filterMap fun i =>
    if (o.next? i).isNone then some (i.production, i.ahead) else none
  -- Only the whole text can be empty.
  let start := (o.production o.table.goal).steps.getD 0 (.plain 0) |>.symbol
  let ahead := fresh.getD (start - base) 0
  let done := if ahead == 0 then done else
    (o.productions.getD start #[]).foldl (fun d p =>
      if (o.production p).steps.isEmpty then d.push (p, ahead) else d) done
  let chain :=
    if shiftable != 0 then none else
      match done[0]? with
      | none => none
      | some (p, _) =>
        let head := (o.production p).head
        let simple := done.all fun (q, _) =>
          let q := o.production q
          q.head == head && q.bonus == 0 && q.steps.size == 1 &&
            q.steps.all (fun s => s.shown.isNone && s.field.isNone)
        if simple && !(o.table.symbols.getD head default).kept then some head else none
  { kernel, fresh, shiftable, done, reducible := done.foldl (fun m d => m ||| d.2) 0, chain }

structure Reductions where
  actions : Array Action := #[]
  level : Option Level := none
  heads : List Nat := []
  sides : List (Option Side) := []

def Reductions.add (o : Outlook) (r : Reductions) (p : Nat) : Reductions :=
  let q := o.production p
  if p == o.table.goal then { r with actions := r.actions.push .accept } else
    let level := q.steps.back?.bind (·.level)
    let side := q.steps.back?.bind (·.side)
    let only : Reductions := ⟨#[.reduce p], level, [q.head], [side]⟩
    if r.actions.isEmpty then only else
      match o.table.compareLevels level [q.head] r.level r.heads with
      | .gt => only
      | .lt => r
      | .eq => ⟨r.actions.push (.reduce p), level, q.head :: r.heads, side :: r.sides⟩

/-- What to do on a token. Where a token can both be read and end something, the levels of what is being
read and of what would end decide, then the side to which it groups; otherwise both ways are kept. -/
def actions (o : Outlook) (s : State) (token : Nat) : Array Action :=
  let has (m : TokenSet) : Bool := m.testBit token
  let r : Reductions := s.done.foldl (fun r d => if has d.2 then r.add o d.1 else r) {}
  if !has s.shiftable then
    if r.actions.isEmpty && has o.extras then #[.extra] else r.actions
  else if r.actions.isEmpty then #[.shift false]
  else
    let reading := s.kernel.filter fun i =>
      i.dot > 0 && match o.next? i with
        | none => false
        | some x => has (o.first.getD x 0)
    let ending := s.kernel.filter fun i => (o.next? i).isNone && has i.ahead
    let heads := (reading ++ ending).toList.map (fun i => (o.production i.production).head) |>.eraseDups
    match heads with
    | [h] => if h ≥ o.table.repeatBase then r.actions.push (.shift true) else resolve r reading
    | _ => resolve r reading
where
  resolve (r : Reductions) (reading : Array Item) : Array Action :=
    let orders := reading.toList.map fun i =>
      let q := o.production i.production
      o.table.compareLevels ((q.steps.getD (i.dot - 1) (.plain 0)).level) [q.head] r.level r.heads
    let more := orders.contains .gt
    let less := orders.contains .lt
    if more && !less then #[.shift false]
    else if less && !more then r.actions
    else if more && less then r.actions.push (.shift false)
    else if r.sides.all (· == some .left) then r.actions
    else if r.sides.all (· == some .right) then #[.shift false]
    else r.actions.push (.shift false)

def advance (o : Outlook) (s : State) (symbol : Nat) : Array Item :=
  let begun := (o.openers.getD symbol #[]).foldl (fun items (h, ps) =>
    let ahead := s.fresh.getD (h - o.table.tokens.size) 0
    if ahead == 0 then items else ps.foldl (fun items p => items.push ⟨p, 1, ahead⟩) items) #[]
  s.kernel.foldl (fun items i =>
    if o.next? i == some symbol then items.push { i with dot := i.dot + 1 } else items) begun

end Outlook

structure Automaton where
  outlook : Outlook
  states : Array State
  index : Std.HashMap (Array Item) Nat
  moves : Std.HashMap Nat (Option Nat)
  /-- By state and token. -/
  actions : Std.HashMap Nat (Array Action)
  deriving Inhabited

namespace Automaton

def start : Nat := 0

def ofGrammar (g : Grammar) : Automaton :=
  let o := Outlook.ofTable g.table
  let kernel := #[⟨o.table.goal, 0, TokenSet.single 0⟩]
  { outlook := o, states := #[o.stateOf kernel], index := ({} : Std.HashMap _ _).insert kernel 0,
    moves := {}, actions := {} }

abbrev Building := StateM Automaton

def stateAt (i : Nat) : Building State := fun a => (a.states.getD i default, a)

def intern (kernel : Array Item) : Building Nat := fun a =>
  match a.index[kernel]? with
  | some i => (i, a)
  | none =>
    let i := a.states.size
    let s := a.outlook.stateOf kernel
    (i, { a with states := a.states.push s, index := a.index.insert kernel i })

def directMove (state symbol : Nat) : Building (Option Nat) := do
  let s ← stateAt state
  let kernel := (← get).outlook.advance s symbol
  if kernel.isEmpty then return none
  return some (← intern kernel)

/-- Passes over states in which there is nothing to do but to rename one hidden node. -/
def settle (source : Nat) : Nat → Nat → Building Nat
  | 0, target => return target
  | fuel + 1, target => do
    match (← stateAt target).chain with
    | none => return target
    | some symbol =>
      match ← directMove source symbol with
      | none => return target
      | some next => settle source fuel next

def move (state symbol : Nat) : Building (Option Nat) := do
  let key := state * (← get).outlook.table.symbols.size + symbol
  match (← get).moves[key]? with
  | some r => return r
  | none =>
    let fuel := (← get).outlook.table.symbols.size
    let r ← match ← directMove state symbol with
      | none => pure none
      | some target => some <$> settle state fuel target
    modify fun a => { a with moves := a.moves.insert key r }
    return r

def actionsOn (state token : Nat) : Building (Array Action) := do
  let key := state * (← get).outlook.table.tokens.size + token
  match (← get).actions[key]? with
  | some r => return r
  | none =>
    let s ← stateAt state
    let r := (← get).outlook.actions s token
    modify fun a => { a with actions := a.actions.insert key r }
    return r

def expected (state : Nat) : Building TokenSet := do
  let s ← stateAt state
  return s.shiftable ||| s.reducible ||| (← get).outlook.extras

end Automaton

end Unwire.Grammar
