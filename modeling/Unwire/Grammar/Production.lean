import Std.Data.HashMap
import Std.Data.HashSet
import Unwire.Grammar.Rule

namespace Unwire.Grammar

inductive Token where
  | stop
  | literal (text : String)
  | lexeme (l : Lexeme)
  deriving DecidableEq, Hashable, Repr

structure Step where
  symbol : Nat
  level : Option Level
  side : Option Side
  shown : Option String
  field : Option String
  deriving DecidableEq, Hashable, Repr

def Step.plain (symbol : Nat) : Step := ⟨symbol, none, none, none, none⟩

structure Way where
  steps : List Step
  bonus : Int
  deriving DecidableEq, Hashable, Repr

namespace Way

def empty : Way := ⟨[], 0⟩

def single (symbol : Nat) : Way := ⟨[.plain symbol], 0⟩

/-- Of two weights the larger in size counts, of equal ones the outer or earlier. -/
def heavier (a b : Int) : Int := if a.natAbs < b.natAbs then b else a

def append (p q : Way) : Way := ⟨p.steps ++ q.steps, heavier p.bonus q.bonus⟩

def withField (name : String) (w : Way) : Way :=
  { w with steps := w.steps.map fun s => { s with field := s.field <|> some name } }

def withShown (name : String) (w : Way) : Way :=
  { w with steps := w.steps.map fun s => { s with shown := s.shown <|> some name } }

/-- A level holds for all steps inside, but the last one only if the rule ends there: what follows
such a step is already governed from outside. -/
def withLevel (l : Level) (side : Option Side) (last : Bool) (w : Way) : Way :=
  let steps := w.steps.map fun s => { s with level := s.level <|> some l, side := s.side <|> side }
  let steps := if last then steps else
    steps.modify (steps.length - 1) fun s =>
      { s with level := none, side := if side.isSome then none else s.side }
  { w with steps }

end Way

namespace Rule

def tokens : Rule → List Token
  | blank | rule _ => []
  | literal s => [.literal s]
  | lexeme l => [.lexeme l]
  | seq a b | alt a b => a.tokens ++ b.tokens
  | plus r | field _ r | shown _ r | level _ _ r | bonus _ r => r.tokens

def repeats : Rule → List Rule
  | blank | rule _ | literal _ | lexeme _ => []
  | seq a b | alt a b => a.repeats ++ b.repeats
  | plus r => r.repeats ++ [r]
  | field _ r | shown _ r | level _ _ r | bonus _ r => r.repeats

/-- All ways through a rule; `last` tells whether the enclosing rule ends with this one. -/
def ways (symbolOf : Rule → Nat) : Rule → Bool → List Way
  | blank, _ => [.empty]
  | seq a b, last => (a.ways symbolOf false).flatMap fun p => (b.ways symbolOf last).map p.append
  | alt a b, last => a.ways symbolOf last ++ b.ways symbolOf last
  | field name r, last => (r.ways symbolOf last).map (.withField name)
  | shown name r, last => (r.ways symbolOf last).map (.withShown name)
  | level l side r, last => (r.ways symbolOf last).map (.withLevel l side last)
  | bonus n r, last => (r.ways symbolOf last).map fun w => { w with bonus := Way.heavier n w.bonus }
  | r, _ => [.single (symbolOf r)]

end Rule

structure Production where
  head : Nat
  steps : Array Step
  bonus : Int
  deriving Repr, Inhabited

structure Symbol where
  name : String
  visible : Bool
  /-- Chains through this symbol are not shortened. -/
  kept : Bool
  deriving Repr, Inhabited

/-- The numbered form of a grammar. Tokens come first, then rules, then repetitions. -/
structure Table where
  tokens : Array Token
  symbols : Array Symbol
  repeatBase : Nat
  productions : Array Production
  goal : Nat
  words : Std.HashMap String Nat
  orders : List (List Ranked)
  deriving Inhabited

namespace Table

def word : Nat := 1

def isToken (t : Table) (symbol : Nat) : Bool := symbol < t.tokens.size

end Table

def distinct {α : Type} [BEq α] [Hashable α] (xs : List α) : List α :=
  (xs.foldl (fun (p : List α × Std.HashSet α) x =>
    if p.2.contains x then p else (x :: p.1, p.2.insert x)) ([], {})).1.reverse

def Way.inline (inlined : Std.HashMap Nat (List Way)) (w : Way) : List Way :=
  w.steps.foldl (fun ways s =>
    match inlined[s.symbol]? with
    | none => ways.map fun p => p.append ⟨[s], 0⟩
    | some bodies => ways.flatMap fun p => bodies.map fun body =>
      let steps := body.steps.map fun z =>
        { z with shown := s.shown <|> z.shown, field := s.field <|> z.field }
      let steps := steps.modify (steps.length - 1) fun z =>
        { z with level := z.level <|> s.level, side := z.side <|> s.side }
      p.append ⟨steps, body.bonus⟩) [⟨[], w.bonus⟩]

def isWord (s : String) : Bool :=
  match s.toList with
  | [] => false
  | c :: cs => (c.isAlpha || c == '_' || c == '$') && cs.all fun d => d.isAlphanum || d == '_' || d == '$'

/-- The token that a rule consists of, if nothing else uses that token. -/
def tokenRules (g : Grammar) : List (String × Token) :=
  let uses := g.rules.flatMap fun (_, r) => r.tokens
  let count := uses.foldl (fun (m : Std.HashMap Token Nat) t => m.insert t (m.getD t 0 + 1)) {}
  g.rules.tail.filterMap fun (name, r) =>
    match r with
    | .literal _ | .lexeme _ =>
      match r.tokens with
      | [t] => if count.getD t 0 == 1 then some (name, t) else none
      | _ => none
    | _ => none

def isContextual : Token → Bool
  | .lexeme l => Lexeme.contextual.contains l
  | _ => false

def tokens (g : Grammar) : List Token :=
  let used := distinct (g.rules.flatMap fun (_, r) => r.tokens)
  [.stop, .lexeme .identifier] ++
    used.filter (fun t => !isContextual t && t != .lexeme .identifier) ++
    Lexeme.contextual.map .lexeme

def tokenName (tokenRules : List (String × Token)) (t : Token) : String :=
  match tokenRules.find? fun p => p.2 == t with
  | some (name, _) => name
  | none =>
    match t with
    | .stop => "end"
    | .literal s => s
    | .lexeme l => l.kind

def table (g : Grammar) : Table :=
  let tokens := g.tokens.toArray
  let tokenRules := g.tokenRules
  let tokenNumber : Std.HashMap Token Nat :=
    (tokens.toList.zipIdx).foldl (fun m (t, i) => m.insert t i) {}
  let rules := g.rules.filter fun (name, _) => !tokenRules.any fun p => p.1 == name
  let repeats := distinct (rules.flatMap fun (_, r) => r.repeats)
  let ruleBase := tokens.size
  let repeatBase := ruleBase + rules.length
  let goalHead := repeatBase + repeats.length
  let number : Std.HashMap Rule Nat :=
    ((rules.map fun p => Rule.rule p.1) ++ repeats.map Rule.plus).zipIdx.foldl
      (fun m (r, i) => m.insert r (ruleBase + i)) {}
  let number := tokenNumber.fold (fun m t i =>
    match t with
    | .stop => m
    | .literal s => m.insert (Rule.literal s) i
    | .lexeme l => m.insert (Rule.lexeme l) i) number
  let number := tokenRules.foldl (fun m (name, t) => m.insert (Rule.rule name) (tokenNumber.getD t 0)) number
  let symbolOf (r : Rule) : Nat := number.getD r 0
  let hiddenName (name : String) : Bool := name.startsWith "_" || g.hidden.contains name
  let bodies : List (Nat × List Way) :=
    (rules.zipIdx.map fun ((_, r), i) => (ruleBase + i, distinct (r.ways symbolOf true))) ++
    (repeats.zipIdx.map fun (r, i) =>
      let self := repeatBase + i
      (self, distinct (⟨[.plain self, .plain self], 0⟩ :: r.ways symbolOf true)))
  let inlinedNumbers := g.inlined.map fun name => symbolOf (.rule name)
  let inlined : Std.HashMap Nat (List Way) :=
    bodies.foldl (fun m (h, ws) => if inlinedNumbers.contains h then m.insert h ws else m) {}
  let close (ws : List Way) : List Way :=
    distinct (inlinedNumbers.foldl (fun ws _ =>
      if ws.any fun w => w.steps.any fun s => inlined.contains s.symbol then
        ws.flatMap (Way.inline inlined) else ws) ws)
  let productions : List Production := bodies.flatMap fun (h, ws) =>
    if inlined.contains h then [] else
      (close ws).map fun w => ⟨h, w.steps.toArray, w.bonus⟩
  let renamed : Std.HashSet Nat := productions.foldl (fun m p =>
    p.steps.foldl (fun m s => if s.shown.isSome then m.insert s.symbol else m) m) {}
  let symbols : List Symbol :=
    (tokens.toList.map fun t =>
      let name := tokenName tokenRules t
      ⟨name, match t with | .stop => false | .literal _ => true | .lexeme _ => !name.startsWith "_", true⟩) ++
    (rules.zipIdx.map fun ((name, _), i) =>
      ⟨name, !hiddenName name, !name.startsWith "_" || renamed.contains (ruleBase + i)⟩) ++
    (repeats.map fun _ => ⟨"", false, false⟩) ++ [⟨"", false, true⟩]
  { tokens
    symbols := symbols.toArray
    repeatBase
    productions := productions.toArray.push ⟨goalHead, #[.plain ruleBase], 0⟩
    goal := productions.length
    words := tokens.toList.zipIdx.foldl (fun m (t, i) =>
      match t with
      | .literal s => if isWord s && !g.unboundedWords.contains s then m.insert s i else m
      | _ => m) {}
    orders := g.orders }

end Unwire.Grammar
