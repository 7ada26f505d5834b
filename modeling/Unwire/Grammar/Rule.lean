import Unwire.Grammar.Lexeme

namespace Unwire

namespace Grammar

/-- How strongly a step binds: by number, or by a name that the grammar's orders place. -/
inductive Level where
  | rank (n : Int)
  | named (name : String)
  deriving DecidableEq, Hashable, Repr

inductive Side where
  | left
  | right
  deriving DecidableEq, Hashable, Repr

inductive Rule where
  | blank
  | literal (text : String)
  | lexeme (token : Lexeme)
  | rule (name : String)
  | seq (first second : Rule)
  | alt (first second : Rule)
  | plus (body : Rule)
  | field (name : String) (body : Rule)
  | shown (name : String) (body : Rule)
  | level (l : Level) (side : Option Side) (body : Rule)
  | bonus (n : Int) (body : Rule)
  deriving DecidableEq, Hashable, Repr

instance : Coe String Rule := ⟨.rule⟩
instance : Coe Lexeme Rule := ⟨.lexeme⟩
instance : Coe String Level := ⟨.named⟩
instance (n : Nat) : OfNat Level n := ⟨.rank n⟩

def t (text : String) : Rule := .literal text

def seq : List Rule → Rule
  | [] => .blank
  | r :: rs => rs.foldl .seq r

def oneOf : List Rule → Rule
  | [] => .blank
  | r :: rs => rs.foldl .alt r

def opt (r : Rule) : Rule := .alt r .blank

def plus (r : Rule) : Rule := .plus r

def star (r : Rule) : Rule := opt (.plus r)

def commaSep (r : Rule) : Rule := seq [r, star (seq [t ",", r])]

def field (name : String) (r : Rule) : Rule := .field name r

def shown (name : String) (r : Rule) : Rule := .shown name r

def prec (l : Level) (r : Rule) : Rule := .level l none r

def left (l : Level) (r : Rule) : Rule := .level l (some .left) r

def right (l : Level) (r : Rule) : Rule := .level l (some .right) r

def bonus (n : Int) (r : Rule) : Rule := .bonus n r

inductive Ranked where
  | level (name : String)
  | rule (name : String)
  deriving DecidableEq, Repr

end Grammar

open Grammar in
/-- A grammar. The first rule is the whole text. -/
structure Grammar where
  rules : List (String × Rule)
  /-- Rules that make no node although their name does not begin with an underscore. -/
  hidden : List String
  inlined : List String
  /-- Words that are read like punctuation, without regard to what follows. -/
  unboundedWords : List String
  /-- Orders of levels, each from strongest to weakest. -/
  orders : List (List Ranked)

end Unwire
