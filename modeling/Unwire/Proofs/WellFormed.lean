import Unwire.Proofs.ByteOffsets
import Unwire.Proofs.TreeOrder
import Unwire.Scan.Lexeme

namespace Unwire.Syntax.SyntaxTree

open Unwire.Text (IsBoundary charAt?)

/-- Commas are tokens, and names are words: nothing is below a comma, and a name has a text and holds no other name. -/
structure Named (t : SyntaxTree) : Prop extends t.Nested where
  comma_leaf : ∀ {i : NodeId}, (t.node i).kind = .comma → t.children i = []
  name_nonempty : ∀ {i : NodeId}, (t.node i).kind = .identifier → (t.node i).start < (t.node i).stop
  name_not_nested : ∀ {i j : NodeId}, (t.node i).kind = .identifier → j ∈ t.descendants i →
    (t.node j).kind = .identifier → j = i

def startsWithoutComma : Kind → Bool
  | .comment | .identifier | .variableStatement => true
  | _ => false

/-- Nodes start and end between characters, every character that is no gap is in a leaf, and no comment, name or
variable statement starts with a comma. -/
structure WellFormed (t : SyntaxTree) : Prop extends t.Named where
  boundary : ∀ i : NodeId, IsBoundary (t.node i).start t.text ∧ IsBoundary (t.node i).stop t.text
  covered : ∀ {n : Nat} {c : Char}, charAt? n t.text = some c → Scan.isGap c = false →
    ∃ i < t.nodes.size, t.children i = [] ∧ (t.node i).start ≤ n ∧ n < (t.node i).stop
  no_comma_start : ∀ {i : NodeId}, startsWithoutComma (t.node i).kind = true →
    charAt? (t.node i).start t.text ≠ some ','

def CommaTokens (t : SyntaxTree) : Prop :=
  ∀ i : NodeId, (t.node i).kind = .identifier ∨ (t.node i).kind = .variableStatement →
    charAt? (t.node i).stop t.text = some ',' → ∃ c < t.nodes.size, (t.node c).kind = .comma ∧
      (t.node c).start = (t.node i).stop ∧ (t.node c).stop = (t.node i).stop + 1

section Decidable

variable (t : SyntaxTree)

instance : Decidable t.Named :=
  decidable_of_iff
    (t.Nested ∧ ∀ i < t.nodes.size, ((t.node i).kind = .comma → t.children i = []) ∧
      ((t.node i).kind = .identifier → (t.node i).start < (t.node i).stop ∧
        ∀ j ∈ t.descendants i, (t.node j).kind = .identifier → j = i)) <| by
    rw [t.forall_node_iff fun i hi => by
      simp [node_of_size_le hi, default, instInhabitedNode.default, instInhabitedKind.default]]
    exact ⟨fun h => ⟨h.1, fun {i} hk => (h.2 i).1 hk, fun {i} hk => ((h.2 i).2 hk).1,
      fun {i j} hk => ((h.2 i).2 hk).2 j⟩,
      fun h => ⟨h.toNested, fun i => ⟨h.comma_leaf, fun hk => ⟨h.name_nonempty hk, fun _ => h.name_not_nested hk⟩⟩⟩⟩

def isCovered (n : Nat) : Bool :=
  (List.range t.nodes.size).any fun i =>
    (t.children i).isEmpty && (t.node i).start ≤ n && n < (t.node i).stop

theorem isCovered_iff {n : Nat} :
    t.isCovered n = true ↔ ∃ i < t.nodes.size, t.children i = [] ∧ (t.node i).start ≤ n ∧ n < (t.node i).stop := by
  simp [isCovered, and_assoc]

instance : Decidable t.WellFormed :=
  decidable_of_iff
    (t.Named ∧
      (∀ i < t.nodes.size, (IsBoundary (t.node i).start t.text ∧ IsBoundary (t.node i).stop t.text) ∧
        (startsWithoutComma (t.node i).kind = true → charAt? (t.node i).start t.text ≠ some ',')) ∧
      ∀ n < Text.width t.text, (charAt? n t.text).all (fun c => Scan.isGap c || t.isCovered n) = true) <| by
    rw [t.forall_node_iff fun i hi => by
      simp [node_of_size_le hi, default, instInhabitedNode.default, instInhabitedKind.default, startsWithoutComma,
        Text.isBoundary_zero]]
    constructor
    · rintro ⟨hnamed, hnode, hcovered⟩
      refine ⟨hnamed, fun i => (hnode i).1, fun {n c} hc hgap => ?_, fun {i} => (hnode i).2⟩
      have hall := hcovered n (Text.lt_width_of_charAt hc)
      rw [hc, Option.all_some, hgap, Bool.false_or] at hall
      exact t.isCovered_iff.mp hall
    · intro h
      refine ⟨h.toNamed, fun i => ⟨h.boundary i, h.no_comma_start⟩, fun n _ => ?_⟩
      cases hc : charAt? n t.text with
      | none => rfl
      | some c =>
          cases hgap : Scan.isGap c with
          | true => simp [hgap]
          | false => simp [t.isCovered_iff.mpr (h.covered hc hgap)]

instance : Decidable t.CommaTokens :=
  decidable_of_iff
    (∀ i < t.nodes.size, (t.node i).kind = .identifier ∨ (t.node i).kind = .variableStatement →
      charAt? (t.node i).stop t.text = some ',' → ∃ c < t.nodes.size, (t.node c).kind = .comma ∧
        (t.node c).start = (t.node i).stop ∧ (t.node c).stop = (t.node i).stop + 1) <|
    t.forall_node_iff fun i hi => by
      simp [node_of_size_le hi, default, instInhabitedNode.default, instInhabitedKind.default]

end Decidable

end Unwire.Syntax.SyntaxTree
