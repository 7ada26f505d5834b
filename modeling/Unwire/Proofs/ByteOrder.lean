import Mathlib.Tactic.SplitIfs
import Unwire.Proofs.ByteOffsets

namespace Unwire.Text

theorem lt_iff_digit (m n : Nat) : m < n ↔ m / 64 < n / 64 ∨ m / 64 = n / 64 ∧ m % 64 < n % 64 := by
  omega

theorem encode_lt_encode {c d : Char} (h : c < d) (rest rest' : List UInt8) :
    String.utf8EncodeChar c ++ rest < String.utf8EncodeChar d ++ rest' := by
  have hlt : c.val.toNat < d.val.toNat := UInt32.lt_iff_toNat_lt.mp h
  have hbound : d.val.toNat < 1114112 := by
    rcases d.valid with hsmall | ⟨-, hd⟩
    · exact Nat.lt_trans hsmall (by decide)
    · exact hd
  simp only [String.utf8EncodeChar]
  generalize c.val.toNat = m at *
  generalize d.val.toNat = n at *
  -- All bytes but the first one are digits to base 64, so the first digit that differs decides.
  have hdigits := hlt
  rw [lt_iff_digit, lt_iff_digit (m / 64), lt_iff_digit (m / 64 / 64)] at hdigits
  simp only [Nat.div_div_eq_div_mul, Nat.reduceMul] at hdigits
  split_ifs
  all_goals
    simp only [List.cons_append, List.nil_append, List.cons_lt_cons_iff, UInt8.lt_iff_toNat_lt, ← UInt8.toNat_inj,
      UInt8.toNat_ofNat']
    simp (disch := omega) only [Nat.mod_eq_of_lt]
    omega

theorem flatMap_encode_lt {cs ds : List Char} (h : cs < ds) :
    cs.flatMap String.utf8EncodeChar < ds.flatMap String.utf8EncodeChar := by
  induction h with
  | @nil d ds =>
      obtain ⟨b, bs, hd⟩ : ∃ b bs, String.utf8EncodeChar d = b :: bs := by
        rw [← List.length_pos_iff_exists_cons, String.length_utf8EncodeChar]
        exact d.utf8Size_pos
      rw [List.flatMap_nil, List.flatMap_cons, hd]
      exact List.nil_lt_cons b _
  | cons _ ih => exact List.append_left_lt ih
  | rel h => exact encode_lt_encode h _ _

theorem bytes_eq (s : String) : bytes s = s.toList.flatMap String.utf8EncodeChar := by
  rw [← bytes_ofList, String.ofList_toList]

theorem bytes_lt_iff {s t : String} : bytes s < bytes t ↔ s < t := by
  have hmono {s t : String} (h : s < t) : bytes s < bytes t := by
    rw [bytes_eq, bytes_eq]
    exact flatMap_encode_lt (String.lt_iff.mp h)
  refine ⟨fun h => ?_, hmono⟩
  rw [← String.not_le]
  intro hle
  by_cases hst : s ≤ t
  · rw [String.le_antisymm hst hle] at h
    exact List.lt_irrefl _ h
  · exact List.lt_asymm h (hmono (String.not_le.mp hst))

end Unwire.Text
