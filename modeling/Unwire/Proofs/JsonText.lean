import Unwire.Json.Decoder
import Unwire.Json.Value

namespace Unwire.Json

namespace Decoder

variable {c d : Char} {rest : List Char}

theorem skipBlanks_cons (hc : isBlank c = false) (rest : List Char) : skipBlanks (c :: rest) = c :: rest := by
  rw [skipBlanks, List.dropWhile_cons, if_neg (by simp [hc])]

theorem expect_cons (hc : isBlank c = false) (rest : List Char) : expect c (c :: rest) = some rest := by
  rw [expect, skipBlanks_cons hc]
  simp

theorem expect_cons_of_ne (hd : isBlank d = false) (hne : c ≠ d) (rest : List Char) : expect c (d :: rest) = none := by
  rw [expect, skipBlanks_cons hd]
  simp [hne]

theorem hexDigit?_digitChar : ∀ n < 16, hexDigit? (Nat.digitChar n) = some n := by decide

theorem unit?_control (hc : c < ' ') :
    unit? '0' '0' (Nat.digitChar (c.toNat / 16)) (Nat.digitChar (c.toNat % 16)) = some c.toNat := by
  have hlt : c.toNat < 32 := hc
  have hzero : hexDigit? '0' = some 0 := by decide
  rw [unit?, hzero, hexDigit?_digitChar _ (by omega), hexDigit?_digitChar _ (by omega)]
  simp
  omega

def letters : List (Char × Char) :=
  [('"', '"'), ('\\', '\\'), ('\x08', 'b'), ('\t', 't'), ('\n', 'n'), ('\x0c', 'f'), ('\r', 'r')]

theorem escape_of_letter {k : Char} (h : (c, k) ∈ letters) : k ≠ 'u' ∧ escaped? k = some c ∧ escape c = ['\\', k] := by
  simp only [letters, List.mem_cons, Prod.mk.injEq, List.not_mem_nil, or_false] at h
  obtain ⟨rfl, rfl⟩ | ⟨rfl, rfl⟩ | ⟨rfl, rfl⟩ | ⟨rfl, rfl⟩ | ⟨rfl, rfl⟩ | ⟨rfl, rfl⟩ | ⟨rfl, rfl⟩ := h
  all_goals decide

theorem escape_of_not_letter (h : ∀ p ∈ letters, c ≠ p.1) : escape c =
    if c < ' ' then ['\\', 'u', '0', '0', Nat.digitChar (c.toNat / 16), Nat.digitChar (c.toNat % 16)] else [c] := by
  simp only [letters, List.forall_mem_cons] at h
  obtain ⟨hquote, hslash, hb, ht, hn, hf, hr, -⟩ := h
  simp only [escape, beq_iff_eq, hquote, hslash, hb, ht, hn, hf, hr, if_false]

theorem readChars_escape (c : Char) (rest : List Char) : readChars (escape c ++ rest) = before c (readChars rest) := by
  by_cases hletter : ∃ p ∈ letters, c = p.1
  · obtain ⟨⟨_, k⟩, hmem, rfl⟩ := hletter
    obtain ⟨hk, hescaped, h⟩ := escape_of_letter hmem
    rw [h, List.cons_append, List.singleton_append, readChars.eq_def]
    dsimp only
    rw [if_neg (by decide), if_neg (by decide), if_pos (by simpa using hk), hescaped, Option.bind_some]
  · -- Other control characters are written by their numbers, which are no surrogates.
    have hnot : ∀ p ∈ letters, c ≠ p.1 := fun p hp heq => hletter ⟨p, hp, heq⟩
    rw [escape_of_not_letter hnot]
    split
    · next hcontrol =>
        have hlt : c.toNat < 32 := hcontrol
        have hlow : isLowSurrogate c.toNat = false := by
          rw [isLowSurrogate, decide_eq_false (by omega), Bool.false_and]
        have hhigh : isHighSurrogate c.toNat = false := by
          rw [isHighSurrogate, decide_eq_false (by omega), Bool.false_and]
        simp only [List.cons_append, List.nil_append]
        rw [readChars.eq_def]
        dsimp only
        rw [if_neg (by decide), if_neg (by decide), if_neg (by decide), unit?_control hcontrol, Option.bind_some, hlow,
          hhigh, Char.ofNat_toNat]
        rfl
    · next hcontrol =>
        have hquote : c ≠ '"' := hnot ('"', '"') (by simp [letters])
        have hslash : c ≠ '\\' := hnot ('\\', '\\') (by simp [letters])
        rw [List.singleton_append, readChars.eq_def]
        dsimp only
        rw [if_neg (by simpa using hquote), if_pos (by simpa using hslash), if_neg hcontrol]

theorem readChars_quote (rest : List Char) : readChars ('"' :: rest) = some ([], rest) := by
  rw [readChars.eq_def]
  rfl

theorem readChars_written (cs rest : List Char) : readChars (cs.flatMap escape ++ '"' :: rest) = some (cs, rest) := by
  induction cs with
  | nil => exact readChars_quote rest
  | cons c cs ih =>
      rw [List.flatMap_cons, List.append_assoc, readChars_escape, ih]
      rfl

theorem string_written (s : String) (rest : List Char) : string (writeString s ++ rest) = some (s, rest) := by
  rw [writeString, List.cons_append, List.append_assoc, List.singleton_append, string, expect_cons (by decide)]
  simp [readChars_written]

theorem digitsValue_toDigits (n : Nat) : digitsValue (Nat.toDigits 10 n) = n := by
  have h := Nat.ofDigitChars_ten_toDigits (n := n)
  rwa [Nat.ofDigitChars_eq_foldl] at h

theorem head?_toDigits (n : Nat) (hn : 0 < n) : (Nat.toDigits 10 n).head? ≠ some '0' := by
  induction n using Nat.strongRecOn with
  | ind n ih =>
      by_cases h : n < 10
      · rw [Nat.toDigits_of_lt_base h, List.head?_cons, ne_eq, Option.some.injEq, Nat.digitChar_eq_zero]
        omega
      · rw [Nat.toDigits_of_base_le (by decide) (by omega), List.head?_append,
          Option.or_of_isSome (by simp [Nat.toDigits_ne_nil])]
        exact ih (n / 10) (by omega) (by omega)

theorem isBlank_of_isDigit (hc : c.isDigit = true) : isBlank c = false := by
  have hne (d : Char) (hd : d.isDigit = false) : (c == d) = false := by
    apply beq_false_of_ne
    rintro rfl
    rw [hc] at hd
    cases hd
  rw [isBlank, hne ' ' rfl, hne '\n' rfl, hne '\t' rfl, hne '\r' rfl]
  rfl

/-- The text after a number does not go on with the number. -/
def EndsNumber (rest : List Char) : Prop :=
  ∀ c ∈ rest.head?, c.isDigit = false ∧ c ≠ '.' ∧ c ≠ 'e' ∧ c ≠ 'E'

theorem skipBlanks_digits (n : Nat) (rest : List Char) :
    skipBlanks (Nat.toDigits 10 n ++ rest) = Nat.toDigits 10 n ++ rest := by
  obtain ⟨d, ds, hd⟩ := List.exists_cons_of_ne_nil (Nat.toDigits_ne_nil (n := n) (b := 10))
  have hdigit : d.isDigit = true := by
    apply Nat.isDigit_of_mem_toDigits (n := n) (b := 10) (by decide) (by decide)
    rw [hd]
    exact List.mem_cons_self
  rw [hd, List.cons_append, skipBlanks_cons (isBlank_of_isDigit hdigit)]

/-- No number is written without digits or with a zero in front of other digits. -/
theorem toDigits_lead (n : Nat) : ((Nat.toDigits 10 n).isEmpty ||
    ((Nat.toDigits 10 n).head? == some '0' && decide (1 < (Nat.toDigits 10 n).length))) = false := by
  have hempty : (Nat.toDigits 10 n).isEmpty = false := by
    rw [List.isEmpty_eq_false_iff]
    exact Nat.toDigits_ne_nil
  rw [hempty, Bool.false_or]
  by_cases hn : n = 0
  · subst hn
    rfl
  · rw [beq_false_of_ne (head?_toDigits n (Nat.pos_of_ne_zero hn)), Bool.false_and]

theorem EndsNumber.head (h : EndsNumber rest) :
    (rest.head? == some '.' || rest.head? == some 'e' || rest.head? == some 'E') = false := by
  have hne (d : Char) (hd : d = '.' ∨ d = 'e' ∨ d = 'E') : (rest.head? == some d) = false := by
    apply beq_false_of_ne
    intro hhead
    obtain ⟨-, hdot, he, hE⟩ := h d hhead
    rcases hd with rfl | rfl | rfl
    · exact hdot rfl
    · exact he rfl
    · exact hE rfl
  rw [hne '.' (by simp), hne 'e' (by simp), hne 'E' (by simp)]
  rfl

theorem natural_written {bound n : Nat} (hn : n < bound) (hrest : EndsNumber rest) :
    natural bound (Nat.toDigits 10 n ++ rest) = some (n, rest) := by
  have hdigits : ∀ c ∈ Nat.toDigits 10 n, c.isDigit = true := fun c hc =>
    Nat.isDigit_of_mem_toDigits (by decide) (by decide) hc
  have htake : rest.takeWhile Char.isDigit = [] := by
    cases rest with
    | nil => rfl
    | cons c rest =>
        rw [List.takeWhile_cons, (hrest c rfl).1]
        rfl
  have hdrop : rest.dropWhile Char.isDigit = rest := by
    cases rest with
    | nil => rfl
    | cons c rest =>
        rw [List.dropWhile_cons, (hrest c rfl).1]
        rfl
  rw [natural, skipBlanks_digits]
  simp only [List.takeWhile_append_of_pos hdigits, List.dropWhile_append_of_pos hdigits, htake, hdrop, List.append_nil,
    toDigits_lead, hrest.head, digitsValue_toDigits, hn, if_true]
  rfl

theorem lt_of_natural {bound n : Nat} {cs : List Char} (h : natural bound cs = some (n, rest)) : n < bound := by
  rw [natural] at h
  split at h
  · cases h
  · split at h
    · cases h
    · split at h
      · next hlt =>
          obtain ⟨rfl, -⟩ := Prod.mk.inj (Option.some.inj h)
          exact hlt
      · cases h

end Decoder

end Unwire.Json
