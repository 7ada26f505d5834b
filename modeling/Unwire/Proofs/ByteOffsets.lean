import Unwire.Text.Offset

namespace Unwire.Text

theorem width_append (cs ds : List Char) : width (cs ++ ds) = width cs + width ds := by
  induction cs with
  | nil => simp [width]
  | cons c cs ih => simp [width, ih, Nat.add_assoc]

theorem eq_nil_of_width {cs : List Char} (h : width cs = 0) : cs = [] := by
  cases cs with
  | nil => rfl
  | cons c cs =>
      have hpos := c.utf8Size_pos
      rw [width] at h
      omega

theorem exists_mid_of_width_le {as bs cs ds : List Char} (h : as ++ bs = cs ++ ds) (hle : width as ≤ width cs) :
    ∃ mid, cs = as ++ mid ∧ bs = mid ++ ds := by
  rcases List.append_eq_append_iff.mp h with ⟨mid, hcs, hbs⟩ | ⟨mid, has, hds⟩
  · exact ⟨mid, hcs, hbs⟩
  · rw [has, width_append] at hle
    obtain rfl := eq_nil_of_width (Nat.eq_zero_of_le_zero (Nat.le_of_add_le_add_left (c := 0) hle))
    exact ⟨[], by simpa using has.symm, by simpa using hds.symm⟩

theorem utf8ByteSize_ofList (cs : List Char) : (String.ofList cs).utf8ByteSize = width cs := by
  induction cs with
  | nil => rfl
  | cons c cs ih =>
      rw [String.ofList_cons, String.utf8ByteSize_append, String.utf8ByteSize_singleton, ih, width]

/-- Byte `n` is the start of a character, or the end of the text. -/
def IsBoundary (n : Nat) (cs : List Char) : Prop := (dropBytes? n cs).isSome = true

instance (n : Nat) (cs : List Char) : Decidable (IsBoundary n cs) :=
  inferInstanceAs (Decidable (_ = true))

def charAt? (n : Nat) (cs : List Char) : Option Char := (dropBytes? n cs).bind List.head?

theorem dropBytes?_append (pre rest : List Char) : dropBytes? (width pre) (pre ++ rest) = some rest := by
  induction pre with
  | nil => simp [width, dropBytes?]
  | cons c pre ih =>
      obtain ⟨n, hn⟩ := Nat.exists_eq_add_one.mpr (Nat.add_pos_left c.utf8Size_pos (width pre))
      rw [width, List.cons_append, hn, dropBytes?, if_pos (by omega), ← hn, Nat.add_sub_cancel_left, ih]

theorem dropBytes?_eq_some_iff {n : Nat} {cs rest : List Char} :
    dropBytes? n cs = some rest ↔ ∃ pre, cs = pre ++ rest ∧ width pre = n := by
  constructor
  · intro h
    fun_induction dropBytes? n cs with
    | case1 cs => exact ⟨[], by simpa using h, rfl⟩
    | case2 => simp at h
    | case3 n c cs hle ih =>
        obtain ⟨pre, rfl, hw⟩ := ih h
        exact ⟨c :: pre, rfl, by simp only [width]; omega⟩
    | case4 => simp at h
  · rintro ⟨pre, rfl, rfl⟩
    exact dropBytes?_append pre rest

theorem isBoundary_iff {n : Nat} {cs : List Char} :
    IsBoundary n cs ↔ ∃ pre post, cs = pre ++ post ∧ width pre = n := by
  rw [IsBoundary, Option.isSome_iff_exists]
  simp only [dropBytes?_eq_some_iff]
  exact exists_comm

theorem takeBytes?_append (part post : List Char) : takeBytes? (width part) (part ++ post) = some part := by
  induction part with
  | nil => simp [width, takeBytes?]
  | cons c part ih =>
      obtain ⟨n, hn⟩ := Nat.exists_eq_add_one.mpr (Nat.add_pos_left c.utf8Size_pos (width part))
      rw [width, List.cons_append, hn, takeBytes?, if_pos (by omega), ← hn, Nat.add_sub_cancel_left, ih]
      rfl

theorem takeBytes?_eq_some_iff {n : Nat} {cs part : List Char} :
    takeBytes? n cs = some part ↔ ∃ post, cs = part ++ post ∧ width part = n := by
  constructor
  · intro h
    fun_induction takeBytes? n cs generalizing part with
    | case1 cs => exact ⟨cs, by simpa using h, by simp [← Option.some.inj h, width]⟩
    | case2 => simp at h
    | case3 n c cs hle ih =>
        obtain ⟨pre, hpre, rfl⟩ := Option.map_eq_some_iff.mp h
        obtain ⟨post, rfl, hw⟩ := ih hpre
        exact ⟨post, rfl, by simp only [width]; omega⟩
    | case4 => simp at h
  · rintro ⟨post, rfl, rfl⟩
    exact takeBytes?_append part post

theorem slice?_eq_some_iff {start stop : Nat} {cs part : List Char} :
    slice? start stop cs = some part ↔
      ∃ pre post, cs = pre ++ part ++ post ∧ width pre = start ∧ start + width part = stop := by
  rw [slice?]
  split
  · next hle =>
      simp only [Option.bind_eq_some_iff, dropBytes?_eq_some_iff, takeBytes?_eq_some_iff]
      constructor
      · rintro ⟨rest, ⟨pre, rfl, hpre⟩, post, rfl, hpart⟩
        exact ⟨pre, post, by simp, hpre, by omega⟩
      · rintro ⟨pre, post, rfl, hpre, hpart⟩
        exact ⟨part ++ post, ⟨pre, by simp, hpre⟩, post, rfl, by omega⟩
  · next hlt =>
      simp only [reduceCtorEq, false_iff, not_exists, not_and]
      intro pre post _ _
      omega

/-- There is a text between any two offsets that fall between characters. -/
theorem exists_slice {start stop : Nat} {cs : List Char} (hstart : IsBoundary start cs)
    (hstop : IsBoundary stop cs) (hle : start ≤ stop) :
    ∃ part, slice? start stop cs = some part ∧ start + width part = stop := by
  obtain ⟨pre, post, hcs, hpre⟩ := isBoundary_iff.mp hstart
  obtain ⟨pre', post', hcs', hpre'⟩ := isBoundary_iff.mp hstop
  rcases List.append_eq_append_iff.mp (hcs.symm.trans hcs') with ⟨part, rfl, rfl⟩ | ⟨part, rfl, rfl⟩
  · have hw : start + width part = stop := by rw [← hpre, ← hpre', width_append]
    exact ⟨part, slice?_eq_some_iff.mpr ⟨pre, post', by simp [hcs], hpre, hw⟩, hw⟩
  · rw [width_append, hpre'] at hpre
    have hz : width part = 0 := by omega
    obtain rfl : start = stop := by omega
    obtain rfl := eq_nil_of_width hz
    exact ⟨[], slice?_eq_some_iff.mpr ⟨pre', post, by simpa using hcs, hpre', rfl⟩, rfl⟩

theorem isBoundary_zero (cs : List Char) : IsBoundary 0 cs :=
  isBoundary_iff.mpr ⟨[], cs, rfl, rfl⟩

theorem charAt?_eq_some_iff {n : Nat} {cs : List Char} {c : Char} :
    charAt? n cs = some c ↔ ∃ pre post, cs = pre ++ c :: post ∧ width pre = n := by
  rw [charAt?, Option.bind_eq_some_iff]
  constructor
  · rintro ⟨rest, hrest, hhead⟩
    obtain ⟨pre, rfl, hpre⟩ := dropBytes?_eq_some_iff.mp hrest
    obtain ⟨post, rfl⟩ := List.head?_eq_some_iff.mp hhead
    exact ⟨pre, post, rfl, hpre⟩
  · rintro ⟨pre, post, rfl, rfl⟩
    exact ⟨c :: post, dropBytes?_append pre (c :: post), rfl⟩

theorem isBoundary_add_of_charAt {n : Nat} {cs : List Char} {c : Char} (h : charAt? n cs = some c) :
    IsBoundary (n + c.utf8Size) cs := by
  obtain ⟨pre, post, rfl, rfl⟩ := charAt?_eq_some_iff.mp h
  exact isBoundary_iff.mpr ⟨pre ++ [c], post, by simp, by simp [width_append, width]⟩

theorem lt_width_of_charAt {n : Nat} {cs : List Char} {c : Char} (h : charAt? n cs = some c) : n < width cs := by
  obtain ⟨pre, post, rfl, rfl⟩ := charAt?_eq_some_iff.mp h
  have := c.utf8Size_pos
  rw [width_append, width]
  omega

theorem le_width_of_isBoundary {n : Nat} {cs : List Char} (h : IsBoundary n cs) : n ≤ width cs := by
  obtain ⟨pre, post, rfl, rfl⟩ := isBoundary_iff.mp h
  rw [width_append]
  exact Nat.le_add_right _ _

def bytes (text : String) : List UInt8 := text.toByteArray.data.toList

theorem bytes_ofList (cs : List Char) : bytes (.ofList cs) = cs.flatMap String.utf8EncodeChar := by
  simp [bytes, List.utf8Encode]

end Unwire.Text
