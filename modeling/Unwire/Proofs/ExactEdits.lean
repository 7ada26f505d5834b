import Mathlib.Algebra.GroupWithZero.Nat
import Unwire.Proofs.KeptText

namespace Unwire

namespace Text

def keptBytes (gone : Nat → Bool) (offset : Nat) (bs : List UInt8) : List UInt8 :=
  ((bs.zipIdx offset).filter (!gone ·.2)).map (·.1)

variable {gone : Nat → Bool} {offset : Nat}

theorem keptBytes_append (gone : Nat → Bool) (offset : Nat) (bs bs' : List UInt8) :
    keptBytes gone offset (bs ++ bs') = keptBytes gone offset bs ++ keptBytes gone (offset + bs.length) bs' := by
  simp [keptBytes, List.zipIdx_append]

theorem keptBytes_of_forall {bs : List UInt8} (b : Bool)
    (h : ∀ n, offset ≤ n → n < offset + bs.length → gone n = b) :
    keptBytes gone offset bs = if b then [] else bs := by
  have hall : ∀ x ∈ bs.zipIdx offset, gone x.2 = b := by
    rintro ⟨byte, n⟩ hx
    have hn := List.mem_zipIdx hx
    exact h n (by omega) (by omega)
  cases b with
  | true => simpa [keptBytes] using hall
  | false =>
      have hself : (bs.zipIdx offset).filter (!gone ·.2) = bs.zipIdx offset :=
        List.filter_eq_self.mpr fun x hx => by simp [hall x hx]
      simp [keptBytes, hself]

theorem flatMap_encode_without {cs : List Char}
    (h : ∀ pre c post n, cs = pre ++ c :: post → offset + width pre ≤ n → n < offset + width pre + c.utf8Size →
      gone n = gone (offset + width pre)) :
    (without gone offset cs).flatMap String.utf8EncodeChar =
      keptBytes gone offset (cs.flatMap String.utf8EncodeChar) := by
  induction cs generalizing offset with
  | nil => rfl
  | cons c cs ih =>
      have hrest := ih fun pre d post n hcs hle hlt => by
        have hd := h (c :: pre) d post n (by rw [hcs]; rfl)
        simp only [width, ← Nat.add_assoc] at hd
        exact hd hle hlt
      have hfirst : keptBytes gone offset (String.utf8EncodeChar c) =
          if gone offset then [] else String.utf8EncodeChar c :=
        keptBytes_of_forall _ fun n hle hlt => by
          rw [String.length_utf8EncodeChar] at hlt
          exact h [] c cs n rfl hle hlt
      rw [List.flatMap_cons, keptBytes_append, hfirst, String.length_utf8EncodeChar, ← hrest, without]
      cases gone offset <;> simp

theorem le_of_lt_boundary {n : Nat} {cs pre post : List Char} {c : Char} (hn : IsBoundary n cs)
    (hcs : cs = pre ++ c :: post) (hlt : width pre < n) : width pre + c.utf8Size ≤ n := by
  obtain ⟨pre', post', hcs', rfl⟩ := isBoundary_iff.mp hn
  obtain ⟨mid, rfl, hmid⟩ := exists_mid_of_width_le (hcs.symm.trans hcs') (Nat.le_of_lt hlt)
  cases mid with
  | nil => simp at hlt
  | cons d mid =>
      obtain ⟨rfl, _⟩ := List.cons.inj hmid
      rw [width_append, width]
      omega

end Text

namespace Edit

variable {text : List Char} {edits : List Edit} {e : Edit}

theorem checkText_ne_overlapping (e : Edit) (first second : Nat) :
    e.checkText text ≠ .error (.overlapping first second) := by
  rw [checkText]
  split
  · simp
  · split <;> simp

/-- Edits are refused for their order only after all of them have been found in the text. -/
theorem fits_of_overlapping {text : String} {first second : Nat}
    (h : applyEdits text edits = .error (.overlapping first second)) : ∀ e ∈ edits, e.Fits text.toList := by
  rw [applyEdits] at h
  cases hcheck : (sorted edits).forM (checkText text.toList) with
  | error cause =>
      simp only [hcheck] at h
      cases h
      obtain ⟨e, _, he⟩ := exists_error_of_forM hcheck
      exact absurd he (e.checkText_ne_overlapping first second)
  | ok u => exact fun e he => checkText_eq_ok_iff.mp (forM_eq_ok_iff.mp hcheck e (mem_sorted.mpr he))

/-- Copies what stands between edits, from byte `cursor` on. There is no copy where a slice would end before it starts,
or would start or end inside a character. -/
def copy? (text : List Char) (cursor : Nat) : List Edit → Option (List Char)
  | [] => Text.slice? cursor (Text.width text) text
  | e :: rest => do return (← Text.slice? cursor e.start text) ++ (← copy? text e.stop rest)

section Cutting

variable (pre cs : List Char) (hfits : ∀ e ∈ edits, e.Fits (pre ++ cs))
  (hstart : ∀ e ∈ edits, Text.width pre ≤ e.start) (hord : edits.Pairwise fun e f => e.stop ≤ f.start)
include hfits hstart hord

theorem copy?_eq_cut : copy? (pre ++ cs) (Text.width pre) edits = some (cut (Text.width pre) edits cs) := by
  induction edits generalizing pre cs with
  | nil => exact Text.slice?_eq_some_iff.mpr ⟨pre, [], by simp [cut], rfl, (Text.width_append pre cs).symm⟩
  | cons e rest ih =>
      obtain ⟨hnext, hrest⟩ := List.pairwise_cons.mp hord
      obtain ⟨gap, after, rfl, hgap, hstop, hcut⟩ :=
        cut_cons rest (hfits e List.mem_cons_self) (hstart e List.mem_cons_self)
      have hslice : Text.slice? (Text.width pre) e.start (pre ++ (gap ++ e.text.toList ++ after)) = some gap :=
        Text.slice?_eq_some_iff.mpr ⟨pre, e.text.toList ++ after, by simp, rfl, by rw [← hgap, Text.width_append]⟩
      have htail := ih (pre ++ gap ++ e.text.toList) after
        (fun f hf => by simpa using hfits f (List.mem_cons_of_mem _ hf)) (fun f hf => hstop ▸ hnext f hf) hrest
      rw [hstop] at htail
      have htext : pre ++ (gap ++ e.text.toList ++ after) = pre ++ gap ++ e.text.toList ++ after := by simp
      rw [copy?, hslice, htext, htail, hcut]
      rfl

theorem width_cut :
    Text.width (cut (Text.width pre) edits cs) + (edits.map (·.text.utf8ByteSize)).sum = Text.width cs := by
  induction edits generalizing pre cs with
  | nil => simp [cut]
  | cons e rest ih =>
      obtain ⟨hnext, hrest⟩ := List.pairwise_cons.mp hord
      obtain ⟨gap, after, rfl, hgap, hstop, hcut⟩ :=
        cut_cons rest (hfits e List.mem_cons_self) (hstart e List.mem_cons_self)
      have htail := ih (pre ++ gap ++ e.text.toList) after
        (fun f hf => by simpa using hfits f (List.mem_cons_of_mem _ hf)) (fun f hf => hstop ▸ hnext f hf) hrest
      rw [hstop] at htail
      have hsize : e.text.utf8ByteSize = Text.width e.text.toList := by
        rw [← Text.utf8ByteSize_ofList, String.ofList_toList]
      rw [hcut, List.map_cons, List.sum_cons, Text.width_append, Text.width_append, Text.width_append, hsize]
      omega

end Cutting

theorem removes_char {pre post : List Char} {c : Char} {n : Nat} (hfits : ∀ e ∈ edits, e.Fits text)
    (htext : text = pre ++ c :: post) (hle : Text.width pre ≤ n) (hlt : n < Text.width pre + c.utf8Size) :
    removes edits n = removes edits (Text.width pre) := by
  rw [Bool.eq_iff_iff, removes_eq_true_iff, removes_eq_true_iff]
  constructor
  · rintro ⟨e, he, hstart, hstop⟩
    refine ⟨e, he, ?_, by omega⟩
    have hbound := Text.le_of_lt_boundary (hfits e he).boundaries.1 htext
    omega
  · rintro ⟨e, he, hstart, hstop⟩
    have hbound := Text.le_of_lt_boundary (hfits e he).boundaries.2 htext hstop
    exact ⟨e, he, by omega, by omega⟩

theorem bytes_without {text : String} (hfits : ∀ e ∈ edits, e.Fits text.toList) :
    Text.bytes (.ofList (Text.without (removes edits) 0 text.toList)) =
      Text.keptBytes (removes edits) 0 (Text.bytes text) := by
  rw [Text.bytes_ofList, Text.flatMap_encode_without, ← Text.bytes_ofList, String.ofList_toList]
  intro pre c post n htext hle hlt
  rw [Nat.zero_add] at hle hlt ⊢
  exact removes_char hfits htext hle hlt

section Carried

variable {text out : String} (h : applyEdits text edits = .ok out)
include h

theorem eq_without_of_applyEdits : out = .ofList (Text.without (removes edits) 0 text.toList) := by
  obtain ⟨hfits, hord, rfl⟩ := applyEdits_eq_ok_iff.mp h
  have hcut := cut_eq_without _ [] text.toList (fun e he => hfits e (mem_sorted.mp he)) (fun _ _ => Nat.zero_le _) hord
  simp only [Text.width] at hcut
  rw [hcut, removes_sorted]

theorem bytes_of_applyEdits : Text.bytes out = Text.keptBytes (removes edits) 0 (Text.bytes text) := by
  rw [eq_without_of_applyEdits h, bytes_without (applyEdits_eq_ok_iff.mp h).1]

theorem size_of_applyEdits : out.utf8ByteSize + (edits.map (·.text.utf8ByteSize)).sum = text.utf8ByteSize := by
  obtain ⟨hfits, hord, rfl⟩ := applyEdits_eq_ok_iff.mp h
  have hwidth := width_cut [] text.toList (fun e he => hfits e (mem_sorted.mp he)) (fun _ _ => Nat.zero_le _) hord
  rw [((sorted_perm edits).map _).sum_nat, ← Text.utf8ByteSize_ofList text.toList, String.ofList_toList] at hwidth
  rw [Text.utf8ByteSize_ofList]
  exact hwidth

theorem copy?_of_applyEdits : copy? text.toList 0 (sorted edits) = some out.toList := by
  obtain ⟨hfits, hord, rfl⟩ := applyEdits_eq_ok_iff.mp h
  rw [String.toList_ofList]
  exact copy?_eq_cut [] text.toList (fun e he => hfits e (mem_sorted.mp he)) (fun _ _ => Nat.zero_le _) hord

end Carried

end Edit

/-- Carrying out edits takes away exactly the bytes that they name. Edits that are carried out are in the text, with
their ends between characters, and have no byte in common; every slice that is copied is in order and between
characters. Edits that have a text, are in the text and have no byte in common are carried out, and edits are refused
for overlapping only if all of them are in the text. -/
theorem applyEdits_exact (text : String) (edits : List Edit) :
    (∀ out, applyEdits text edits = .ok out →
      (∀ e ∈ edits, Text.IsBoundary e.start text.toList ∧ Text.IsBoundary e.stop text.toList ∧
        e.stop ≤ text.utf8ByteSize ∧ Text.slice? e.start e.stop text.toList = some e.text.toList) ∧
      (edits.Pairwise fun e f => e.stop ≤ f.start ∨ f.stop ≤ e.start) ∧
      Text.bytes out = Text.keptBytes (Edit.removes edits) 0 (Text.bytes text) ∧
      out.utf8ByteSize + (edits.map (·.text.utf8ByteSize)).sum = text.utf8ByteSize ∧
      Edit.copy? text.toList 0 (Edit.sorted edits) = some out.toList) ∧
    ((∀ e ∈ edits, e.text ≠ "" ∧ Text.slice? e.start e.stop text.toList = some e.text.toList) →
      (edits.Pairwise fun e f => e.stop ≤ f.start ∨ f.stop ≤ e.start) → ∃ out, applyEdits text edits = .ok out) ∧
    ∀ first second, applyEdits text edits = .error (.overlapping first second) →
      ∀ e ∈ edits, Text.slice? e.start e.stop text.toList = some e.text.toList := by
  refine ⟨fun out hout => ?_, ?_, fun _ _ h => Edit.fits_of_overlapping h⟩
  · obtain ⟨hfits, hord, _⟩ := Edit.applyEdits_eq_ok_iff.mp hout
    refine ⟨fun e he => ?_, (Edit.sorted_perm edits).pairwise (hord.imp Or.inl) Or.symm,
      Edit.bytes_of_applyEdits hout, Edit.size_of_applyEdits hout, Edit.copy?_of_applyEdits hout⟩
    obtain ⟨hstart, hstop⟩ := (hfits e he).boundaries
    have hle := Text.le_width_of_isBoundary hstop
    rw [← Text.utf8ByteSize_ofList, String.ofList_toList] at hle
    exact ⟨hstart, hstop, hle, hfits e he⟩
  · intro hedits hapart
    refine ⟨_, Edit.applyEdits_of_apart (fun e he => (hedits e he).2) (fun e he => ?_) hapart⟩
    have hne : e.text.utf8ByteSize ≠ 0 := fun hsize => (hedits e he).1 (String.utf8ByteSize_eq_zero_iff.mp hsize)
    rw [Edit.stop]
    omega

theorem edits_at_one_place :
    let empty : Edit := ⟨"f.ts", 1, ""⟩
    let accent : Edit := ⟨"f.ts", 1, "é"⟩
    let last : Edit := ⟨"f.ts", 3, "b"⟩
    applyEdits "aébc" [last, empty, accent] = .ok "ac" ∧
      Text.bytes "ac" = Text.keptBytes (Edit.removes [last, empty, accent]) 0 (Text.bytes "aébc") ∧
      Edit.copy? "aébc".toList 0 [empty, accent, last] = some "ac".toList ∧
      (∃ out, applyEdits "aébc" [last, accent] = .ok out) ∧
      applyEdits "aébc" [accent, empty] = .error (.overlapping 1 1) ∧
      Text.slice? 1 3 "aébc".toList = some "é".toList := by
  have herror : applyEdits "aébc" [⟨"f.ts", 1, "é"⟩, ⟨"f.ts", 1, ""⟩] = .error (.overlapping 1 1) := by
    rw [applyEdits, Edit.sorted_eq_self (by decide)]
    rfl
  intro empty accent last
  have hsort : Edit.sorted [last, empty, accent] = [empty, accent, last] := by
    simp [Edit.sorted, List.mergeSort, empty, accent, last]
  have hfits : ∀ e ∈ [last, empty, accent], Text.slice? e.start e.stop "aébc".toList = some e.text.toList := by decide
  have hok : applyEdits "aébc" [last, empty, accent] = .ok "ac" := by
    rw [Edit.applyEdits_eq_ok_iff, hsort]
    exact ⟨hfits, by decide, by decide⟩
  obtain ⟨_, _, hbytes, _, hcopy⟩ := (applyEdits_exact "aébc" [last, empty, accent]).1 "ac" hok
  exact ⟨hok, hbytes, hsort ▸ hcopy, (applyEdits_exact "aébc" [last, accent]).2.1 (by decide) (by decide), herror,
    (applyEdits_exact "aébc" [accent, empty]).2.2 1 1 herror accent (by decide)⟩

end Unwire
