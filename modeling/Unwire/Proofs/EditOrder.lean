import Unwire.Proofs.ExactEdits

namespace Unwire

theorem mergeSort_pairwise_iff {α : Type} {le : α → α → Bool} {r : α → α → Prop}
    (htrans : ∀ a b c, le a b = true → le b c = true → le a c = true) (htotal : ∀ a b, (le a b || le b a) = true)
    {as : List α} :
    (as.mergeSort le).Pairwise r ↔ as.Pairwise fun a b => if le a b then r a b else r b a := by
  induction as with
  | nil => simp
  | cons a as ih =>
      obtain ⟨pre, post, hcons, hrest, hpre⟩ := List.mergeSort_cons htrans htotal a as
      -- The sort puts `a` after those that must come first and before all others.
      have hsorted := List.pairwise_mergeSort htrans htotal (a :: as)
      rw [hcons] at hsorted
      have hpost := (List.pairwise_cons.mp (List.pairwise_append.mp hsorted).2.1).1
      have hmem (b : α) : b ∈ as ↔ b ∈ pre ∨ b ∈ post := by
        have hsame : b ∈ as.mergeSort le ↔ b ∈ as := List.mem_mergeSort
        rw [← hsame, hrest, List.mem_append]
      rw [hcons, List.pairwise_cons, ← ih, hrest]
      simp only [hmem, List.pairwise_append, List.pairwise_cons, List.forall_mem_cons]
      grind

namespace Edit

/-- An edit without a text starts where `e` does, which has one. -/
def Blocks (e f : Edit) : Prop := e.start = f.start ∧ e.text ≠ "" ∧ f.text = ""

instance (e f : Edit) : Decidable (e.Blocks f) := inferInstanceAs (Decidable (_ ∧ _))

theorem stop_eq_start_iff {e : Edit} : e.stop = e.start ↔ e.text = "" := by
  rw [stop, ← String.utf8ByteSize_eq_zero_iff]
  omega

theorem in_order_iff {e f : Edit} :
    (if decide (e.start ≤ f.start) = true then e.stop ≤ f.start else f.stop ≤ e.start) ↔
      (e.stop ≤ f.start ∨ f.stop ≤ e.start) ∧ ¬e.Blocks f := by
  have he : e.start ≤ e.stop := Nat.le_add_right _ _
  have hf : f.start ≤ f.stop := Nat.le_add_right _ _
  rw [Blocks, Ne, ← stop_eq_start_iff, ← stop_eq_start_iff]
  by_cases hle : e.start ≤ f.start
  · rw [if_pos (decide_eq_true hle)]
    omega
  · rw [if_neg (by simpa using hle)]
    omega

theorem sorted_pairwise_iff {edits : List Edit} :
    ((sorted edits).Pairwise fun e f => e.stop ≤ f.start) ↔
      (edits.Pairwise fun e f => e.stop ≤ f.start ∨ f.stop ≤ e.start) ∧ edits.Pairwise fun e f => ¬e.Blocks f := by
  rw [sorted, mergeSort_pairwise_iff startsNoLater_trans startsNoLater_total, ← List.pairwise_and_iff]
  simp only [in_order_iff]

theorem exists_applyEdits_iff {text : String} {edits : List Edit} :
    (∃ out, applyEdits text edits = .ok out) ↔ (∀ e ∈ edits, e.Fits text.toList) ∧
      (edits.Pairwise fun e f => e.stop ≤ f.start ∨ f.stop ≤ e.start) ∧ edits.Pairwise fun e f => ¬e.Blocks f := by
  simp only [applyEdits_eq_ok_iff, exists_and_left, exists_eq, and_true, sorted_pairwise_iff]

section Reordered

variable {text out out' : String} {edits edits' : List Edit} (hperm : edits.Perm edits')
include hperm

theorem eq_of_perm (h : applyEdits text edits = .ok out) (h' : applyEdits text edits' = .ok out') : out' = out := by
  rw [eq_without_of_applyEdits h, eq_without_of_applyEdits h', removes_perm hperm]

theorem applyEdits_of_perm (h : applyEdits text edits = .ok out) (hblock : edits'.Pairwise fun e f => ¬e.Blocks f) :
    applyEdits text edits' = .ok out := by
  obtain ⟨hfits, hapart, _⟩ := exists_applyEdits_iff.mp ⟨out, h⟩
  obtain ⟨out', h'⟩ := exists_applyEdits_iff.mpr
    ⟨fun e he => hfits e (hperm.mem_iff.mpr he), hperm.pairwise hapart Or.symm, hblock⟩
  rw [h', eq_of_perm hperm h h']

end Reordered

end Edit

/-- Edits that are carried out in two orders leave the same text. Where they are carried out in one order, they are in
another one unless an edit without a text is given after one that removes text at the same place. So the order does
not matter where no two edits are such a pair. -/
theorem applyEdits_reordered (text : String) (edits edits' : List Edit) (hperm : edits.Perm edits') :
    (∀ out out', applyEdits text edits = .ok out → applyEdits text edits' = .ok out' → out' = out) ∧
    (∀ out, applyEdits text edits = .ok out →
      (applyEdits text edits' = .ok out ↔ edits'.Pairwise fun e f => ¬e.Blocks f)) ∧
    ((∀ e ∈ edits, ∀ f ∈ edits, ¬e.Blocks f) →
      ∀ out, applyEdits text edits = .ok out ↔ applyEdits text edits' = .ok out) := by
  refine ⟨fun out out' => Edit.eq_of_perm hperm, fun out h => ?_, fun hfree out => ?_⟩
  · constructor
    · intro h'
      exact (Edit.exists_applyEdits_iff.mp ⟨out, h'⟩).2.2
    · exact Edit.applyEdits_of_perm hperm h
  · have hall : ∀ es : List Edit, es ⊆ edits → es.Pairwise fun e f => ¬e.Blocks f := fun es hes =>
      List.pairwise_of_forall_mem_list fun e he f hf => hfree e (hes he) f (hes hf)
    exact ⟨fun h => Edit.applyEdits_of_perm hperm h (hall edits' hperm.symm.subset),
      fun h => Edit.applyEdits_of_perm hperm.symm h (hall edits (List.Subset.refl _))⟩

/-- The edit without a text has to come first; the place of the last edit in the list does not matter. -/
theorem edits_in_three_orders :
    let empty : Edit := ⟨"f.ts", 1, ""⟩
    let accent : Edit := ⟨"f.ts", 1, "é"⟩
    let last : Edit := ⟨"f.ts", 3, "b"⟩
    [last, empty, accent].Perm [empty, accent, last] ∧ [last, empty, accent].Perm [last, accent, empty] ∧
      applyEdits "aébc" [last, empty, accent] = .ok "ac" ∧ applyEdits "aébc" [empty, accent, last] = .ok "ac" ∧
      applyEdits "aébc" [last, accent, empty] ≠ .ok "ac" ∧
      applyEdits "aébc" [last, accent, empty] = .error (.overlapping 1 1) ∧
      applyEdits "aébc" [accent, last] = .ok "ac" := by
  have herror : applyEdits "aébc" [⟨"f.ts", 3, "b"⟩, ⟨"f.ts", 1, "é"⟩, ⟨"f.ts", 1, ""⟩] = .error (.overlapping 1 1) := by
    have hsort : Edit.sorted [⟨"f.ts", 3, "b"⟩, ⟨"f.ts", 1, "é"⟩, ⟨"f.ts", 1, ""⟩] =
        [⟨"f.ts", 1, "é"⟩, ⟨"f.ts", 1, ""⟩, ⟨"f.ts", 3, "b"⟩] := by simp [Edit.sorted, List.mergeSort]
    rw [applyEdits, hsort]
    rfl
  intro empty accent last
  have hfirst : [last, empty, accent].Perm [empty, accent, last] := by decide
  have hlast : [last, empty, accent].Perm [last, accent, empty] := by decide
  have hpair : [last, accent].Perm [accent, last] := by decide
  have hsorted : applyEdits "aébc" [empty, accent, last] = .ok "ac" := by
    rw [Edit.applyEdits_eq_ok_iff, Edit.sorted_eq_self (by decide)]
    decide
  have hok : applyEdits "aébc" [last, empty, accent] = .ok "ac" :=
    ((applyEdits_reordered "aébc" _ _ hfirst.symm).2.1 "ac" hsorted).mpr (by decide)
  have hok' : applyEdits "aébc" [last, accent] = .ok "ac" := by
    have hsort : Edit.sorted [last, accent] = [accent, last] := by simp [Edit.sorted, List.mergeSort, accent, last]
    rw [Edit.applyEdits_eq_ok_iff, hsort]
    decide
  refine ⟨hfirst, hlast, hok, hsorted, ?_, herror, ?_⟩
  · intro h
    exact absurd (((applyEdits_reordered "aébc" _ _ hlast).2.1 "ac" hok).mp h) (by decide)
  · exact ((applyEdits_reordered "aébc" _ _ hpair).2.2 (by decide) "ac").mp hok'

end Unwire
