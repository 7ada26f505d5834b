import Unwire.Edit.Application
import Unwire.Proofs.ByteOffsets

namespace Unwire

section Checks

variable {α ε : Type} {check : α → Except ε Unit} {as : List α}

theorem forM_eq_ok_iff : as.forM check = .ok () ↔ ∀ a ∈ as, check a = .ok () := by
  induction as with
  | nil => simp [pure, Except.pure]
  | cons a as ih =>
      rw [List.forM, List.forall_mem_cons]
      cases hcheck : check a with
      | error cause => simp [bind, Except.bind]
      | ok u =>
          rw [← ih]
          exact (and_iff_right rfl).symm

theorem exists_error_of_forM {cause : ε} (h : as.forM check = .error cause) : ∃ a ∈ as, check a = .error cause := by
  induction as with
  | nil => cases h
  | cons a as ih =>
      rw [List.forM] at h
      cases hcheck : check a with
      | error cause' =>
          rw [hcheck] at h
          cases h
          exact ⟨a, List.mem_cons_self, hcheck⟩
      | ok u =>
          rw [hcheck] at h
          obtain ⟨b, hb, hcause⟩ := ih h
          exact ⟨b, List.mem_cons_of_mem _ hb, hcause⟩

end Checks

namespace Edit

/-- The text holds at the place of an edit what the edit removes. -/
def Fits (text : List Char) (e : Edit) : Prop := Text.slice? e.start e.stop text = some e.text.toList

instance (text : List Char) (e : Edit) : Decidable (e.Fits text) := inferInstanceAs (Decidable (_ = _))

theorem Fits.boundaries {text : List Char} {e : Edit} (h : e.Fits text) :
    Text.IsBoundary e.start text ∧ Text.IsBoundary e.stop text := by
  obtain ⟨pre, post, htext, hstart, hstop⟩ := Text.slice?_eq_some_iff.mp h
  refine ⟨Text.isBoundary_iff.mpr ⟨pre, e.text.toList ++ post, by simpa using htext, hstart⟩,
    Text.isBoundary_iff.mpr ⟨pre ++ e.text.toList, post, htext, ?_⟩⟩
  rw [Text.width_append, hstart, hstop]

theorem checkText_eq_ok_iff {text : List Char} {e : Edit} : e.checkText text = .ok () ↔ e.Fits text := by
  rw [checkText, Fits]
  cases Text.slice? e.start e.stop text with
  | none => simp
  | some found => by_cases hfound : found = e.text.toList <;> simp [hfound]

theorem checkOrder_eq_ok_iff {edits : List Edit} :
    checkOrder edits = .ok () ↔ edits.Pairwise fun e f => e.stop ≤ f.start := by
  fun_induction checkOrder edits with
  | case1 e f rest hlt =>
      constructor
      · intro h
        cases h
      · intro h
        have hle := (List.pairwise_cons.mp h).1 f List.mem_cons_self
        omega
  | case2 e f rest hle ih =>
      rw [ih]
      constructor
      · intro h
        refine List.pairwise_cons.mpr ⟨List.forall_mem_cons.mpr ⟨Nat.not_lt.mp hle, fun g hg => ?_⟩, h⟩
        -- Only neighbours are compared; what follows starts no earlier than the neighbour ends.
        have hfg := (List.pairwise_cons.mp h).1 g hg
        have hf : f.start ≤ f.stop := Nat.le_add_right _ _
        omega
      · intro h
        exact (List.pairwise_cons.mp h).2
  | case3 edits hfew =>
      cases edits with
      | nil => simp
      | cons e rest =>
          cases rest with
          | nil => simp
          | cons f rest => exact absurd rfl (hfew e f rest)

theorem sorted_perm (edits : List Edit) : (sorted edits).Perm edits := List.mergeSort_perm edits _

theorem mem_sorted {e : Edit} {edits : List Edit} : e ∈ sorted edits ↔ e ∈ edits := List.mem_mergeSort

theorem applyEdits_eq_ok_iff {text out : String} {edits : List Edit} :
    applyEdits text edits = .ok out ↔ (∀ e ∈ edits, e.Fits text.toList) ∧
      ((sorted edits).Pairwise fun e f => e.stop ≤ f.start) ∧ out = .ofList (cut 0 (sorted edits) text.toList) := by
  have hfits : (sorted edits).forM (checkText text.toList) = .ok () ↔ ∀ e ∈ edits, e.Fits text.toList := by
    simp only [forM_eq_ok_iff, mem_sorted, checkText_eq_ok_iff]
  rw [applyEdits, ← hfits, ← checkOrder_eq_ok_iff]
  cases (sorted edits).forM (checkText text.toList) with
  | error cause =>
      constructor
      · intro h
        cases h
      · rintro ⟨h, _⟩
        cases h
  | ok u =>
      cases checkOrder (sorted edits) with
      | error cause =>
          constructor
          · intro h
            cases h
          · rintro ⟨_, h, _⟩
            cases h
      | ok u =>
          constructor
          · intro h
            exact ⟨rfl, rfl, (Except.ok.inj h).symm⟩
          · rintro ⟨_, _, h⟩
            rw [h]
            rfl

theorem startsNoLater_trans (a b c : Edit) :
    decide (a.start ≤ b.start) = true → decide (b.start ≤ c.start) = true → decide (a.start ≤ c.start) = true := by
  simpa using Nat.le_trans

theorem startsNoLater_total (a b : Edit) : (decide (a.start ≤ b.start) || decide (b.start ≤ a.start)) = true := by
  simpa using Nat.le_total a.start b.start

theorem sorted_pairwise (edits : List Edit) : (sorted edits).Pairwise fun e f => e.start ≤ f.start :=
  (List.pairwise_mergeSort startsNoLater_trans startsNoLater_total edits).imp of_decide_eq_true

theorem sorted_eq_self {edits : List Edit} (h : edits.Pairwise fun e f => e.start ≤ f.start) :
    sorted edits = edits :=
  List.mergeSort_of_pairwise (h.imp decide_eq_true)

/-- In the order of their starts, edits that are not empty and keep apart follow one another. -/
theorem sorted_apart {edits : List Edit} (hpos : ∀ e ∈ edits, e.start < e.stop)
    (hapart : edits.Pairwise fun e f => e.stop ≤ f.start ∨ f.stop ≤ e.start) :
    (sorted edits).Pairwise fun e f => e.stop ≤ f.start := by
  have hsym : (sorted edits).Pairwise fun e f => e.stop ≤ f.start ∨ f.stop ≤ e.start :=
    (sorted_perm edits).symm.pairwise hapart fun h => h.symm
  refine ((sorted_pairwise edits).and hsym).imp_of_mem ?_
  rintro e f he hf ⟨hle, hsep⟩
  have hf := hpos f (mem_sorted.mp hf)
  omega

theorem applyEdits_of_apart {text : String} {edits : List Edit} (hfits : ∀ e ∈ edits, e.Fits text.toList)
    (hpos : ∀ e ∈ edits, e.start < e.stop)
    (hapart : edits.Pairwise fun e f => e.stop ≤ f.start ∨ f.stop ≤ e.start) :
    applyEdits text edits = .ok (.ofList (cut 0 (sorted edits) text.toList)) :=
  applyEdits_eq_ok_iff.mpr ⟨hfits, sorted_apart hpos hapart, rfl⟩

end Edit

end Unwire
