import Unwire.Proofs.PlannedRemovals

namespace Unwire

namespace Text

/-- The characters of a text whose first byte is not `gone`; the text starts at byte `offset`. -/
def without (gone : Nat → Bool) (offset : Nat) : List Char → List Char
  | [] => []
  | c :: cs =>
      let rest := without gone (offset + c.utf8Size) cs
      if gone offset then rest else c :: rest

variable {gone gone' : Nat → Bool} {offset : Nat}

theorem without_append (gone : Nat → Bool) (offset : Nat) (cs ds : List Char) :
    without gone offset (cs ++ ds) = without gone offset cs ++ without gone (offset + width cs) ds := by
  induction cs generalizing offset with
  | nil => simp [without, width]
  | cons c cs ih =>
      simp only [List.cons_append, without, width, ih, ← Nat.add_assoc]
      split <;> simp

theorem without_congr {cs : List Char}
    (h : ∀ n, offset ≤ n → n < offset + width cs → gone n = gone' n) :
    without gone offset cs = without gone' offset cs := by
  induction cs generalizing offset with
  | nil => rfl
  | cons c cs ih =>
      have hpos := c.utf8Size_pos
      have hrest : without gone (offset + c.utf8Size) cs = without gone' (offset + c.utf8Size) cs :=
        ih fun n hle hlt => h n (by omega) (by rw [width]; omega)
      simp only [without, hrest, h offset (Nat.le_refl _) (by rw [width]; omega)]

theorem without_none (offset : Nat) (cs : List Char) : without (fun _ => false) offset cs = cs := by
  induction cs generalizing offset with
  | nil => rfl
  | cons c cs ih => simp [without, ih]

theorem without_all (offset : Nat) (cs : List Char) : without (fun _ => true) offset cs = [] := by
  induction cs generalizing offset with
  | nil => rfl
  | cons c cs ih => simp [without, ih]

theorem without_eq_self {cs : List Char} (h : ∀ n, offset ≤ n → n < offset + width cs → gone n = false) :
    without gone offset cs = cs :=
  (without_congr h).trans (without_none offset cs)

theorem without_eq_nil {cs : List Char} (h : ∀ n, offset ≤ n → n < offset + width cs → gone n = true) :
    without gone offset cs = [] :=
  (without_congr h).trans (without_all offset cs)

theorem mem_without {cs : List Char} {c : Char} :
    c ∈ without gone offset cs ↔ ∃ pre post, cs = pre ++ c :: post ∧ gone (offset + width pre) = false := by
  constructor
  · intro hc
    induction cs generalizing offset with
    | nil => simp [without] at hc
    | cons d cs ih =>
        have hrest (hc : c ∈ without gone (offset + d.utf8Size) cs) :
            ∃ pre post, d :: cs = pre ++ c :: post ∧ gone (offset + width pre) = false := by
          obtain ⟨pre, post, rfl, hg⟩ := ih hc
          exact ⟨d :: pre, post, rfl, by rwa [width, ← Nat.add_assoc]⟩
        simp only [without] at hc
        split at hc
        · exact hrest hc
        · next hd =>
            rcases List.mem_cons.mp hc with rfl | hc
            · exact ⟨[], cs, rfl, by simpa [width] using hd⟩
            · exact hrest hc
  · rintro ⟨pre, post, rfl, hg⟩
    rw [without_append]
    refine List.mem_append_right _ ?_
    simp [without, hg]

theorem width_without_le (gone : Nat → Bool) (offset : Nat) (cs : List Char) :
    width (without gone offset cs) ≤ width cs := by
  induction cs generalizing offset with
  | nil => exact Nat.le_refl _
  | cons c cs ih =>
      have hrest := ih (offset + c.utf8Size)
      simp only [without]
      split
      · simp only [width]
        omega
      · simp only [width]
        omega

end Text

namespace Edit

def removes (edits : List Edit) (n : Nat) : Bool := edits.any fun e => e.start ≤ n && n < e.stop

theorem removes_eq_true_iff {edits : List Edit} {n : Nat} :
    removes edits n = true ↔ ∃ e ∈ edits, e.start ≤ n ∧ n < e.stop := by
  simp [removes]

theorem removes_eq_false_iff {edits : List Edit} {n : Nat} :
    removes edits n = false ↔ ∀ e ∈ edits, e.start ≤ n → e.stop ≤ n := by
  simp [removes]

theorem removes_perm {edits edits' : List Edit} (hperm : edits.Perm edits') : removes edits = removes edits' := by
  funext n
  rw [Bool.eq_iff_iff, removes_eq_true_iff, removes_eq_true_iff]
  simp only [hperm.mem_iff]

theorem removes_sorted (edits : List Edit) : removes (sorted edits) = removes edits :=
  removes_perm (sorted_perm edits)

theorem cut_cons {e : Edit} {pre cs : List Char} (rest : List Edit) (hfits : e.Fits (pre ++ cs))
    (hle : Text.width pre ≤ e.start) :
    ∃ gap after, cs = gap ++ e.text.toList ++ after ∧ Text.width (pre ++ gap) = e.start ∧
      Text.width (pre ++ gap ++ e.text.toList) = e.stop ∧
      cut (Text.width pre) (e :: rest) cs = gap ++ cut e.stop rest after := by
  obtain ⟨before, after, htext, hbefore, hstop⟩ := Text.slice?_eq_some_iff.mp hfits
  obtain ⟨gap, rfl, rfl⟩ : ∃ gap, before = pre ++ gap ∧ cs = gap ++ e.text.toList ++ after := by
    rw [List.append_assoc] at htext
    obtain ⟨gap, hb, hcs⟩ := Text.exists_mid_of_width_le htext (hbefore ▸ hle)
    exact ⟨gap, hb, by rw [hcs, List.append_assoc]⟩
  refine ⟨gap, after, rfl, hbefore, by rw [Text.width_append, hbefore, hstop], ?_⟩
  rw [Text.width_append] at hbefore
  have hgap : e.start - Text.width pre = Text.width gap := by omega
  have hdrop : e.stop - Text.width pre = Text.width (gap ++ e.text.toList) := by
    rw [Text.width_append]
    omega
  rw [cut, hgap, hdrop, Text.dropBytes?_append, List.append_assoc, Text.takeBytes?_append, Option.getD_some,
    Option.getD_some]

/-- Cutting out the edits one after the other leaves what no edit removes. -/
theorem cut_eq_without (edits : List Edit) (pre cs : List Char)
    (hfits : ∀ e ∈ edits, e.Fits (pre ++ cs)) (hstart : ∀ e ∈ edits, Text.width pre ≤ e.start)
    (hord : edits.Pairwise fun e f => e.stop ≤ f.start) :
    cut (Text.width pre) edits cs = Text.without (removes edits) (Text.width pre) cs := by
  induction edits generalizing pre cs with
  | nil => exact (Text.without_none _ cs).symm
  | cons e rest ih =>
      obtain ⟨hnext, hrest⟩ := List.pairwise_cons.mp hord
      obtain ⟨gap, after, rfl, hbefore, hstop, hcut⟩ :=
        cut_cons rest (hfits e List.mem_cons_self) (hstart e List.mem_cons_self)
      have htail := ih (pre ++ gap ++ e.text.toList) after
        (fun f hf => by simpa using hfits f (List.mem_cons_of_mem _ hf)) (fun f hf => hstop ▸ hnext f hf) hrest
      rw [hstop] at htail
      rw [Text.width_append, hbefore] at hstop
      rw [Text.width_append] at hbefore
      have hgap : Text.without (removes (e :: rest)) (Text.width pre) gap = gap := by
        refine Text.without_eq_self fun n _ hlt => removes_eq_false_iff.mpr fun f hf hfn => ?_
        rcases List.mem_cons.mp hf with rfl | hf
        · omega
        · have := hnext f hf
          omega
      have hgone : Text.without (removes (e :: rest)) e.start e.text.toList = [] :=
        Text.without_eq_nil fun n hn hlt =>
          removes_eq_true_iff.mpr ⟨e, List.mem_cons_self, hn, by omega⟩
      have hafter : Text.without (removes (e :: rest)) e.stop after = Text.without (removes rest) e.stop after := by
        refine Text.without_congr fun n hn _ => ?_
        simp [removes, Nat.not_lt.mpr hn]
      rw [hcut, htail, Text.without_append, Text.without_append, hgap, Text.width_append, ← Nat.add_assoc, hbefore, hgone,
        hstop, hafter, List.append_nil]

/-- Edits that fit a text and keep apart leave the characters that none of them removes. -/
theorem applyEdits_eq_without {text : String} {edits : List Edit} (hfits : ∀ e ∈ edits, e.Fits text.toList)
    (hpos : ∀ e ∈ edits, e.start < e.stop)
    (hapart : edits.Pairwise fun e f => e.stop ≤ f.start ∨ f.stop ≤ e.start) :
    applyEdits text edits = .ok (.ofList (Text.without (removes edits) 0 text.toList)) := by
  have hcut := cut_eq_without (sorted edits) [] text.toList
    (fun e he => hfits e (mem_sorted.mp he)) (fun _ _ => Nat.zero_le _) (sorted_apart hpos hapart)
  rw [applyEdits_of_apart hfits hpos hapart]
  simp only [Text.width] at hcut
  rw [hcut, removes_sorted]

end Edit

/-- A part of a text that stays or goes away. -/
structure Segment where
  gone : Bool
  text : List Char

namespace Segment

def textAll (segments : List Segment) : List Char := segments.flatMap text

def kept (segments : List Segment) : List Char := (segments.filter (!·.gone)).flatMap text

def edits (path : String) (offset : Nat) : List Segment → List Edit
  | [] => []
  | s :: rest =>
    let more := edits path (offset + Text.width s.text) rest
    if s.gone then ⟨path, offset, .ofList s.text⟩ :: more else more

variable {path : String} {offset : Nat} {segments rest : List Segment}

theorem edits_append :
    edits path offset (segments ++ rest) =
      edits path offset segments ++ edits path (offset + Text.width (textAll segments)) rest := by
  induction segments generalizing offset with
  | nil => simp [edits, textAll, Text.width]
  | cons s segments ih =>
      have hwidth : Text.width (textAll (s :: segments)) = Text.width s.text + Text.width (textAll segments) :=
        Text.width_append _ _
      rw [List.cons_append, edits, edits, ih, hwidth, Nat.add_assoc]
      cases s.gone <;> rfl

theorem edits_text :
    (edits path offset segments).map (·.text) = (segments.filter (·.gone)).map fun s => .ofList s.text := by
  induction segments generalizing offset with
  | nil => rfl
  | cons s segments ih => cases hs : s.gone <;> simp [edits, hs, ih]

theorem le_start_of_mem {e : Edit} (he : e ∈ edits path offset segments) : offset ≤ e.start := by
  induction segments generalizing offset with
  | nil => simp [edits] at he
  | cons s segments ih =>
      rw [edits] at he
      split at he
      · rcases List.mem_cons.mp he with rfl | he
        · exact Nat.le_refl _
        · exact Nat.le_trans (Nat.le_add_right _ _) (ih he)
      · exact Nat.le_trans (Nat.le_add_right _ _) (ih he)

theorem edits_pairwise : (edits path offset segments).Pairwise fun e f => e.stop ≤ f.start := by
  induction segments generalizing offset with
  | nil => exact List.Pairwise.nil
  | cons s segments ih =>
      rw [edits]
      split
      · refine List.Pairwise.cons (fun f hf => ?_) ih
        rw [Edit.stop, Text.utf8ByteSize_ofList]
        exact le_start_of_mem hf
      · exact ih

theorem edits_fit (pre post : List Char) {e : Edit} (he : e ∈ edits path (Text.width pre) segments) :
    e.Fits (pre ++ textAll segments ++ post) := by
  induction segments generalizing pre with
  | nil => simp [edits] at he
  | cons s segments ih =>
      have hrest : e ∈ edits path (Text.width pre + Text.width s.text) segments →
          e.Fits (pre ++ textAll (s :: segments) ++ post) := by
        intro he
        rw [← Text.width_append] at he
        simpa [textAll] using ih _ he
      rw [edits] at he
      split at he
      · rcases List.mem_cons.mp he with rfl | he
        · rw [Edit.Fits, Edit.stop, Text.utf8ByteSize_ofList, String.toList_ofList]
          exact Text.slice?_eq_some_iff.mpr ⟨pre, textAll segments ++ post, by simp [textAll], rfl, rfl⟩
        · exact hrest he
      · exact hrest he

theorem cut_edits (path : String) (segments : List Segment) (offset : Nat) (pre : List Char) :
    Edit.cut offset (edits path (offset + Text.width pre) segments) (pre ++ textAll segments) =
      pre ++ kept segments := by
  induction segments generalizing offset pre with
  | nil => simp [edits, Edit.cut, textAll, kept]
  | cons s segments ih =>
      rw [edits]
      cases hs : s.gone with
      | false =>
          have hstay := ih offset (pre ++ s.text)
          rw [Text.width_append, ← Nat.add_assoc] at hstay
          simpa [textAll, kept, hs] using hstay
      | true =>
          have hnext := ih (offset + Text.width pre + Text.width s.text) []
          simp only [Text.width, Nat.add_zero, List.nil_append] at hnext
          have hstop : offset + Text.width pre + Text.width s.text - offset = Text.width (pre ++ s.text) := by
            rw [Text.width_append]
            omega
          have htext : pre ++ textAll (s :: segments) = (pre ++ s.text) ++ textAll segments := by simp [textAll]
          rw [if_pos rfl, Edit.cut, Edit.stop, Text.utf8ByteSize_ofList, Nat.add_sub_cancel_left, hstop, htext,
            Text.dropBytes?_append, List.append_assoc, Text.takeBytes?_append, Option.getD_some, Option.getD_some, hnext]
          simp [kept, hs]

theorem start_lt_stop_of_mem (hpos : ∀ s ∈ segments, s.gone = true → s.text ≠ []) {e : Edit}
    (he : e ∈ edits path offset segments) : e.start < e.stop := by
  induction segments generalizing offset with
  | nil => simp [edits] at he
  | cons s segments ih =>
      obtain ⟨hs, hrest⟩ := List.forall_mem_cons.mp hpos
      rw [edits] at he
      split at he
      · next hgone =>
          rcases List.mem_cons.mp he with rfl | he
          · rw [Edit.stop, Text.utf8ByteSize_ofList]
            have hne : Text.width s.text ≠ 0 := fun hw => hs hgone (Text.eq_nil_of_width hw)
            omega
          · exact ih hrest he
      · exact ih hrest he

theorem applyEdits_edits (hpos : ∀ s ∈ segments, s.gone = true → s.text ≠ []) :
    applyEdits (.ofList (textAll segments)) (edits path 0 segments) = .ok (.ofList (kept segments)) := by
  have hstart : ∀ e ∈ edits path 0 segments, e.start < e.stop := fun e he => start_lt_stop_of_mem hpos he
  have hsorted : (edits path 0 segments).Pairwise fun e f => e.start ≤ f.start :=
    edits_pairwise.imp_of_mem fun {e f} he _ hef => Nat.le_trans (Nat.le_of_lt (hstart e he)) hef
  have hcut := cut_edits path segments 0 []
  simp only [Text.width, Nat.add_zero, List.nil_append] at hcut
  rw [Edit.applyEdits_of_apart (fun e he => ?_) hstart (edits_pairwise.imp Or.inl), Edit.sorted_eq_self hsorted,
    String.toList_ofList, hcut]
  have hfits := edits_fit [] [] he
  simpa using hfits

end Segment

namespace Removal

open Syntax

variable {t : SyntaxTree} {setup : NodeId} {stale : List String} {policy : SeparatorPolicy}

def isTaken (removals : List Removal) (n : Nat) : Bool :=
  removals.any fun r => r.span.start ≤ n && n < r.span.stop

theorem isTaken_eq_any_span (removals : List Removal) (n : Nat) :
    isTaken removals n = (removals.map (·.span)).any fun s => s.start ≤ n && n < s.stop := by
  rw [List.any_map]
  rfl

theorem isTaken_eq_true_iff {removals : List Removal} {n : Nat} :
    isTaken removals n = true ↔ ∃ r ∈ removals, r.span.start ≤ n ∧ n < r.span.stop := by
  simp [isTaken]

section

variable (h : t.Orderly) (hwf : t.WellFormed)
include h hwf

theorem ofRemoval_stop (path : String) {r : Removal} (hr : r ∈ plan t setup stale policy) :
    (Edit.ofRemoval path t r).stop = r.span.stop := by
  obtain ⟨hstart, hstop, hlt⟩ := plan_span_bounds h hwf hr
  exact (ofRemoval_fits path hstart hstop (Nat.le_of_lt hlt)).2

/-- Carrying out a plan leaves the characters that no removal takes. -/
theorem applyEdits_plan (path text : String) (htext : t.text = text.toList) (setup : NodeId) (stale : List String)
    (policy : SeparatorPolicy) :
    applyEdits text ((plan t setup stale policy).map (Edit.ofRemoval path t)) =
      .ok (.ofList (Text.without (isTaken (plan t setup stale policy)) 0 text.toList)) := by
  have hstop : ∀ r ∈ plan t setup stale policy, (Edit.ofRemoval path t r).stop = r.span.stop :=
    fun r hr => ofRemoval_stop h hwf path hr
  have hremoves : Edit.removes ((plan t setup stale policy).map (Edit.ofRemoval path t)) =
      isTaken (plan t setup stale policy) := by
    funext n
    rw [Bool.eq_iff_iff, Edit.removes_eq_true_iff, isTaken_eq_true_iff]
    constructor
    · rintro ⟨_, he, hle, hlt⟩
      obtain ⟨r, hr, rfl⟩ := List.mem_map.mp he
      exact ⟨r, hr, hle, hstop r hr ▸ hlt⟩
    · rintro ⟨r, hr, hle, hlt⟩
      exact ⟨_, List.mem_map_of_mem hr, hle, (hstop r hr).symm ▸ hlt⟩
  rw [← hremoves]
  refine Edit.applyEdits_eq_without ?_ ?_ ?_
  · refine List.forall_mem_map.mpr fun r hr => ?_
    obtain ⟨hb, hb', hlt⟩ := plan_span_bounds h hwf hr
    exact htext ▸ (ofRemoval_fits path hb hb' (Nat.le_of_lt hlt)).1
  · refine List.forall_mem_map.mpr fun r hr => ?_
    rw [hstop r hr]
    exact (plan_span_bounds h hwf hr).2.2
  · rw [List.pairwise_map]
    refine (List.pairwise_map.mp (spans_apart h hwf setup stale policy)).imp_of_mem fun hr hr' hsep => ?_
    rw [hstop _ hr, hstop _ hr']
    exact hsep

end

end Removal

end Unwire
