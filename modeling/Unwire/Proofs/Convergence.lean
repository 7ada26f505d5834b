import Unwire.Proofs.ExactEdits
import Unwire.Proofs.SecondUpdate

namespace Unwire

open Syntax

namespace UpdatePlan

variable {reader : Reader} {path text className : String} {desired : List Dependency} {config : Config}
  {plan : UpdatePlan} (hwf : (SyntaxTree.read reader path text).WellFormed)
  (hplan : make reader path text desired className config = .ok plan)
include hwf hplan

theorem exists_patched : (∀ e ∈ plan.edits, e.text ≠ "") ∧ ∃ patched, applyEdits text plan.edits = .ok patched := by
  have h : (SyntaxTree.read reader path text).Orderly := hwf.toNested.orderly
  obtain ⟨setup, inst, _, _, rfl⟩ := ofTree_eq_ok_iff.mp hplan
  refine ⟨List.forall_mem_map.mpr fun r hr hempty => ?_, _, Removal.applyEdits_plan h hwf path text rfl _ _ _⟩
  have hstop := Removal.ofRemoval_stop h hwf path hr
  have hlt := (Removal.plan_span_bounds h hwf hr).2.2
  rw [Edit.stop, hempty] at hstop
  exact Nat.ne_of_lt hlt hstop

theorem exists_shorter (hne : plan.edits ≠ []) :
    ∃ patched, applyEdits text plan.edits = .ok patched ∧ patched.utf8ByteSize < text.utf8ByteSize := by
  obtain ⟨htext, patched, happly⟩ := exists_patched hwf hplan
  refine ⟨patched, happly, ?_⟩
  have hsize := Edit.size_of_applyEdits happly
  obtain ⟨e, rest, hedits⟩ := List.exists_cons_of_ne_nil hne
  have hpos : e.text.utf8ByteSize ≠ 0 := fun hzero =>
    htext e (by simp [hedits]) (String.utf8ByteSize_eq_zero_iff.mp hzero)
  rw [hedits, List.map_cons, List.sum_cons] at hsize
  omega

end UpdatePlan

structure Update where
  reader : Reader
  path : String
  desired : List Dependency
  className : String
  config : Config

namespace Update

variable (u : Update)

def tree (text : String) : SyntaxTree := .read u.reader u.path text

def plan (text : String) : Except UpdateError UpdatePlan :=
  UpdatePlan.make u.reader u.path text u.desired u.className u.config

/-- Updates that each remove something lead from one text to another, each on what the one before left. -/
inductive Rounds : Nat → String → String → Prop
  | start (text : String) : Rounds 0 text text
  | next {n : Nat} {text text' last : String} {plan : UpdatePlan} (hplan : u.plan text = .ok plan)
      (hedits : plan.edits ≠ []) (happly : applyEdits text plan.edits = .ok text') (hrest : Rounds n text' last) :
      Rounds (n + 1) text last

variable {u} {n : Nat} {text last : String}

theorem Rounds.size_le (hrounds : u.Rounds n text last)
    (hwf : ∀ m mid, u.Rounds m text mid → (u.tree mid).WellFormed) :
    n + last.utf8ByteSize ≤ text.utf8ByteSize := by
  induction hrounds with
  | start text => omega
  | next hplan hedits happly hrest ih =>
      obtain ⟨patched, hpatched, hlt⟩ := UpdatePlan.exists_shorter (hwf 0 _ (.start _)) hplan hedits
      obtain rfl := Except.ok.inj (happly.symm.trans hpatched)
      have hle := ih fun m mid hmid => hwf (m + 1) mid (.next hplan hedits happly hmid)
      omega

theorem exists_rounds (hwf : ∀ m mid, u.Rounds m text mid → (u.tree mid).WellFormed) :
    ∃ n last, u.Rounds n text last ∧
      ((∃ plan, u.plan last = .ok plan ∧ plan.edits = []) ∨ ∃ cause, u.plan last = .error cause) := by
  induction hsize : text.utf8ByteSize using Nat.strongRecOn generalizing text with
  | ind size ih =>
      cases hplan : u.plan text with
      | error cause => exact ⟨0, text, .start text, Or.inr ⟨cause, hplan⟩⟩
      | ok plan =>
          by_cases hedits : plan.edits = []
          · exact ⟨0, text, .start text, Or.inl ⟨plan, hplan, hedits⟩⟩
          · obtain ⟨patched, hpatched, hlt⟩ := UpdatePlan.exists_shorter (hwf 0 text (.start text)) hplan hedits
            obtain ⟨n, last, hrounds, hend⟩ := ih _ (hsize ▸ hlt)
              (fun m mid hmid => hwf (m + 1) mid (.next hplan hedits hpatched hmid)) rfl
            exact ⟨n + 1, last, .next hplan hedits hpatched hrounds, hend⟩

end Update

/-- Updates that are carried out again and again, on texts with well-formed trees, end with one that removes nothing or
that finds nothing to update. Each of them can be carried out and leaves a shorter text, so there are no more of them than
the text has bytes. -/
theorem updates_converge (u : Update) (text : String)
    (hwf : ∀ n last, u.Rounds n text last → (u.tree last).WellFormed) :
    (∃ n ≤ text.utf8ByteSize, ∃ last, u.Rounds n text last ∧
      ((∃ plan, u.plan last = .ok plan ∧ plan.edits = []) ∨ ∃ cause, u.plan last = .error cause)) ∧
    ∀ n last, u.Rounds n text last → n + last.utf8ByteSize ≤ text.utf8ByteSize ∧
      ∀ plan, u.plan last = .ok plan → plan.edits ≠ [] →
        ∃ patched, applyEdits last plan.edits = .ok patched ∧ patched.utf8ByteSize < last.utf8ByteSize := by
  constructor
  · obtain ⟨n, last, hrounds, hend⟩ := Update.exists_rounds hwf
    have hle := hrounds.size_le hwf
    exact ⟨n, by omega, last, hrounds, hend⟩
  · intro n last hrounds
    exact ⟨hrounds.size_le hwf, fun plan => UpdatePlan.exists_shorter (hwf n last hrounds)⟩

section Setup

variable {reader : Reader} {path : String}

theorem exists_plan_setup
    (hread : SyntaxTree.read reader path Removal.setupText = .ofParse Removal.setupText Removal.setupTree) :
    ∃ plan, UpdatePlan.make reader path Removal.setupText [⟨"d", none⟩] "C" ⟨"f", .listAware⟩ = .ok plan ∧
      plan.edits ≠ [] ∧ applyEdits Removal.setupText plan.edits = .ok leftText := by
  obtain ⟨_, _, hsetup, hinst, hstale, _⟩ := setup_wiring
  have hspans := setup_spans
  refine ⟨_, UpdatePlan.make_eq_ok hread hsetup hinst, ?_, ?_⟩
  · rw [UpdatePlan.ofWiring, hstale, Ne, List.map_eq_nil_iff]
    intro hnil
    rw [hnil] at hspans
    cases hspans
  · rw [UpdatePlan.ofWiring, hstale]
    exact setup_patched path

theorem exists_plan_left (hread : SyntaxTree.read reader path leftText = .ofParse leftText leftTree) :
    ∃ again, UpdatePlan.make reader path leftText [⟨"d", none⟩] "C" ⟨"f", .listAware⟩ = .ok again ∧
      again.edits = [] := by
  have hsetup : (SyntaxTree.ofParse leftText leftTree).findSetup? "f" = some ⟨1, "f"⟩ := by decide +kernel
  have hinst : (SyntaxTree.ofParse leftText leftTree).findInstantiation? 1 "C" = some 18 := by decide +kernel
  have hstale : staleNames ((SyntaxTree.ofParse leftText leftTree).wiredNames 18) [⟨"d", none⟩] = [] := by
    decide +kernel
  refine ⟨_, UpdatePlan.make_eq_ok hread hsetup hinst, ?_⟩
  rw [UpdatePlan.ofWiring, hstale]
  rfl

end Setup

def setupUpdate : Update := ⟨leftReader, "f.ts", [⟨"d", none⟩], "C", ⟨"f", .listAware⟩⟩

theorem setupUpdate_rounds {n : Nat} {last : String} (hrounds : setupUpdate.Rounds n Removal.setupText last) :
    last = Removal.setupText ∨ last = leftText := by
  obtain ⟨first, hfirst, _, hpatched⟩ := exists_plan_setup read_setup
  obtain ⟨again, hagain, hnone⟩ := exists_plan_left read_left
  cases hrounds with
  | start => exact Or.inl rfl
  | next hplan _ happly hrest =>
      obtain rfl := Except.ok.inj (hfirst.symm.trans hplan)
      obtain rfl := Except.ok.inj (hpatched.symm.trans happly)
      cases hrest with
      | start => exact Or.inr rfl
      | next hplan hedits _ _ =>
          obtain rfl := Except.ok.inj (hagain.symm.trans hplan)
          exact absurd hnone hedits

theorem setup_converges :
    (∀ n last, setupUpdate.Rounds n Removal.setupText last → (setupUpdate.tree last).WellFormed) ∧
      setupUpdate.Rounds 1 Removal.setupText leftText ∧
      1 + leftText.utf8ByteSize ≤ Removal.setupText.utf8ByteSize ∧
      ∃ n ≤ Removal.setupText.utf8ByteSize, ∃ last, setupUpdate.Rounds n Removal.setupText last ∧
        ((∃ plan, setupUpdate.plan last = .ok plan ∧ plan.edits = []) ∨ ∃ cause, setupUpdate.plan last = .error cause) := by
  have hwf : ∀ n last, setupUpdate.Rounds n Removal.setupText last → (setupUpdate.tree last).WellFormed := by
    intro n last hrounds
    rcases setupUpdate_rounds hrounds with rfl | rfl
    · rw [Update.tree, setupUpdate, read_setup]
      exact setup_wiring.1
    · rw [Update.tree, setupUpdate, read_left]
      decide +kernel
  obtain ⟨first, hfirst, hedits, hpatched⟩ := exists_plan_setup read_setup
  have hround : setupUpdate.Rounds 1 Removal.setupText leftText := .next hfirst hedits hpatched (.start _)
  obtain ⟨hend, hall⟩ := updates_converge setupUpdate Removal.setupText hwf
  exact ⟨hwf, hround, (hall 1 leftText hround).1, hend⟩

end Unwire
