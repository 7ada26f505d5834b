import Unwire.Proofs.Convergence
import Unwire.Proofs.FileWrites
import Unwire.Sync.Basic

namespace Unwire

open Syntax

namespace Sync

inductive Finding where
  | failure (cause : SyncError)
  | settled (report : Report)
  | stale (report : Report) (text : String) (edits : List Edit)

namespace Settings

variable (s : Settings)

/-- Finds out what there is to do, from the class file and its spec file. -/
def inspect (files : FileTree) (path : String) : Finding :=
  match files.read path with
  | .error cause => .failure (.readClass path cause)
  | .ok classText =>
    match ClassSignature.read s.reader path classText s.className with
    | .error cause => .failure (.noClass cause)
    | .ok signature =>
      let spec := Path.spec path
      if files.isFile spec then
        match files.read spec with
        | .error cause => .failure (.readSpec spec cause)
        | .ok text =>
          match UpdatePlan.make s.reader spec text signature.dependencies signature.name s.config with
          | .error cause => .failure (.update cause)
          | .ok plan =>
            let report (status : Status) : Report :=
              ⟨path, spec, signature.name, plan.unwired.map Dependency.name, status⟩
            if plan.edits.isEmpty then .settled (report .upToDate)
            else .stale (report (.updated (plan.edits.map (.ofEdit text.toList)))) text plan.edits
      else .settled ⟨path, spec, signature.name, [], .noSpecFile⟩

theorem inspect_dryRun (b : Bool) (files : FileTree) (path : String) :
    { s with dryRun := b }.inspect files path = s.inspect files path := by
  rw [inspect, inspect]

def settle (spec : String) : Finding → Job (Except SyncError Report)
  | .failure cause => .done (.error cause)
  | .settled report => .done (.ok report)
  | .stale report text edits =>
    if s.dryRun then .done (.ok report)
    else match applyEdits text edits with
      | .error cause => .done (.error (.edit cause))
      | .ok patched => .write spec patched fun
        | .error cause => .done (.error (.writeSpec spec cause))
        | .ok () => .done (.ok report)

/-- The first three steps find out what there is to do, unless the files change in between. -/
theorem syncFile_looks (files : FileTree) (path : String) :
    ∃ j₁ j₂, (s.syncFile path).step files = (j₁, files) ∧ j₁.step files = (j₂, files) ∧
      j₂.step files = (s.settle (Path.spec path) (s.inspect files path), files) := by
  rw [syncFile, Job.step, inspect]
  rcases files.read path with cause | classText
  · exact ⟨_, _, rfl, rfl, rfl⟩
  dsimp only
  rcases ClassSignature.read s.reader path classText s.className with cause | signature
  · exact ⟨_, _, rfl, rfl, rfl⟩
  refine ⟨_, _, rfl, rfl, ?_⟩
  dsimp only
  rcases files.isFile (Path.spec path) with _ | _
  · rfl
  dsimp only [Job.step]
  rw [if_pos rfl]
  rcases files.read (Path.spec path) with cause | text
  · rfl
  dsimp only
  rcases UpdatePlan.make s.reader (Path.spec path) text signature.dependencies signature.name s.config with
    cause | plan
  · rfl
  dsimp only
  rcases plan.edits.isEmpty with _ | _ <;> rfl

theorem run_syncFile (files : FileTree) (path : String) :
    (s.syncFile path).run files = (s.settle (Path.spec path) (s.inspect files path)).run files := by
  obtain ⟨j₁, j₂, h₁, h₂, h₃⟩ := s.syncFile_looks files path
  rw [← Job.run_step, h₁, ← Job.run_step, h₂, ← Job.run_step, h₃]

variable {s} {files : FileTree} {path text : String} {report : Report} {edits : List Edit}

theorem inspect_of_plan {classText : String} {signature : ClassSignature} {plan : UpdatePlan}
    (hclass : files.read path = .ok classText)
    (hsignature : ClassSignature.read s.reader path classText s.className = .ok signature)
    (hread : files.read (Path.spec path) = .ok text)
    (hplan : UpdatePlan.make s.reader (Path.spec path) text signature.dependencies signature.name s.config = .ok plan) :
    s.inspect files path =
      if plan.edits.isEmpty then
        .settled ⟨path, Path.spec path, signature.name, plan.unwired.map Dependency.name, .upToDate⟩
      else .stale ⟨path, Path.spec path, signature.name, plan.unwired.map Dependency.name,
        .updated (plan.edits.map (.ofEdit text.toList))⟩ text plan.edits := by
  simp only [inspect, hclass, hsignature, FileTree.isFile_of_read hread, hread, hplan, if_true]

theorem cases_of_settled (h : s.inspect files path = .settled report) :
    report.classFile = path ∧ (report.status = .noSpecFile ∨ report.status = .upToDate ∧
      ∃ classText signature text plan, files.read path = .ok classText ∧
        ClassSignature.read s.reader path classText s.className = .ok signature ∧
        files.read (Path.spec path) = .ok text ∧
        UpdatePlan.make s.reader (Path.spec path) text signature.dependencies signature.name s.config = .ok plan ∧
        plan.edits = []) := by
  rw [inspect] at h
  split at h
  · cases h
  next hclass =>
  split at h
  · cases h
  next hsignature =>
  dsimp only at h
  split at h
  · split at h
    · cases h
    next hread =>
    split at h
    · cases h
    next hplan =>
    split at h
    · next hnone =>
        cases h
        exact ⟨rfl, Or.inr ⟨rfl, _, _, _, _, hclass, hsignature, hread, hplan, List.isEmpty_iff.mp hnone⟩⟩
    · cases h
  · cases h
    exact ⟨rfl, Or.inl rfl⟩

theorem report_of_settled (h : s.inspect files path = .settled report) :
    report.classFile = path ∧ ∀ located, report.status ≠ .updated located := by
  obtain ⟨hfile, hstatus | ⟨hstatus, _⟩⟩ := cases_of_settled h
  · simp [hfile, hstatus]
  · simp [hfile, hstatus]

theorem report_of_stale (h : s.inspect files path = .stale report text edits) :
    report.classFile = path ∧ report.status = .updated (edits.map (.ofEdit text.toList)) ∧
      files.read (Path.spec path) = .ok text ∧ edits ≠ [] ∧
      ∃ desired className plan,
        UpdatePlan.make s.reader (Path.spec path) text desired className s.config = .ok plan ∧ plan.edits = edits := by
  rw [inspect] at h
  split at h
  · cases h
  split at h
  · cases h
  dsimp only at h
  split at h
  · split at h
    · cases h
    next hread =>
    split at h
    · cases h
    next hplan =>
    split at h
    · cases h
    next hsome =>
    cases h
    exact ⟨rfl, rfl, hread, fun hnil => hsome (by simp [hnil]), _, _, _, hplan, rfl⟩
  · cases h

theorem map_edit_ofEdit (text : List Char) (edits : List Edit) :
    (edits.map (LocatedEdit.ofEdit text)).map (·.edit) = edits := by
  simp [LocatedEdit.ofEdit, Function.comp_def]

theorem inspect_of_run (h : ((s.syncFile path).run files).1 = .ok report) :
    s.inspect files path = .settled report ∨ ∃ text edits, s.inspect files path = .stale report text edits := by
  rw [run_syncFile] at h
  cases hfind : s.inspect files path with
  | failure cause =>
      rw [hfind] at h
      cases h
  | settled report' =>
      rw [hfind] at h
      cases h
      exact Or.inl rfl
  | stale report' text edits =>
      rw [hfind, settle] at h
      obtain rfl : report' = report := by
        split at h
        · exact Except.ok.inj h
        split at h
        · cases h
        rw [Job.run] at h
        split at h
        · exact Except.ok.inj h
        · cases h
      exact Or.inr ⟨text, edits, rfl⟩

theorem classFile_of_run (h : ((s.syncFile path).run files).1 = .ok report) : report.classFile = path := by
  obtain hfind | ⟨text, edits, hfind⟩ := inspect_of_run h
  · exact (report_of_settled hfind).1
  · exact (report_of_stale hfind).1

theorem settle_stale (hfind : s.inspect files path = .stale report text edits)
    (hwf : (SyntaxTree.read s.reader (Path.spec path) text).WellFormed) (hwrite : s.dryRun = false) :
    ∃ patched files', applyEdits text edits = .ok patched ∧ patched ≠ text ∧
      files.Rewritten (Path.spec path) patched files' ∧
      (s.settle (Path.spec path) (.stale report text edits)).run files = (.ok report, files') := by
  obtain ⟨_, _, hread, hne, desired, className, plan, hplan, rfl⟩ := report_of_stale hfind
  obtain ⟨patched, happly, hlt⟩ := UpdatePlan.exists_shorter hwf hplan hne
  obtain ⟨files', hwritten, hfiles'⟩ := FileTree.exists_rewritten (FileTree.isFile_of_read hread) patched
  refine ⟨patched, files', happly, ?_, hfiles', ?_⟩
  · rintro rfl
    exact Nat.lt_irrefl _ hlt
  · simp only [settle, hwrite, happly]
    rw [if_neg Bool.false_ne_true, Job.run, hwritten]
    rfl

end Settings

/-- A run that must not write leaves all files as they are, and tells what a run that may write tells. A run that fails
leaves them too. A run that succeeds changes the spec file if it reports edits, which takes away the bytes of these
edits, and nothing else. -/
theorem sync_is_atomic (s : Settings) (files : FileTree) (path : String)
    (hwf : ∀ text, files.read (Path.spec path) = .ok text →
      (SyntaxTree.read s.reader (Path.spec path) text).WellFormed) :
    let dry := ({ s with dryRun := true }.syncFile path).run files
    let real := ({ s with dryRun := false }.syncFile path).run files
    dry.2 = files ∧ real.1 = dry.1 ∧ (∀ cause, real.1 = .error cause → real.2 = files) ∧
      ∀ report, real.1 = .ok report →
        (real.2 = files ∧ ∀ edits, report.status ≠ .updated edits) ∨
        ∃ edits place old new, report.status = .updated edits ∧
          files.resolve (Path.spec path) = .ok place ∧ files.content? place = some (.text old) ∧
          real.2.content? place = some (.text new) ∧ new ≠ old ∧
          Text.bytes new = Text.keptBytes (Edit.removes (edits.map (·.edit))) 0 (Text.bytes old) ∧
          real.2.shape = files.shape ∧ ∀ other ≠ place, real.2.content? other = files.content? other := by
  intro dry real
  have hdry : dry = ({ s with dryRun := true }.settle (Path.spec path) (s.inspect files path)).run files := by
    rw [← s.inspect_dryRun true]
    exact Settings.run_syncFile _ files path
  have hreal : real = ({ s with dryRun := false }.settle (Path.spec path) (s.inspect files path)).run files := by
    rw [← s.inspect_dryRun false]
    exact Settings.run_syncFile _ files path
  cases hfind : s.inspect files path with
  | failure cause =>
      rw [hfind] at hdry hreal
      rw [hdry, hreal]
      exact ⟨rfl, rfl, fun _ _ => rfl, fun _ h => by cases h⟩
  | settled report =>
      rw [hfind] at hdry hreal
      rw [hdry, hreal]
      refine ⟨rfl, rfl, fun _ h => (by cases h), fun report' h => Or.inl ⟨rfl, ?_⟩⟩
      cases h
      exact (Settings.report_of_settled hfind).2
  | stale report text edits =>
      obtain ⟨_, hstatus, hread, _⟩ := Settings.report_of_stale hfind
      obtain ⟨patched, files', happly, hne, hrewritten, hsettle⟩ :=
        Settings.settle_stale ((s.inspect_dryRun false files path).trans hfind) (hwf text hread) rfl
      rw [hfind] at hdry hreal
      rw [hsettle] at hreal
      rw [hdry, hreal]
      refine ⟨rfl, rfl, fun _ h => (by cases h), fun report' h => Or.inr ?_⟩
      cases h
      obtain ⟨place, hplace, hold⟩ := FileTree.read_eq_ok_iff.mp hread
      obtain ⟨place', hplace', hnew⟩ := FileTree.read_eq_ok_iff.mp hrewritten.self
      rw [FileTree.resolve_congr hrewritten.shape, hplace] at hplace'
      obtain rfl := Except.ok.inj hplace'
      refine ⟨_, place, text, patched, hstatus, hplace, hold, hnew, hne, ?_, hrewritten.shape,
        fun other => hrewritten.others hplace⟩
      rw [Settings.map_edit_ofEdit]
      exact Edit.bytes_of_applyEdits happly

def classText : String := "class C \x7b constructor(d) \x7b\x7d \x7d"

def classTree : Parse.ParseTree where
  root := .node "program" none 0 29 [
    .node "class_declaration" none 0 29 [
      .node "class" none 0 5 [],
      .node "type_identifier" (some "name") 6 7 [],
      .node "class_body" (some "body") 8 29 [
        .node "\x7b" none 8 9 [],
        .node "method_definition" none 10 27 [
          .node "property_identifier" (some "name") 10 21 [],
          .node "formal_parameters" (some "parameters") 21 24 [
            .node "(" none 21 22 [],
            .node "required_parameter" none 22 23 [.node "identifier" (some "pattern") 22 23 []],
            .node ")" none 23 24 []],
          .node "statement_block" (some "body") 25 27 [.node "\x7b" none 25 26 [], .node "\x7d" none 26 27 []]],
        .node "\x7d" none 28 29 []]]]
  faulty := false

theorem signature_classText {reader : Reader} {path : String}
    (htree : SyntaxTree.read reader path classText = .ofParse classText classTree) :
    ClassSignature.read reader path classText none = .ok ⟨"C", [⟨"d", none⟩]⟩ := by
  have hfind : ClassSignature.find? (.ofParse classText classTree) none = some ⟨"C", [⟨"d", none⟩]⟩ := by
    decide +kernel
  rw [ClassSignature.read, htree, hfind]

def classReader : Reader := fun _ text => if text = Removal.setupText then Removal.setupTree else classTree

def classFiles : FileTree :=
  .directory [("c.ts", .file (.text classText)), ("c.spec.ts", .file (.text Removal.setupText))]

theorem sync_two_stale_names :
    let s : Settings := { reader := classReader, config := ⟨"f", .listAware⟩ }
    (∀ text, classFiles.read (Path.spec "c.ts") = .ok text →
      (SyntaxTree.read classReader (Path.spec "c.ts") text).WellFormed) ∧
    ∃ report edits files', ({ s with dryRun := true }.syncFile "c.ts").run classFiles = (.ok report, classFiles) ∧
      ({ s with dryRun := false }.syncFile "c.ts").run classFiles = (.ok report, files') ∧
      report.status = .updated edits ∧ edits.length = 3 ∧ files'.content? ["c.ts"] = some (.text classText) ∧
      files'.content? ["c.spec.ts"] ≠ some (.text Removal.setupText) := by
  intro s
  have hspec : Path.spec "c.ts" = "c.spec.ts" := by decide
  have hplace : classFiles.resolve (Path.spec "c.ts") = .ok ["c.spec.ts"] := by rfl
  have hread : classFiles.read (Path.spec "c.ts") = .ok Removal.setupText :=
    FileTree.read_eq_ok_iff.mpr ⟨_, hplace, rfl⟩
  have hclass : classFiles.read "c.ts" = .ok classText := FileTree.read_eq_ok_iff.mpr ⟨["c.ts"], rfl, rfl⟩
  have htree : SyntaxTree.read classReader (Path.spec "c.ts") Removal.setupText =
      .ofParse Removal.setupText Removal.setupTree := by
    rw [SyntaxTree.read, classReader, if_pos rfl]
  have hwf : ∀ text, classFiles.read (Path.spec "c.ts") = .ok text →
      (SyntaxTree.read classReader (Path.spec "c.ts") text).WellFormed := by
    intro text htext
    obtain rfl := Except.ok.inj (hread.symm.trans htext)
    rw [htree]
    exact setup_wiring.1
  have hsignature : ClassSignature.read classReader "c.ts" classText none = .ok ⟨"C", [⟨"d", none⟩]⟩ := by
    apply signature_classText
    rw [SyntaxTree.read, classReader, if_neg (by decide)]
  obtain ⟨_, _, hsetup, hinst, hstale, _⟩ := setup_wiring
  have hplan : UpdatePlan.make classReader (Path.spec "c.ts") Removal.setupText [⟨"d", none⟩] "C" ⟨"f", .listAware⟩ =
      .ok (.ofWiring (.ofParse Removal.setupText Removal.setupTree) (Path.spec "c.ts") [⟨"d", none⟩] .listAware
        ⟨1, "f"⟩ 25) := by
    rw [UpdatePlan.make, htree]
    exact UpdatePlan.ofTree_eq_ok_iff.mpr ⟨⟨1, "f"⟩, 25, hsetup, hinst, rfl⟩
  have hlength := congrArg List.length setup_spans
  rw [List.length_map, ← hstale] at hlength
  obtain ⟨report, edits, hreport, hstatus, hedits⟩ : ∃ report edits,
      ({ s with dryRun := true }.syncFile "c.ts").run classFiles = (.ok report, classFiles) ∧
        report.status = .updated edits ∧ edits.length = 3 := by
    have hfind := Settings.inspect_of_plan (s := { s with dryRun := true }) hclass hsignature hread hplan
    rw [if_neg (by simp [UpdatePlan.ofWiring, ← List.length_eq_zero_iff, hlength])] at hfind
    rw [Settings.run_syncFile, hfind]
    exact ⟨_, _, rfl, rfl, by simp [UpdatePlan.ofWiring, hlength]⟩
  obtain ⟨_, hsame, _, hok⟩ := sync_is_atomic s classFiles "c.ts" hwf
  rw [hreport] at hsame
  generalize ({ s with dryRun := false }.syncFile "c.ts").run classFiles = real at hsame hok
  obtain ⟨result, files'⟩ := real
  obtain rfl : result = .ok report := hsame
  obtain ⟨_, hnone⟩ | ⟨_, place, old, new, _, hplace', hold, hnew, hne, _, _, hothers⟩ := hok report rfl
  · exact absurd hstatus (hnone edits)
  obtain rfl := Except.ok.inj (hplace.symm.trans hplace')
  refine ⟨hwf, report, edits, files', hreport, rfl, hstatus, hedits, ?_, ?_⟩
  · rw [hothers ["c.ts"] (by decide)]
    rfl
  · have hself : classFiles.content? ["c.spec.ts"] = some (.text Removal.setupText) := rfl
    have htext := Content.text.inj (Option.some.inj (hself.symm.trans hold))
    exact fun he => hne ((Content.text.inj (Option.some.inj (hnew.symm.trans he))).trans htext)

end Sync

end Unwire
