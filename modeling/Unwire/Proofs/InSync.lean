import Unwire.Proofs.SyncRun

namespace Unwire

open Syntax

theorem staleNames_eq_nil_iff {wired : List String} {desired : List Dependency} :
    staleNames wired desired = [] ↔ ∀ name ∈ wired, ∃ d ∈ desired, d.name = name := by
  simp only [List.eq_nil_iff_forall_not_mem, mem_staleNames, not_and, Bool.not_eq_false, List.any_eq_true, beq_iff_eq]

namespace Removal

/-- A function uses a name that it mentions other than to declare it. -/
def Uses (t : SyntaxTree) (setup : NodeId) (name : String) : Prop :=
  ∃ i ∈ t.descendants setup, (t.node i).kind = .identifier ∧ t.textOf i = name ∧ isDeclaredName t i = false

instance (t : SyntaxTree) (setup : NodeId) (name : String) : Decidable (Uses t setup name) :=
  inferInstanceAs (Decidable (∃ i ∈ t.descendants setup, _))

variable {t : SyntaxTree} {setup : NodeId} {stale : List String}

/-- Nothing is removed if no statement of the body declares a stale name and the function only ever declares such names,
which it can do in a function inside it. -/
theorem removedNodes_eq_nil_iff (h : t.Linked) :
    removedNodes t setup stale = [] ↔
      (∀ d, ¬IsStaleStatement t setup stale d) ∧ ∀ name ∈ stale, ¬Uses t setup name := by
  simp only [List.eq_nil_iff_forall_not_mem, mem_removedNodes h, not_or, forall_and]
  refine and_congr_right fun hnone => ⟨?_, ?_⟩
  · rintro husage name hstale ⟨i, hi, hname, rfl, hnot⟩
    exact husage i ⟨h.mem_descendants.mp hi, hname, hstale, hnot, fun d hd => absurd hd (hnone d)⟩
  · intro huses u hu
    exact huses _ hu.mem_stale ⟨u, h.mem_descendants.mpr hu.below, hu.name, rfl, hu.not_declared⟩

end Removal

namespace UpdatePlan

variable {t : SyntaxTree} {path : String} {desired : List Dependency} {policy : SeparatorPolicy} {setup : SetupFunction}
  {inst : NodeId}

theorem ofWiring_edits_eq_nil_iff (h : t.Linked) :
    (ofWiring t path desired policy setup inst).edits = [] ↔
      (∀ d, ¬Removal.IsStaleStatement t setup.node (staleNames (t.wiredNames inst) desired) d) ∧
        ∀ name ∈ staleNames (t.wiredNames inst) desired, ¬Removal.Uses t setup.node name := by
  rw [ofWiring, List.map_eq_nil_iff, Removal.plan_eq_nil_iff, Removal.removedNodes_eq_nil_iff h]

theorem ofWiring_edits_eq_nil_iff_stale (h : t.Linked)
    (huses : ∀ name ∈ t.wiredNames inst, Removal.Uses t setup.node name) :
    (ofWiring t path desired policy setup inst).edits = [] ↔ (ofWiring t path desired policy setup inst).stale = [] := by
  rw [ofWiring_edits_eq_nil_iff h]
  constructor
  · rintro ⟨_, hunused⟩
    exact List.eq_nil_iff_forall_not_mem.mpr fun name hstale =>
      hunused name hstale (huses name (mem_staleNames.mp hstale).1)
  · intro hnil
    have hnil : staleNames (t.wiredNames inst) desired = [] := hnil
    rw [hnil]
    exact ⟨fun d ⟨_, _, _, _, _, _, hstale⟩ => List.not_mem_nil hstale, fun _ hstale => absurd hstale List.not_mem_nil⟩

end UpdatePlan

namespace Sync

namespace Settings

variable {s : Settings} {files : FileTree} {path : String}

theorem run_upToDate_iff :
    (∃ report, ((s.syncFile path).run files).1 = .ok report ∧ report.status = .upToDate) ↔
      ∃ classText signature text plan, files.read path = .ok classText ∧
        ClassSignature.read s.reader path classText s.className = .ok signature ∧
        files.read (Path.spec path) = .ok text ∧
        UpdatePlan.make s.reader (Path.spec path) text signature.dependencies signature.name s.config = .ok plan ∧
        plan.edits = [] := by
  constructor
  · rintro ⟨report, hrun, hstatus⟩
    obtain hfind | ⟨text, edits, hfind⟩ := inspect_of_run hrun
    · obtain ⟨_, hmissing | ⟨_, hplan⟩⟩ := cases_of_settled hfind
      · rw [hstatus] at hmissing
        cases hmissing
      · exact hplan
    · obtain ⟨_, hupdated, _⟩ := report_of_stale hfind
      rw [hstatus] at hupdated
      cases hupdated
  · rintro ⟨classText, signature, text, plan, hclass, hsignature, hread, hplan, hnone⟩
    have hfind := inspect_of_plan hclass hsignature hread hplan
    rw [if_pos (List.isEmpty_iff.mpr hnone)] at hfind
    rw [run_syncFile, hfind]
    exact ⟨_, rfl, rfl⟩

end Settings

/-- An update has no edits if no statement of the setup function declares a stale name and all that the function does with
stale names is to declare them. So long as it uses all names that it wires, there are no edits if there are no stale names;
a name that is only declared, by a function among the arguments, stays wired though it is stale. The file is told to be up
to date if there are no edits. -/
theorem up_to_date_iff (s : Settings) :
    (∀ path text className desired plan,
      UpdatePlan.make s.reader path text desired className s.config = .ok plan →
      let t := SyntaxTree.read s.reader path text
      ∃ setup inst, t.findSetup? s.config.setupPrefix = some setup ∧
        t.findInstantiation? setup.node className = some inst ∧ plan.wired = t.wiredNames inst ∧
        (plan.stale = [] ↔ ∀ name ∈ plan.wired, ∃ d ∈ desired, d.name = name) ∧
        (plan.edits = [] ↔ (∀ d, ¬Removal.IsStaleStatement t setup.node plan.stale d) ∧
          ∀ name ∈ plan.stale, ¬Removal.Uses t setup.node name) ∧
        ((∀ name ∈ plan.wired, Removal.Uses t setup.node name) → (plan.edits = [] ↔ plan.stale = []))) ∧
    ∀ files path, (∃ report, ((s.syncFile path).run files).1 = .ok report ∧ report.status = .upToDate) ↔
      ∃ classText signature text plan, files.read path = .ok classText ∧
        ClassSignature.read s.reader path classText s.className = .ok signature ∧
        files.read (Path.spec path) = .ok text ∧
        UpdatePlan.make s.reader (Path.spec path) text signature.dependencies signature.name s.config = .ok plan ∧
        plan.edits = [] := by
  refine ⟨fun path text className desired plan hplan => ?_, fun files path => Settings.run_upToDate_iff⟩
  intro t
  have h : t.Linked := SyntaxTree.ofParse_linked _ _
  obtain ⟨setup, inst, hsetup, hinst, rfl⟩ := UpdatePlan.ofTree_eq_ok_iff.mp hplan
  exact ⟨setup, inst, hsetup, hinst, rfl, staleNames_eq_nil_iff, UpdatePlan.ofWiring_edits_eq_nil_iff h,
    UpdatePlan.ofWiring_edits_eq_nil_iff_stale h⟩

def nestedText : String := "function f() \x7b new C(() => \x7b let p; \x7d); \x7d"

def nestedTree : Parse.ParseTree where
  root := .node "program" none 0 41 [
    .node "function_declaration" none 0 41 [
      .node "function" none 0 8 [],
      .node "identifier" (some "name") 9 10 [],
      .node "formal_parameters" (some "parameters") 10 12 [.node "(" none 10 11 [], .node ")" none 11 12 []],
      .node "statement_block" (some "body") 13 41 [
        .node "\x7b" none 13 14 [],
        .node "expression_statement" none 15 39 [
          .node "new_expression" none 15 38 [
            .node "new" none 15 18 [],
            .node "identifier" (some "constructor") 19 20 [],
            .node "arguments" (some "arguments") 20 38 [
              .node "(" none 20 21 [],
              .node "arrow_function" none 21 37 [
                .node "formal_parameters" (some "parameters") 21 23 [.node "(" none 21 22 [], .node ")" none 22 23 []],
                .node "=>" none 24 26 [],
                .node "statement_block" (some "body") 27 37 [
                  .node "\x7b" none 27 28 [],
                  .node "lexical_declaration" none 29 35 [
                    .node "let" (some "kind") 29 32 [],
                    .node "variable_declarator" none 33 34 [.node "identifier" (some "name") 33 34 []],
                    .node ";" none 34 35 []],
                  .node "\x7d" none 36 37 []]],
              .node ")" none 37 38 []]],
          .node ";" none 38 39 []],
        .node "\x7d" none 40 41 []]]]
  faulty := false

def nestedReader : Reader := fun dialect text => if text = nestedText then nestedTree else classReader dialect text

def nestedFiles : FileTree :=
  .directory [("c.ts", .file (.text classText)), ("c.spec.ts", .file (.text nestedText))]

theorem nested_wiring :
    let t := SyntaxTree.ofParse nestedText nestedTree
    t.findSetup? "f" = some ⟨1, "f"⟩ ∧ t.findInstantiation? 1 "C" = some 10 ∧ t.wiredNames 10 = ["p"] ∧
      staleNames (t.wiredNames 10) [⟨"d", none⟩] = ["p"] ∧ Removal.staleStatements t 1 ["p"] = [] ∧
      ∀ name ∈ ["p"], ¬Removal.Uses t 1 name := by
  decide +kernel

theorem read_nested :
    SyntaxTree.read nestedReader (Path.spec "c.ts") nestedText = .ofParse nestedText nestedTree := by
  rw [SyntaxTree.read, nestedReader, if_pos rfl]

theorem read_unnested :
    SyntaxTree.read nestedReader "f.ts" Removal.setupText = .ofParse Removal.setupText Removal.setupTree := by
  rw [SyntaxTree.read, nestedReader, if_neg (by decide), classReader, if_pos rfl]

theorem nested_signature : ClassSignature.read nestedReader "c.ts" classText none = .ok ⟨"C", [⟨"d", none⟩]⟩ := by
  apply signature_classText
  rw [SyntaxTree.read, nestedReader, if_neg (by decide), classReader, if_neg (by decide)]

/-- The class does not take `p`, and yet the file is told to be up to date. Of `Removal.setupText`, which uses all names
that it wires, something is removed. -/
theorem nested_declaration_stays_wired :
    let s : Settings := { reader := nestedReader, config := ⟨"f", .listAware⟩ }
    (∃ plan, UpdatePlan.make nestedReader (Path.spec "c.ts") nestedText [⟨"d", none⟩] "C" s.config = .ok plan ∧
      plan.wired = ["p"] ∧ plan.stale = ["p"] ∧ plan.edits = []) ∧
    (∃ report, ((s.syncFile "c.ts").run nestedFiles).1 = .ok report ∧ report.status = .upToDate) ∧
    ∃ plan, UpdatePlan.make nestedReader "f.ts" Removal.setupText [⟨"d", none⟩] "C" s.config = .ok plan ∧
      plan.edits ≠ [] := by
  intro s
  obtain ⟨hplans, hruns⟩ := up_to_date_iff s
  obtain ⟨plan, hplan, hwired, hstale, hnone⟩ : ∃ plan,
      UpdatePlan.make nestedReader (Path.spec "c.ts") nestedText [⟨"d", none⟩] "C" s.config = .ok plan ∧
        plan.wired = ["p"] ∧ plan.stale = ["p"] ∧ plan.edits = [] := by
    obtain ⟨hsetup, hinst, hwired, hstale, hstatements, hunused⟩ := nested_wiring
    refine ⟨_, UpdatePlan.make_eq_ok read_nested hsetup hinst, hwired, hstale, ?_⟩
    obtain ⟨setup, _, hsetup', _, _, _, hedits, _⟩ := hplans _ _ _ _ _ (UpdatePlan.make_eq_ok read_nested hsetup hinst)
    rw [read_nested] at hsetup' hedits
    obtain rfl := Option.some.inj (hsetup.symm.trans hsetup')
    refine hedits.mpr ⟨fun d hd => ?_, ?_⟩
    · have hmem := Removal.mem_staleStatements.mpr hd
      rw [UpdatePlan.ofWiring, hstale, hstatements] at hmem
      cases hmem
    · rw [UpdatePlan.ofWiring, hstale]
      exact hunused
  have hclass : nestedFiles.read "c.ts" = .ok classText := FileTree.read_eq_ok_iff.mpr ⟨["c.ts"], rfl, rfl⟩
  have hread : nestedFiles.read (Path.spec "c.ts") = .ok nestedText :=
    FileTree.read_eq_ok_iff.mpr ⟨["c.spec.ts"], rfl, rfl⟩
  refine ⟨⟨plan, hplan, hwired, hstale, hnone⟩,
    (hruns nestedFiles "c.ts").mpr ⟨_, _, _, _, hclass, nested_signature, hread, hplan, hnone⟩, ?_⟩
  obtain ⟨_, _, hsetup, hinst, hstale, _⟩ := setup_wiring
  refine ⟨_, UpdatePlan.make_eq_ok read_unnested hsetup hinst, fun hnil => ?_⟩
  obtain ⟨setup, _, hsetup', _, _, _, _, hiff⟩ := hplans _ _ _ _ _ (UpdatePlan.make_eq_ok read_unnested hsetup hinst)
  rw [read_unnested] at hsetup' hiff
  obtain rfl := Option.some.inj (hsetup.symm.trans hsetup')
  have huses : ∀ name ∈ (SyntaxTree.ofParse Removal.setupText Removal.setupTree).wiredNames 25,
      Removal.Uses (.ofParse Removal.setupText Removal.setupTree) 1 name := by
    decide +kernel
  have hempty := (hiff huses).mp hnil
  rw [UpdatePlan.ofWiring, hstale] at hempty
  cases hempty

end Sync

end Unwire
