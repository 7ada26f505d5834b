import Unwire.Proofs.ScaffoldClass
import Unwire.Proofs.ScaffoldUpdate
import Unwire.Proofs.SyncRun

namespace Unwire.Scaffold

open Syntax
open Unwire.Parse (ParseTree)
open Unwire.Syntax.Doc (mark token)
open Unwire.Syntax.SyntaxTree (ofParse)
open Unwire.Text (width width_append)

variable {stem className gap : String} {names : List String}

section Sync

open Unwire.Sync (Settings Report Status)

variable (s : Scaffold)

def kept : List String := s.wired.filter s.current.contains

/-- What an update leaves before the first argument. -/
def keptGap : String := if !s.kept.isEmpty && s.wired.head?.any (!s.kept.contains ·) then " " else ""

def updatedText : String :=
  specBefore s.stem s.className s.kept ++ "new " ++ s.className ++ "(" ++ (s.keptGap ++ ", ".intercalate s.kept) ++
    specAfter

theorem mem_kept {s : Scaffold} {name : String} : name ∈ s.kept ↔ name ∈ s.wired ∧ name ∈ s.current := by
  simp [kept]

theorem updatedText_eq : s.updatedText.toList = specChars s.keptGap s.stem s.className s.kept := by
  have hgap : s.kept = [] → s.keptGap = "" := by
    intro hnone
    simp [keptGap, hnone]
  rw [updatedText, spec_text, specChars, setupFunction_text s.className hgap]
  simp only [List.append_assoc]

theorem specText_eq : s.specText.toList = specChars "" s.stem s.className s.wired :=
  specFor_text s.stem s.className s.wired

theorem staleNames_eq :
    staleNames s.wired (s.current.map dependency) = staleNames s.wired (s.kept.map fun name => ⟨name, none⟩) := by
  have hfilter : (s.wired.filter fun name => !(s.current.map dependency).any (·.name == name)) =
      s.wired.filter fun name => !(s.kept.map fun name => (⟨name, none⟩ : Dependency)).any (·.name == name) := by
    refine List.filter_congr fun name hname => ?_
    congr 1
    rw [Bool.eq_iff_iff]
    simp [dependency, mem_kept, hname]
  rw [staleNames, staleNames, hfilter]

theorem unwired_eq {names : List String} (hnames : ∀ name ∈ s.current, name ∈ names ↔ name ∈ s.wired) :
    (unwiredDependencies names (s.current.map dependency)).map (·.name) = s.current.filter (!s.wired.contains ·) := by
  rw [unwiredDependencies, List.filter_map, List.map_map]
  have hself : (fun d : Dependency => d.name) ∘ dependency = id := rfl
  rw [hself, List.map_id]
  refine List.filter_congr fun name hname => ?_
  have hiff := hnames name hname
  simp [dependency, hiff]

theorem classText_ne {text : String} (htext : text.toList = specChars gap s.stem s.className names) :
    s.classText ≠ text := by
  intro heq
  have hclass : s.classText.toList.head? = some 'e' := by
    rw [classText_eq]
    rfl
  have hspec : text.toList.head? = some 'i' := by
    rw [htext, specChars, specHeader_text, importing_text]
    rfl
  rw [heq, hspec] at hclass
  exact absurd hclass (by decide)

theorem stale_eq : s.wired.filter (!s.kept.contains ·) = s.wired.filter (!s.current.contains ·) := by
  refine List.filter_congr fun name hname => ?_
  simp [mem_kept, hname]

theorem make_scaffold (reader : Reader) (path : String)
    (hread : IsSpecTree "" s.stem s.className s.wired (reader (.ofPath path) s.specText))
    (hwired : ∀ name ∈ s.wired, name ∉ ["", "setup", "builder", s.className]) (hnodup : s.wired.Nodup) :
    ∃ plan, UpdatePlan.make reader path s.specText (s.current.map dependency) s.className {} = .ok plan ∧
      plan.unwired = unwiredDependencies s.wired (s.current.map dependency) ∧
      plan.edits.length = 3 * (s.wired.filter (!s.current.contains ·)).length ∧
      applyEdits s.specText plan.edits = .ok s.updatedText := by
  obtain ⟨plan, hplan, hunwired, hedits⟩ := make_plan reader path (s.current.map dependency) hread hwired
  rw [staleNames_eq] at hedits
  have hsub : s.kept.Sublist s.wired := List.filter_sublist
  have hkept : (s.kept.map fun name => (⟨name, none⟩ : Dependency)).map (·.name) = s.kept := by
    rw [List.map_map]
    exact List.map_id _
  refine ⟨plan, hplan, hunwired, ?_, ?_⟩
  · rw [hedits, length_specEdits, filter_stale hkept, stale_eq]
  · rw [hedits]
    exact applyEdits_spec hsub hnodup hkept s.stem s.className path fun name hname he =>
      hwired name hname (by simp [he])

section Runs

variable {s : Scaffold} {settings : Settings} {files : FileTree} {path : String} (hconfig : settings.config = {})
  (hclass : files.read path = .ok s.classText)
  (hsignature : ClassSignature.read settings.reader path s.classText settings.className =
    .ok ⟨s.className, s.current.map dependency⟩)
include hconfig hclass hsignature

theorem run_in_sync {text : String} (hspec : files.read (Path.spec path) = .ok text)
    (htext : text.toList = specChars gap s.stem s.className names)
    (htree : IsSpecTree gap s.stem s.className names (settings.reader (.ofPath (Path.spec path)) text))
    (hnames : ∀ name, name ∈ names → name ∈ s.current)
    (hwired : ∀ name ∈ s.current, name ∈ names ↔ name ∈ s.wired) :
    (settings.syncFile path).run files =
      (.ok ⟨path, Path.spec path, s.className, s.current.filter (!s.wired.contains ·), .upToDate⟩, files) := by
  obtain ⟨_, _, plan, hplan, _, hunwired, hedits⟩ :=
    exists_plan settings.reader (Path.spec path) (s.current.map dependency) htext htree
  have hstale : staleNames names (s.current.map dependency) = [] := by
    refine List.eq_nil_iff_forall_not_mem.mpr fun name hname => ?_
    obtain ⟨hmem, hgone⟩ := mem_staleNames.mp hname
    have hgone : ∀ other ∈ s.current, other ≠ name := by simpa [dependency] using hgone
    exact hgone name (hnames name hmem) rfl
  rw [← hconfig] at hplan
  have hfind := Settings.inspect_of_plan hclass hsignature hspec hplan
  rw [hedits, hstale, if_pos (by rfl), hunwired, s.unwired_eq hwired] at hfind
  rw [Settings.run_syncFile, hfind, Settings.settle, Job.run]

theorem run_stale (hspec : files.read (Path.spec path) = .ok s.specText)
    (htree : IsSpecTree "" s.stem s.className s.wired (settings.reader (.ofPath (Path.spec path)) s.specText))
    (hwired : ∀ name ∈ s.wired, name ∉ ["", "setup", "builder", s.className]) (hnodup : s.wired.Nodup)
    (hwrite : settings.dryRun = false) (hstale : s.wired.all s.current.contains = false) :
    ∃ edits files', (settings.syncFile path).run files =
        (.ok ⟨path, Path.spec path, s.className, s.current.filter (!s.wired.contains ·), .updated edits⟩, files') ∧
      edits.length = 3 * (s.wired.filter (!s.current.contains ·)).length ∧
      files.Rewritten (Path.spec path) s.updatedText files' := by
  obtain ⟨plan, hplan, hunwired, hlength, happly⟩ :=
    s.make_scaffold settings.reader (Path.spec path) htree hwired hnodup
  have hsome : plan.edits.isEmpty = false := by
    obtain ⟨name, hname, hgone⟩ := List.all_eq_false.mp hstale
    have hmem : name ∈ s.wired.filter (!s.current.contains ·) := List.mem_filter.mpr ⟨hname, by simpa using hgone⟩
    have hpos := List.length_pos_of_mem hmem
    rw [List.isEmpty_eq_false_iff, ← List.length_pos_iff]
    omega
  rw [← hconfig] at hplan
  have hfind := Settings.inspect_of_plan hclass hsignature hspec hplan
  rw [hsome, if_neg Bool.false_ne_true, hunwired, s.unwired_eq fun _ _ => Iff.rfl] at hfind
  obtain ⟨files', hwritten, hfiles'⟩ := FileTree.exists_rewritten (FileTree.isFile_of_read hspec) s.updatedText
  refine ⟨plan.edits.map (.ofEdit s.specText.toList), files', ?_, by rw [List.length_map, hlength], hfiles'⟩
  rw [Settings.run_syncFile, hfind, Settings.settle, hwrite, if_neg Bool.false_ne_true, happly]
  dsimp only
  rw [Job.run, hwritten]
  rfl

end Runs

/-- A scaffold whose class and spec file are stored is read and synchronised as it was made: the constructor has its
names with their types, the report tells the names that are not wired, and the spec file is updated with three edits
for each stale name. After that there is nothing to do. -/
theorem sync_settles (s : Scaffold) (settings : Settings) (files : FileTree) (path : String)
    (hconfig : settings.config = {}) (hwrite : settings.dryRun = false)
    (hname : settings.className.all (· == s.className) = true)
    (hclass : files.read path = .ok s.classText) (hspec : files.read (Path.spec path) = .ok s.specText)
    (hclassTree : IsClassTree s.className s.current (settings.reader (.ofPath path) s.classText))
    (hspecTree : IsSpecTree "" s.stem s.className s.wired (settings.reader (.ofPath (Path.spec path)) s.specText))
    (hupdatedTree : IsSpecTree s.keptGap s.stem s.className s.kept
      (settings.reader (.ofPath (Path.spec path)) s.updatedText))
    (hwired : ∀ name ∈ s.wired, name ∉ ["", "setup", "builder", s.className]) (hnodup : s.wired.Nodup)
    (hcurrent : ∀ name ∈ s.current, isSmallName name = true) :
    let report (status : Status) : Report :=
      ⟨path, Path.spec path, s.className, s.current.filter (!s.wired.contains ·), status⟩
    ClassSignature.read settings.reader path s.classText settings.className =
      .ok ⟨s.className, s.current.map fun name => ⟨name, some (typeFor name)⟩⟩ ∧
    ∃ status files', (settings.syncFile path).run files = (.ok (report status), files') ∧
      (s.wired.all s.current.contains = true → status = .upToDate ∧ files' = files) ∧
      (s.wired.all s.current.contains = false → files'.read (Path.spec path) = .ok s.updatedText ∧
        ∃ edits, status = .updated edits ∧ edits.length = 3 * (s.wired.filter (!s.current.contains ·)).length) ∧
      (settings.syncFile path).run files' = (.ok (report .upToDate), files') := by
  intro report
  have hsignature : ClassSignature.read settings.reader path s.classText settings.className =
      .ok ⟨s.className, s.current.map dependency⟩ := by
    rw [ClassSignature.read, SyntaxTree.read, find_classText hclassTree hname hcurrent]
  refine ⟨hsignature, ?_⟩
  cases hall : s.wired.all s.current.contains with
  | true =>
      have hmem : ∀ name, name ∈ s.wired → name ∈ s.current := by simpa using hall
      have hrun := run_in_sync hconfig hclass hsignature hspec s.specText_eq hspecTree hmem
        fun _ _ => Iff.rfl
      exact ⟨.upToDate, files, hrun, fun _ => ⟨rfl, rfl⟩, fun h => absurd h (by simp), hrun⟩
  | false =>
      obtain ⟨edits, files', hrun, hlength, hfiles'⟩ :=
        run_stale hconfig hclass hsignature hspec hspecTree hwired hnodup hwrite hall
      -- The class file is another file than the spec file, since their texts differ.
      have hclass' : files'.read path = .ok s.classText := by
        rw [hfiles'.read_other (fun hsame => ?_) (FileTree.isFile_of_read hspec), hclass]
        have heq := hsame.read_eq
        rw [hspec, hclass] at heq
        exact s.classText_ne s.specText_eq (Except.ok.inj heq).symm
      have hagain := run_in_sync hconfig hclass' hsignature hfiles'.self s.updatedText_eq hupdatedTree
        (fun name hmem => (mem_kept.mp hmem).2) fun name hmem => mem_kept.trans (and_iff_left hmem)
      exact ⟨.updated edits, files', hrun, fun h => absurd h (by simp), fun _ => ⟨hfiles'.self, edits, rfl, hlength⟩,
        hagain⟩

def reader (s : Scaffold) : Reader := fun _ text =>
  if text = s.classText then s.classTree
  else if text = s.specText then specTree "" s.stem s.className s.wired
  else specTree s.keptGap s.stem s.className s.kept

def pairFiles (code spec : String) : FileTree :=
  .directory [("f.ts", .file (.text code)), ("f.spec.ts", .file (.text spec))]

theorem read_pairFiles (code spec : String) :
    (pairFiles code spec).read "f.ts" = .ok code ∧ (pairFiles code spec).read (Path.spec "f.ts") = .ok spec :=
  ⟨FileTree.read_eq_ok_iff.mpr ⟨["f.ts"], rfl, rfl⟩, FileTree.read_eq_ok_iff.mpr ⟨["f.spec.ts"], rfl, rfl⟩⟩

/-- The class no longer takes `a`, and `c` is new. -/
theorem one_stale_one_unwired :
    let s : Scaffold := ⟨"f", "F", ["a", "b"], ["b", "c"]⟩
    let settings : Settings := { reader := s.reader }
    let files := pairFiles s.classText s.specText
    ∃ edits files', (settings.syncFile "f.ts").run files =
        (.ok ⟨"f.ts", "f.spec.ts", "F", ["c"], .updated edits⟩, files') ∧ edits.length = 3 ∧
      (settings.syncFile "f.ts").run files' = (.ok ⟨"f.ts", "f.spec.ts", "F", ["c"], .upToDate⟩, files') := by
  intro s settings files
  obtain ⟨hclass, hspec⟩ := read_pairFiles s.classText s.specText
  have hclassTree : IsClassTree s.className s.current (settings.reader (.ofPath "f.ts") s.classText) := by
    refine ⟨0, s.classText.utf8ByteSize, ?_⟩
    simp only [settings, reader, if_true]
    rfl
  have hspecTree : IsSpecTree "" s.stem s.className s.wired
      (settings.reader (.ofPath (Path.spec "f.ts")) s.specText) := by
    have hread : settings.reader (.ofPath (Path.spec "f.ts")) s.specText = specTree "" s.stem s.className s.wired := by
      simp only [settings, reader, if_neg (s.classText_ne s.specText_eq).symm, if_true]
    rw [hread]
    exact specTree_isSpecTree _ _ _ _
  have hupdatedTree : IsSpecTree s.keptGap s.stem s.className s.kept
      (settings.reader (.ofPath (Path.spec "f.ts")) s.updatedText) := by
    have hne : s.updatedText ≠ s.specText := by
      intro heq
      have hkept : s.kept = ["b"] := by decide
      have htexts := congrArg String.toList heq
      rw [updatedText_eq, specText_eq, specChars, specChars, hkept, setupFunction_text "F" (by simp),
        setupFunction_text "F" (by simp)] at htexts
      -- The first name that is declared is not the same.
      have hnames := List.append_cancel_left (List.append_cancel_right (List.append_cancel_left htexts))
      exact absurd (congrArg (·[7]?) hnames) (by decide)
    have hread : settings.reader (.ofPath (Path.spec "f.ts")) s.updatedText =
        specTree s.keptGap s.stem s.className s.kept := by
      simp only [settings, reader, if_neg (s.classText_ne s.updatedText_eq).symm, if_neg hne]
    rw [hread]
    exact specTree_isSpecTree _ _ _ _
  obtain ⟨_, status, files', hrun, _, hstale, hagain⟩ := sync_settles s settings files "f.ts" rfl rfl rfl hclass hspec
    hclassTree hspecTree hupdatedTree (by decide) (by decide) (by decide)
  obtain ⟨_, edits, rfl, hlength⟩ := hstale (by decide)
  exact ⟨edits, files', hrun, hlength, hagain⟩

end Sync

end Unwire.Scaffold
