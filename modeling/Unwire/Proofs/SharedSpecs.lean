import Unwire.Proofs.CollectedFiles

namespace Unwire.Sync

variable {path file other name : String}

theorem exists_of_isClassFile (h : isClassFile name = true) :
    ∃ stem extension, (extension = ['t', 's'] ∨ extension = ['t', 's', 'x']) ∧
      name.toList = stem ++ '.' :: extension := by
  simp only [isClassFile, Bool.and_eq_true, Bool.or_eq_true, endsIn, List.isSuffixOf_iff_suffix] at h
  obtain ⟨⟨⟨stem, hstem⟩ | ⟨stem, hstem⟩, -⟩, -⟩ := h
  · exact ⟨stem, _, Or.inl rfl, hstem.symm⟩
  · exact ⟨stem, _, Or.inr rfl, hstem.symm⟩

def hiddenNames : List String := [".ts", ".tsx"]

theorem specName_of_isClassFile (h : isClassFile name = true) : ∃ stem extension, '.' ∉ extension ∧
    Path.specName name.toList = stem ++ ".spec".toList ++ '.' :: extension ∧
    (name.toList = stem ++ '.' :: extension ∨ name ∈ hiddenNames ∧ stem = name.toList ∧ extension = ['t', 's']) := by
  obtain ⟨stem, extension, hextension, hname⟩ := exists_of_isClassFile h
  have hdot : '.' ∉ extension := by rcases hextension with rfl | rfl <;> simp
  by_cases hstem : stem = []
  · subst hstem
    refine ⟨name.toList, ['t', 's'], by simp, ?_, Or.inr ⟨?_, rfl, rfl⟩⟩
    · apply Path.specName_of_divide
      rw [hname]
      exact Path.divide_hidden hdot
    · rcases hextension with rfl | rfl <;> simp [hiddenNames, ← String.toList_inj, hname]
  · refine ⟨stem, extension, hdot, ?_, Or.inl hname⟩
    rw [hname, Path.specName_append hstem hdot]

theorem specName_eq_cases (hname : isClassFile name = true) (hother : isClassFile other = true)
    (h : Path.specName name.toList = Path.specName other.toList) :
    name = other ∨ name ∈ hiddenNames ∧ other = name ++ ".ts" ∨ other ∈ hiddenNames ∧ name = other ++ ".ts" := by
  obtain ⟨stem, extension, hdot, hspec, hparts⟩ := specName_of_isClassFile hname
  obtain ⟨stem', extension', hdot', hspec', hparts'⟩ := specName_of_isClassFile hother
  have hdivide := congrArg Path.divide h
  rw [hspec, hspec', Path.divide_append (by simp) hdot, Path.divide_append (by simp) hdot'] at hdivide
  simp only [Prod.mk.injEq, List.append_cancel_right_eq, Option.some.injEq] at hdivide
  obtain ⟨rfl, rfl⟩ := hdivide
  simp only [← String.toList_inj, String.toList_append]
  rcases hparts with hparts | ⟨hhidden, rfl, rfl⟩ <;> rcases hparts' with hparts' | ⟨hhidden', hstem', hextension'⟩
  · exact Or.inl (hparts.trans hparts'.symm)
  · refine Or.inr (Or.inr ⟨hhidden', ?_⟩)
    rw [hparts, hstem', hextension']
    rfl
  · exact Or.inr (Or.inl ⟨hhidden, hparts'⟩)
  · exact Or.inl hstem'

/-- Two class files of one directory, of which the first is hidden and the second has its name before the extension. -/
def HiddenTwins (file other : String) : Prop :=
  ∃ directory, ∃ name ∈ hiddenNames, file = Path.below directory name ∧ other = Path.below directory (name ++ ".ts")

theorem HiddenTwins.spec_eq (h : HiddenTwins file other) : Path.spec file = Path.spec other := by
  obtain ⟨directory, name, hname, rfl, rfl⟩ := h
  rw [← String.toList_inj]
  simp only [hiddenNames, List.mem_cons, List.not_mem_nil, or_false] at hname
  rcases hname with rfl | rfl
  all_goals
    rw [Path.toList_spec_below (by decide), Path.toList_spec_below (by decide)]
    congr 1

theorem LeadsTo.resolve_spec {root : FileTree} {directories place : List String} (hpath : path ≠ "")
    (h : LeadsTo path directories name file) (hplace : root.resolve (Path.spec file) = .ok place) :
    ∃ start, root.resolve path = .ok start ∧
      place = start ++ directories ++ [.ofList (Path.specName name.toList)] := by
  obtain ⟨hdirectories, hname⟩ := List.forall_mem_append.mp h.names
  rw [h.file_eq, Path.descend_append] at hplace
  obtain ⟨parent, hparent, rfl⟩ := FileTree.resolve_spec_below (Path.descend_ne_empty hpath hdirectories)
    (hname name (by simp)) hplace
  obtain ⟨start, hstart, rfl⟩ := FileTree.resolve_descend hpath hdirectories hparent
  exact ⟨start, hstart, rfl⟩

theorem LeadsTo.twins_of_sameFile {root : FileTree} {directories others : List String} (hpath : path ≠ "")
    (h : LeadsTo path directories name file) {file' : String} (h' : LeadsTo path others other file')
    (hsame : root.SameFile (Path.spec file) (Path.spec file')) :
    file = file' ∨ HiddenTwins file file' ∨ HiddenTwins file' file := by
  obtain ⟨place, hplace, hplace'⟩ := hsame
  obtain ⟨start, hstart, rfl⟩ := h.resolve_spec hpath hplace
  obtain ⟨start', hstart', heq⟩ := h'.resolve_spec hpath hplace'
  obtain rfl := Except.ok.inj (hstart.symm.trans hstart')
  obtain ⟨hdirectories, hspec⟩ := List.append_inj' heq rfl
  obtain rfl := List.append_cancel_left hdirectories
  have hspecName : Path.specName name.toList = Path.specName other.toList := by
    simpa [String.ofList_inj] using hspec
  rw [h.file_eq, h'.file_eq, Path.descend_append, Path.descend_append]
  rcases specName_eq_cases h.isClass h'.isClass hspecName with rfl | ⟨hhidden, rfl⟩ | ⟨hhidden, rfl⟩
  · exact Or.inl rfl
  · exact Or.inr (Or.inl ⟨_, name, hhidden, rfl, rfl⟩)
  · exact Or.inr (Or.inr ⟨_, other, hhidden, rfl, rfl⟩)

/-- No class file is collected twice from a directory. Two of them share a spec file exactly where one is hidden and the
other has the name of the first before its extension. -/
theorem collected_share_spec_iff (root : FileTree) (hroot : root.wellNamed = true) (path : String) :
    ((collect [path]).run root).1.Nodup ∧
      ∀ file ∈ ((collect [path]).run root).1, ∀ other ∈ ((collect [path]).run root).1, file ≠ other →
        (Path.spec file = Path.spec other ↔ HiddenTwins file other ∨ HiddenTwins other file) ∧
        (root.SameFile (Path.spec file) (Path.spec other) ↔ HiddenTwins file other ∨ HiddenTwins other file) := by
  rw [run_collect, List.flatMap_singleton]
  rcases filesAt_cases hroot path with hsingle | ⟨hpath, hnodup, hfiles⟩
  · rw [hsingle]
    simp only [List.mem_singleton]
    exact ⟨List.nodup_singleton path, fun file hfile other hother hne => absurd (hfile.trans hother.symm) hne⟩
  · refine ⟨hnodup, fun file hfile other hother hne => ?_⟩
    obtain ⟨hspec, directories, name, hleads⟩ := hfiles file hfile
    obtain ⟨-, others, name', hleads'⟩ := hfiles other hother
    have hsame : Path.spec file = Path.spec other → root.SameFile (Path.spec file) (Path.spec other) := by
      intro heq
      obtain ⟨place, -, hplace, -⟩ := FileTree.isFile_iff.mp hspec
      exact ⟨place, hplace, by rwa [← heq]⟩
    have htwins (h : root.SameFile (Path.spec file) (Path.spec other)) :
        HiddenTwins file other ∨ HiddenTwins other file :=
      (hleads.twins_of_sameFile hpath hleads' h).resolve_left hne
    have heq : HiddenTwins file other ∨ HiddenTwins other file → Path.spec file = Path.spec other := by
      rintro (h | h)
      · exact h.spec_eq
      · exact h.spec_eq.symm
    exact ⟨⟨fun h => htwins (hsame h), heq⟩, ⟨htwins, fun h => hsame (heq h)⟩⟩

def hiddenClassFiles : FileTree :=
  .directory [(".ts", .file (.text "export class A \x7b\x7d")), (".ts.spec.ts", .file (.text "")),
    (".ts.ts", .file (.text "export class B \x7b\x7d"))]

theorem hidden_class_shares_spec : ((collect ["."]).run hiddenClassFiles).1 = ["./.ts", "./.ts.ts"] ∧
    hiddenClassFiles.SameFile (Path.spec "./.ts") (Path.spec "./.ts.ts") := by
  have hlisting : hiddenClassFiles.listing? "." = some hiddenClassFiles.shape := rfl
  have hfound : candidates "." hiddenClassFiles.shape = ["./.ts", "./.ts.ts"] := by
    simp only [hiddenClassFiles, Entry.shape, Entry.shapes]
    simp [candidates, candidatesByName, List.mergeSort]
    decide
  have hfiles : ((collect ["."]).run hiddenClassFiles).1 = ["./.ts", "./.ts.ts"] := by
    simp only [run_collect, List.flatMap_singleton, filesAt, hlisting, hfound]
    decide
  obtain ⟨-, hshare⟩ := collected_share_spec_iff hiddenClassFiles (by decide) "."
  rw [hfiles] at hshare
  refine ⟨hfiles, (hshare "./.ts" (by simp) "./.ts.ts" (by simp) (by decide)).2.mpr ?_⟩
  exact Or.inl ⟨".", ".ts", by simp [hiddenNames], by decide, by decide⟩

end Unwire.Sync
