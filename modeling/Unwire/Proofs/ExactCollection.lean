import Mathlib.Tactic.Choose
import Unwire.Proofs.ByteOrder
import Unwire.Proofs.CollectedFiles

namespace Unwire

theorem Text.occursIn_iff {part cs : List Char} : occursIn part cs = true ↔ part <:+: cs := by
  induction cs with
  | nil => rw [occursIn, List.isEmpty_iff, List.infix_nil]
  | cons c cs ih => rw [occursIn, Bool.or_eq_true, List.isPrefixOf_iff_prefix, ih, List.infix_cons_iff]

namespace Entry

variable {α : Type} {e : Entry α} {es : List (String × Entry α)} {name : String} {names : List String}

theorem find?_append (names others : List String) (e : Entry α) :
    e.find? (names ++ others) = (e.find? names).bind (find? others) := by
  induction names generalizing e with
  | nil => rfl
  | cons name names ih =>
      rw [List.cons_append, find?, find?, Option.bind_assoc]
      congr 1
      funext e
      exact ih e

theorem find?_cons_iff (hnodup : (es.map (·.1)).Nodup) :
    (directory es).find? (name :: names) = some e ↔ ∃ x ∈ es, name = x.1 ∧ x.2.find? names = some e := by
  rw [find?, entries, Option.bind_eq_some_iff]
  constructor
  · rintro ⟨e', hlookup, he⟩
    obtain ⟨l, r, rfl, -⟩ := List.lookup_eq_some_iff.mp hlookup
    exact ⟨(name, e'), by simp, rfl, he⟩
  · rintro ⟨⟨_, e'⟩, hx, rfl, he⟩
    refine ⟨e', List.lookup_eq_some_iff.mpr ?_, he⟩
    obtain ⟨l, r, rfl⟩ := List.append_of_mem hx
    refine ⟨l, r, rfl, fun y hy => ?_⟩
    rw [List.map_append, List.map_cons, List.nodup_append] at hnodup
    rw [bne_iff_ne]
    exact (hnodup.2.2 y.1 (List.mem_map_of_mem hy) name (by simp)).symm

end Entry

namespace Sync

variable {α : Type} {e : Entry α} {es : List (String × Entry α)} {path file name : String} {names : List String}

def IsClassName (name : String) : Prop :=
  (".ts".toList <:+ name.toList ∨ ".tsx".toList <:+ name.toList) ∧ ¬".d.ts".toList <:+ name.toList ∧
    ¬".spec.".toList <:+: name.toList

theorem isClassFile_iff : isClassFile name = true ↔ IsClassName name := by
  simp only [isClassFile, IsClassName, endsIn, Bool.and_eq_true, Bool.or_eq_true, Bool.not_eq_true',
    ← Bool.not_eq_true, List.isSuffixOf_iff_suffix, Text.occursIn_iff, and_assoc]

/-- The names on a way down from an entry to a class file that is not among packages. -/
structure ClassWay (e : Entry α) (names : List String) : Prop where
  isFile : ∃ c, e.find? names = some (.file c)
  isClass : ∃ name ∈ names.getLast?, IsClassName name
  clear : packages ∉ names

/-- The order in which a walk that goes down before it goes on comes to two places, where it takes the entries of a
directory by the bytes of their names. -/
def Earlier : List String → List String → Prop := List.Lex fun a b => Text.bytes a < Text.bytes b

def ClassWayBy (x : String × Entry α) (names : List String) : Prop :=
  ∃ rest, names = x.1 :: rest ∧ (x.1 ≠ packages ∧ packages ∉ rest) ∧ (∃ c, x.2.find? rest = some (.file c)) ∧
    IsClassName (rest.getLast?.getD x.1)

theorem classWay_directory (hnodup : (es.map (·.1)).Nodup) :
    ClassWay (.directory es) names ↔ ∃ x ∈ es, ClassWayBy x names := by
  constructor
  · rintro ⟨⟨c, hfound⟩, ⟨last, hlast, hclass⟩, hclear⟩
    cases names with
    | nil => cases hlast
    | cons first rest =>
        obtain ⟨x, hx, rfl, hrest⟩ := (Entry.find?_cons_iff hnodup).mp hfound
        rw [List.getLast?_cons, Option.mem_some_iff] at hlast
        rw [List.mem_cons, not_or] at hclear
        exact ⟨x, hx, rest, rfl, ⟨Ne.symm hclear.1, hclear.2⟩, ⟨c, hrest⟩, hlast ▸ hclass⟩
  · rintro ⟨x, hx, rest, rfl, ⟨hname, hclear⟩, ⟨c, hrest⟩, hclass⟩
    refine ⟨⟨c, (Entry.find?_cons_iff hnodup).mpr ⟨x, hx, rfl, hrest⟩⟩, ⟨_, List.getLast?_cons, hclass⟩, ?_⟩
    rw [List.mem_cons, not_or]
    exact ⟨hname.symm, hclear⟩

theorem classWayBy_file {c : α} :
    ClassWayBy (name, .file c) names ↔ names = [name] ∧ name ≠ packages ∧ IsClassName name := by
  constructor
  · rintro ⟨rest, rfl, ⟨hname, -⟩, ⟨c', hrest⟩, hclass⟩
    cases rest with
    | nil => exact ⟨rfl, hname, hclass⟩
    | cons second rest => cases hrest
  · rintro ⟨rfl, hname, hclass⟩
    exact ⟨[], rfl, ⟨hname, List.not_mem_nil⟩, ⟨c, rfl⟩, hclass⟩

theorem classWayBy_directory : ClassWayBy (name, .directory es) names ↔
    ∃ rest, names = name :: rest ∧ name ≠ packages ∧ ClassWay (.directory es) rest := by
  constructor
  · rintro ⟨rest, rfl, ⟨hname, hclear⟩, ⟨c, hrest⟩, hclass⟩
    cases rest with
    | nil => cases hrest
    | cons second rest =>
        rw [List.getLast?_cons, Option.getD_some] at hclass
        exact ⟨_, rfl, hname, ⟨c, hrest⟩, ⟨_, List.getLast?_cons, hclass⟩, hclear⟩
  · rintro ⟨rest, rfl, hname, hfound, ⟨last, hlast, hclass⟩, hclear⟩
    refine ⟨rest, rfl, ⟨hname, hclear⟩, hfound, ?_⟩
    rw [Option.mem_def.mp hlast]
    exact hclass

/-- The files at the ends of the ways with a property, in the order of the walk. -/
def FollowsWays (path : String) (files : List String) (isWay : List String → Prop) : Prop :=
  ∃ ways : List (List String), files = ways.map (Path.descend path) ∧ ways.Pairwise Earlier ∧
    ∀ names, names ∈ ways ↔ isWay names

theorem candidatesAt_followsWays {x : String × Entry α}
    (hbelow : ∀ path, FollowsWays path (candidates path x.2) (ClassWay x.2)) (path : String) :
    FollowsWays path (candidatesAt path x) (ClassWayBy x) := by
  obtain ⟨name, e⟩ := x
  by_cases hname : name = packages
  · refine ⟨[], by simp [candidatesAt, hname], List.Pairwise.nil, fun names => ?_⟩
    simp only [List.not_mem_nil, false_iff]
    rintro ⟨_, _, ⟨hne, _⟩, _⟩
    exact hne hname
  · cases e with
    | file c =>
        by_cases hclass : isClassFile name = true
        · refine ⟨[[name]], by simp [candidatesAt, hname, hclass, Path.descend], List.pairwise_singleton _ _, ?_⟩
          intro names
          rw [List.mem_singleton, classWayBy_file, and_iff_left ⟨hname, isClassFile_iff.mp hclass⟩]
        · refine ⟨[], by simp [candidatesAt, hclass], List.Pairwise.nil, fun names => ?_⟩
          rw [classWayBy_file, ← isClassFile_iff]
          simp [hclass]
    | directory es =>
        obtain ⟨ways, hfiles, hordered, hways⟩ := hbelow (Path.below path name)
        refine ⟨ways.map (name :: ·), ?_, ?_, fun names => ?_⟩
        · simp [candidatesAt, hname, hfiles, Path.descend]
        · exact List.pairwise_map.mpr (hordered.imp List.Lex.cons)
        · rw [classWayBy_directory, List.mem_map]
          simp only [hways, hname, ne_eq, not_false_eq_true, true_and]
          constructor
          · rintro ⟨rest, h, rfl⟩
            exact ⟨rest, rfl, h⟩
          · rintro ⟨rest, rfl, h⟩
            exact ⟨rest, h, rfl⟩

theorem byName_pairwise (hnodup : (es.map (·.1)).Nodup) : (byName es).Pairwise fun x y => x.1 < y.1 := by
  have hle : (byName es).Pairwise fun x y => decide (x.1 ≤ y.1) = true := by
    apply List.pairwise_mergeSort
    · intro x y z hxy hyz
      exact decide_eq_true (String.le_trans (of_decide_eq_true hxy) (of_decide_eq_true hyz))
    · intro x y
      simpa using String.le_total x.1 y.1
  have hne : (byName es).Pairwise fun x y => x.1 ≠ y.1 :=
    List.pairwise_map.mp (((byName_perm es).map _).nodup_iff.mpr hnodup)
  refine (hle.and hne).imp fun {x y} h => ?_
  rw [← String.not_le]
  intro hyx
  exact h.2 (String.le_antisymm (of_decide_eq_true h.1) hyx)

theorem candidates_followsWays (he : e.wellNamed = true) (path : String) :
    FollowsWays path (candidates path e) (ClassWay e) := by
  induction e using Entry.induction generalizing path with
  | file c =>
      refine ⟨[], by simp [candidates], List.Pairwise.nil, fun names => ?_⟩
      simp only [List.not_mem_nil, false_iff]
      rintro ⟨⟨c', hfound⟩, ⟨last, hlast, -⟩, -⟩
      cases names with
      | nil => cases hlast
      | cons first rest => cases hfound
  | directory es ih =>
      obtain ⟨hnodup, hes⟩ := Entry.wellNamed_directory.mp he
      have hmem (x : String × Entry α) : x ∈ byName es ↔ x ∈ es := (byName_perm es).mem_iff
      have hat (x) (hx : x ∈ es) := candidatesAt_followsWays (ih x hx (hes x hx).2) path
      choose! ways hfiles hordered hways using hat
      refine ⟨(byName es).flatMap ways, ?_, ?_, fun names => ?_⟩
      · rw [candidates_directory, List.map_flatMap]
        exact List.flatMap_congr fun x hx => hfiles x ((hmem x).mp hx)
      · rw [List.pairwise_flatMap]
        refine ⟨fun x hx => hordered x ((hmem x).mp hx), (byName_pairwise hnodup).imp_of_mem fun {x y} hx hy hlt => ?_⟩
        -- Ways by way of two entries part at their first names.
        intro names hnames others hothers
        obtain ⟨rest, rfl, -⟩ := (hways x ((hmem x).mp hx) names).mp hnames
        obtain ⟨rest', rfl, -⟩ := (hways y ((hmem y).mp hy) others).mp hothers
        exact List.Lex.rel (Text.bytes_lt_iff.mpr hlt)
      · rw [classWay_directory hnodup, List.mem_flatMap]
        simp only [hmem]
        exact exists_congr fun x => and_congr_right fun hx => hways x hx names

structure Collected (root : FileTree) (path : String) (names : List String) : Prop where
  isFile : ∃ place c, root.resolve path = .ok place ∧ root.find? (place ++ names) = some (.file c)
  isClass : ∃ name ∈ names.getLast?, IsClassName name
  clear : packages ∉ (Path.fileName? path).toList ++ names
  specified : root.isFile (Path.spec (Path.descend path names)) = true

variable {root : FileTree} {place : List String}

theorem listing?_of_resolve {es : List (String × Entry Content)} (hplace : root.resolve path = .ok place)
    (hfound : root.find? place = some (.directory es)) : root.listing? path = some (Entry.directory es).shape := by
  rw [FileTree.listing?, FileTree.get_eq_ok_iff.mpr ⟨place, hplace, hfound⟩]

theorem collected_iff {es : List (String × Entry Content)} (hplace : root.resolve path = .ok place)
    (hfound : root.find? place = some (.directory es)) :
    Collected root path names ↔ Path.fileName? path ≠ some packages ∧
      ClassWay (Entry.directory es).shape names ∧ root.isFile (Path.spec (Path.descend path names)) = true := by
  have hclear : packages ∉ (Path.fileName? path).toList ++ names ↔
      Path.fileName? path ≠ some packages ∧ packages ∉ names := by
    simp only [List.mem_append, not_or, Option.mem_toList, ne_eq]
  have hfile : (∃ c, (Entry.directory es).shape.find? names = some (.file c)) ↔
      ∃ c, root.find? (place ++ names) = some (.file c) := by
    rw [Entry.find?_append, hfound, Option.bind_some, Entry.find?_shape]
    cases (Entry.directory es).find? names with
    | none => simp
    | some e => cases e <;> simp [Entry.shape]
  constructor
  · rintro ⟨⟨place', c, hplace', hc⟩, hclass, hpackages, hspec⟩
    obtain rfl := Except.ok.inj (hplace.symm.trans hplace')
    obtain ⟨hpath, hnames⟩ := hclear.mp hpackages
    exact ⟨hpath, ⟨hfile.mpr ⟨c, hc⟩, hclass, hnames⟩, hspec⟩
  · rintro ⟨hpath, ⟨hc, hclass, hnames⟩, hspec⟩
    obtain ⟨c, hc⟩ := hfile.mp hc
    exact ⟨⟨place, c, hplace, hc⟩, hclass, hclear.mpr ⟨hpath, hnames⟩, hspec⟩

theorem filesAt_followsWays (hroot : root.wellNamed = true) (hplace : root.resolve path = .ok place)
    (hdir : root.IsDirectory place) : FollowsWays path (filesAt root path) (Collected root path) := by
  obtain ⟨es, hfound⟩ := hdir
  have hnamed := Entry.wellNamed_shape (Entry.wellNamed_find? hroot hfound)
  obtain ⟨ways, hfiles, hordered, hways⟩ := candidates_followsWays hnamed path
  simp only [filesAt, listing?_of_resolve hplace hfound, beq_iff_eq]
  split
  · next hpath =>
      refine ⟨[], rfl, List.Pairwise.nil, fun names => ?_⟩
      rw [collected_iff hplace hfound]
      simp [hpath]
  · next hpath =>
      refine ⟨ways.filter fun names => root.isFile (Path.spec (Path.descend path names)), ?_, hordered.filter _, ?_⟩
      · simp only [hfiles, List.filter_map, Function.comp_def]
      · intro names
        rw [List.mem_filter, hways, collected_iff hplace hfound]
        exact (and_iff_right hpath).symm

theorem specName_not_class {name : String} (hname : IsClassName name) (other : List Char) :
    String.ofList (Path.specName other) ≠ name := by
  rintro rfl
  apply hname.2.2
  rw [String.toList_ofList]
  exact ⟨(Path.divide other).1, (Path.divide other).2.getD ['t', 's'], by simp [Path.specName]⟩

theorem LeadsTo.not_spec {directories : List String} (h : LeadsTo path directories name file) (root : FileTree)
    (other : String) :
    Path.fileName? (Path.spec other) ≠ Path.fileName? file ∧ ¬root.SameFile (Path.spec other) file := by
  have hname : Path.isName name.toList = true := h.names name (by simp)
  have hfile : file.toList = Path.join (Path.descend path directories).toList name.toList := by
    rw [h.file_eq, Path.descend_append, Path.below, String.toList_ofList]
  obtain ⟨parent, otherName, hslash, hspec, -⟩ := Path.exists_spec other
  have hne := specName_not_class (isClassFile_iff.mp h.isClass) otherName
  constructor
  · rw [Path.fileName?_eq (Path.isName_specName hslash) hspec, Path.fileName?_eq hname hfile, String.ofList_toList]
    simpa using hne
  · rintro ⟨place, hplace, hplace'⟩
    have hlast := FileTree.getLast?_of_resolve (Path.isName_specName hslash) hspec hplace
    rw [FileTree.getLast?_of_resolve hname hfile hplace', String.ofList_toList] at hlast
    exact hne (Option.some.inj hlast).symm

theorem ofPath_spec (path : String) : Dialect.ofPath (Path.spec path) = Dialect.ofPath path := by
  rw [Dialect.ofPath, Dialect.ofPath, Path.extension?_spec]
  cases Path.extension? path with
  | none => simp
  | some extension => rw [Option.getD_some]

/-- Paths give class files one after the other. A path that is no directory gives itself. A directory gives, each once
and in the order of the walk, exactly the class files below it that have a spec file, and none of these is a spec file
itself, by whatever path. A spec file is read as its class file is. -/
theorem collection_is_exact (root : FileTree) (hroot : root.wellNamed = true) (paths : List String) :
    ∃ files : String → List String, (collect paths).run root = (paths.flatMap files, root) ∧
      (∀ path, (∀ place, root.resolve path = .ok place → ¬root.IsDirectory place) → files path = [path]) ∧
      (∀ path place, root.resolve path = .ok place → root.IsDirectory place →
        (files path).Nodup ∧
        (∃ ways : List (List String), files path = ways.map (Path.descend path) ∧ ways.Pairwise Earlier ∧
          ∀ names, names ∈ ways ↔ Collected root path names) ∧
        ∀ file ∈ files path, ∀ other,
          Path.fileName? (Path.spec other) ≠ Path.fileName? file ∧ ¬root.SameFile (Path.spec other) file) ∧
      ∀ path, Dialect.ofPath (Path.spec path) = Dialect.ofPath path := by
  refine ⟨filesAt root, run_collect paths root, fun path hno => ?_, fun path place hplace hdir => ?_, ofPath_spec⟩
  · cases hlisting : root.listing? path with
    | none => rw [filesAt, hlisting]
    | some e =>
        obtain ⟨place, es, hplace, hfound, -⟩ := FileTree.listing?_eq_some hlisting
        exact absurd ⟨es, hfound⟩ (hno place hplace)
  · obtain ⟨es, hfound⟩ := hdir
    obtain ⟨-, hnodup, hfiles⟩ := filesAt_of_listing hroot (listing?_of_resolve hplace hfound)
    refine ⟨hnodup, filesAt_followsWays hroot hplace ⟨es, hfound⟩, fun file hfile other => ?_⟩
    obtain ⟨-, directories, name, hleads⟩ := hfiles file hfile
    exact hleads.not_spec root other

def appEntries : List (String × Entry Content) := [
  ("b", .directory [("c.tsx", .file (.text "")), ("c.spec.tsx", .file (.text ""))]),
  ("a.ts", .file (.text "")), ("a.spec.ts", .file (.text "")), ("lone.ts", .file (.text "")),
  ("node_modules", .directory [("d.ts", .file (.text "")), ("d.spec.ts", .file (.text ""))])]

def appFiles : FileTree := .directory [("app", .directory appEntries)]

theorem app_candidates :
    candidates "app/" (Entry.directory appEntries).shape = ["app/a.ts", "app/b/c.tsx", "app/lone.ts"] := by
  have hb : Path.below "app/" "b" = "app/b" := by decide
  simp only [appEntries, Entry.shape, Entry.shapes]
  -- only the order of the siblings does not evaluate by itself
  simp [candidates, candidatesByName, hb, List.mergeSort]
  decide

theorem app_collected : ((collect ["app/", "lost.ts"]).run appFiles).1 = ["app/a.ts", "app/b/c.tsx", "lost.ts"] ∧
    ∃ ways : List (List String), ["app/a.ts", "app/b/c.tsx"] = ways.map (Path.descend "app/") ∧
      ways.Pairwise Earlier ∧ ∀ names, names ∈ ways ↔ Collected appFiles "app/" names := by
  obtain ⟨files, hfiles, hself, hdirectory, -⟩ := collection_is_exact appFiles (by decide) ["app/", "lost.ts"]
  have hlost : files "lost.ts" = ["lost.ts"] := by
    apply hself
    intro place hplace
    cases hplace
  have hrun : ((collect ["app/", "lost.ts"]).run appFiles).1 = ["app/a.ts", "app/b/c.tsx"] ++ ["lost.ts"] := by
    have hlisting : appFiles.listing? "app/" = some (Entry.directory appEntries).shape := rfl
    have hname : (Path.fileName? "app/" == some packages) = false := by decide
    simp only [run_collect, List.flatMap_cons, filesAt, hlisting, hname, app_candidates]
    decide
  have happ : files "app/" = ["app/a.ts", "app/b/c.tsx"] := by
    rw [hfiles, List.flatMap_cons, List.flatMap_cons, hlost] at hrun
    exact List.append_cancel_right hrun
  obtain ⟨-, hways, -⟩ := hdirectory "app/" ["app"] rfl ⟨_, rfl⟩
  exact ⟨hrun, happ ▸ hways⟩

end Sync

end Unwire
