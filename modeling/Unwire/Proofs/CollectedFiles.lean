import Mathlib.Data.List.Nodup
import Unwire.Proofs.PathNames
import Unwire.Sync.Collection

namespace Unwire

namespace Entry

variable {α : Type}

theorem induction {motive : Entry α → Prop} (file : ∀ c, motive (.file c))
    (directory : ∀ es, (∀ x ∈ es, motive x.2) → motive (.directory es)) : ∀ e, motive e
  | .file c => file c
  | .directory es => directory es fun x _ => induction file directory x.2
decreasing_by
  next hx =>
    have := List.sizeOf_lt_of_mem hx
    cases x
    simp only [Prod.mk.sizeOf_spec, Entry.directory.sizeOf_spec] at *
    omega

mutual

/-- Whether all names below an entry are names of files, each given once in its directory. -/
def wellNamed : Entry α → Bool
  | file _ => true
  | directory es => wellNamedAll es

def wellNamedAll : List (String × Entry α) → Bool
  | [] => true
  | (name, e) :: rest =>
    Path.isName name.toList && !(rest.map (·.1)).contains name && wellNamed e && wellNamedAll rest

end

theorem wellNamed_directory {es : List (String × Entry α)} : (directory es).wellNamed = true ↔
    (es.map (·.1)).Nodup ∧ ∀ x ∈ es, Path.isName x.1.toList = true ∧ x.2.wellNamed = true := by
  rw [wellNamed]
  induction es with
  | nil => simp [wellNamedAll]
  | cons x es ih =>
      simp only [wellNamedAll, Bool.and_eq_true, ih, List.map_cons, List.nodup_cons, List.forall_mem_cons,
        Bool.not_eq_true', List.contains_eq_mem, decide_eq_false_iff_not]
      tauto

theorem shapes_eq_map (es : List (String × Entry α)) : shapes es = es.map fun x => (x.1, x.2.shape) := by
  induction es with
  | nil => rfl
  | cons x es ih =>
      obtain ⟨name, e⟩ := x
      rw [shapes, ih, List.map_cons]

theorem wellNamed_shape {e : Entry α} (h : e.wellNamed = true) : e.shape.wellNamed = true := by
  induction e using induction with
  | file c => rfl
  | directory es ih =>
      obtain ⟨hnodup, hnames⟩ := wellNamed_directory.mp h
      rw [shape, shapes_eq_map, wellNamed_directory, List.map_map]
      refine ⟨hnodup, ?_⟩
      rw [List.forall_mem_map]
      exact fun x hx => ⟨(hnames x hx).1, ih x hx (hnames x hx).2⟩

theorem wellNamed_find? {e e' : Entry α} {names : List String} (h : e.wellNamed = true)
    (hfound : e.find? names = some e') : e'.wellNamed = true := by
  induction names generalizing e with
  | nil => rwa [← Option.some.inj hfound]
  | cons name names ih =>
      obtain ⟨x, hx, hrest⟩ := Option.bind_eq_some_iff.mp hfound
      cases e with
      | file c => simp [entries] at hx
      | directory es =>
          have hmem : (name, x) ∈ es := by
            obtain ⟨l, r, rfl, -⟩ := List.lookup_eq_some_iff.mp hx
            simp
          exact ih ((wellNamed_directory.mp h).2 _ hmem).2 hrest

end Entry

namespace FileTree

theorem listing?_eq_some {root : FileTree} {path : String} {e : Entry Unit} (h : root.listing? path = some e) :
    ∃ place es, root.resolve path = .ok place ∧ root.find? place = some (.directory es) ∧
      e = (Entry.directory es).shape := by
  rw [listing?] at h
  split at h
  · next es hget =>
      obtain ⟨place, hplace, hes⟩ := get_eq_ok_iff.mp hget
      exact ⟨place, es, hplace, hes, (Option.some.inj h).symm⟩
  · cases h

end FileTree

namespace Sync

variable {α : Type} {path file other name : String}

def candidatesAt (path : String) (x : String × Entry α) : List String :=
  if x.1 == packages then []
  else match x.2 with
    | .file _ => if isClassFile x.1 then [Path.below path x.1] else []
    | .directory _ => candidates (Path.below path x.1) x.2

theorem candidatesByName_eq_map (path : String) (es : List (String × Entry α)) :
    candidatesByName path es = es.map fun x => (x.1, candidatesAt path x) := by
  induction es with
  | nil => rfl
  | cons x es ih =>
      obtain ⟨name, e⟩ := x
      cases e <;> rw [candidatesByName, ih] <;> rfl

def byName (es : List (String × Entry α)) : List (String × Entry α) := es.mergeSort fun x y => x.1 ≤ y.1

theorem byName_perm (es : List (String × Entry α)) : (byName es).Perm es := List.mergeSort_perm es _

theorem candidates_directory (path : String) (es : List (String × Entry α)) :
    candidates path (.directory es) = (byName es).flatMap (candidatesAt path) := by
  have hsort : (byName es).map (fun x => (x.1, candidatesAt path x)) =
      (es.map fun x => (x.1, candidatesAt path x)).mergeSort fun x y => x.1 ≤ y.1 :=
    List.map_mergeSort fun _ _ _ _ => rfl
  rw [candidates, candidatesByName_eq_map, ← hsort, List.flatMap_map]

theorem candidates_perm (path : String) (es : List (String × Entry α)) :
    (candidates path (.directory es)).Perm (es.flatMap (candidatesAt path)) := by
  rw [candidates_directory]
  exact (byName_perm es).flatMap_right _

theorem mem_candidatesAt {x : String × Entry α} (h : file ∈ candidatesAt path x) :
    (isClassFile x.1 = true ∧ file = Path.below path x.1) ∨ file ∈ candidates (Path.below path x.1) x.2 := by
  unfold candidatesAt at h
  split at h
  · cases h
  · split at h
    · split at h
      · next hclass => exact Or.inl ⟨hclass, by simpa using h⟩
      · cases h
    · exact Or.inr h

/-- A class file that is reached from a path by way of directories. -/
structure LeadsTo (path : String) (directories : List String) (name file : String) : Prop where
  names : ∀ n ∈ directories ++ [name], Path.isName n.toList = true
  isClass : isClassFile name = true
  file_eq : file = Path.descend path (directories ++ [name])

theorem leadsTo_of_mem_candidatesAt {x : String × Entry α} (hname : Path.isName x.1.toList = true)
    (hbelow : file ∈ candidates (Path.below path x.1) x.2 →
      ∃ directories name, LeadsTo (Path.below path x.1) directories name file)
    (h : file ∈ candidatesAt path x) :
    ∃ directories name, LeadsTo path directories name file ∧ (directories ++ [name]).head? = some x.1 := by
  rcases mem_candidatesAt h with ⟨hclass, rfl⟩ | hmem
  · exact ⟨[], x.1, ⟨by simpa using hname, hclass, rfl⟩, rfl⟩
  · obtain ⟨directories, name, hnames, hclass, rfl⟩ := hbelow hmem
    refine ⟨x.1 :: directories, name, ⟨?_, hclass, rfl⟩, rfl⟩
    rw [List.cons_append, List.forall_mem_cons]
    exact ⟨hname, hnames⟩

theorem leadsTo_of_mem_candidates {e : Entry α} (he : e.wellNamed = true) (h : file ∈ candidates path e) :
    ∃ directories name, LeadsTo path directories name file := by
  induction e using Entry.induction generalizing path with
  | file c => simp [candidates] at h
  | directory es ih =>
      obtain ⟨x, hx, hfile⟩ := List.mem_flatMap.mp ((candidates_perm path es).mem_iff.mp h)
      obtain ⟨hname, hbelow⟩ := (Entry.wellNamed_directory.mp he).2 x hx
      obtain ⟨directories, name, hleads, -⟩ := leadsTo_of_mem_candidatesAt hname (ih x hx hbelow) hfile
      exact ⟨directories, name, hleads⟩

theorem LeadsTo.names_eq {directories others : List String} (hpath : path ≠ "") (h : LeadsTo path directories name file)
    (h' : LeadsTo path others other file) : directories ++ [name] = others ++ [other] :=
  Path.descend_inj hpath (by simp) (by simp) h.names h'.names (h.file_eq.symm.trans h'.file_eq)

theorem candidates_nodup {e : Entry α} (he : e.wellNamed = true) (hpath : path ≠ "") : (candidates path e).Nodup := by
  induction e using Entry.induction generalizing path with
  | file c => simp [candidates]
  | directory es ih =>
      obtain ⟨hnodup, hes⟩ := Entry.wellNamed_directory.mp he
      have hleads (x) (hx : x ∈ es) (file) (hfile : file ∈ candidatesAt path x) :=
        leadsTo_of_mem_candidatesAt (hes x hx).1 (leadsTo_of_mem_candidates (hes x hx).2) hfile
      rw [(candidates_perm path es).nodup_iff, List.nodup_flatMap]
      constructor
      · intro x hx
        unfold candidatesAt
        split
        · exact List.nodup_nil
        · split
          · split <;> simp
          · exact ih x hx (hes x hx).2 (Path.below_ne_empty (hes x hx).1)
      · refine (List.pairwise_map.mp hnodup).imp_of_mem fun {x y} hx hy hne => ?_
        -- The first name on the way to a file tells from which entry it comes.
        intro file hfile hfile'
        obtain ⟨directories, name, h, hhead⟩ := hleads x hx file hfile
        obtain ⟨others, other, h', hhead'⟩ := hleads y hy file hfile'
        rw [h.names_eq hpath h', hhead'] at hhead
        exact hne (Option.some.inj hhead).symm

theorem run_keepSpecified (files : List String) (root : FileTree) :
    (keepSpecified files).run root = (files.filter fun file => root.isFile (Path.spec file), root) := by
  induction files with
  | nil => rfl
  | cons file files ih =>
      have hbind : (keepSpecified (file :: files)).run root =
          ((keepSpecified files).bind fun kept =>
            .done (if root.isFile (Path.spec file) then file :: kept else kept)).run root := rfl
      rw [hbind, Job.run_bind, ih, Job.run, List.filter_cons]

def filesAt (root : FileTree) (path : String) : List String :=
  match root.listing? path with
  | none => [path]
  | some directory =>
    if Path.fileName? path == some packages then []
    else (candidates path directory).filter fun file => root.isFile (Path.spec file)

theorem run_collectFrom (path : String) (root : FileTree) :
    (collectFrom path).run root = (filesAt root path, root) := by
  rw [collectFrom, Job.run, filesAt]
  cases root.listing? path with
  | none => rfl
  | some directory =>
      simp only
      split
      · rfl
      · exact run_keepSpecified _ root

theorem run_collect (paths : List String) (root : FileTree) :
    (collect paths).run root = (paths.flatMap (filesAt root), root) := by
  induction paths with
  | nil => rfl
  | cons path paths ih =>
      have hbind : (collect (path :: paths)).run root =
          ((collectFrom path).bind fun found => (collect paths).bind fun rest => .done (found ++ rest)).run root := rfl
      rw [hbind, Job.run_bind, run_collectFrom, Job.run_bind, ih, Job.run, List.flatMap_cons]

theorem filesAt_of_listing {root : FileTree} (hroot : root.wellNamed = true) {directory : Entry Unit}
    (hlisting : root.listing? path = some directory) :
    path ≠ "" ∧ (filesAt root path).Nodup ∧ ∀ file ∈ filesAt root path,
      root.isFile (Path.spec file) = true ∧ ∃ directories name, LeadsTo path directories name file := by
  obtain ⟨place, es, hplace, hfound, rfl⟩ := FileTree.listing?_eq_some hlisting
  have hpath := (FileTree.resolve_eq_ok_iff.mp hplace).1
  have hnamed := Entry.wellNamed_shape (Entry.wellNamed_find? hroot hfound)
  rw [filesAt, hlisting]
  refine ⟨hpath, ?_⟩
  simp only
  split
  · simp
  · refine ⟨(candidates_nodup hnamed hpath).filter _, fun file hfile => ?_⟩
    obtain ⟨hmem, hspec⟩ := List.mem_filter.mp hfile
    exact ⟨hspec, leadsTo_of_mem_candidates hnamed hmem⟩

theorem filesAt_cases {root : FileTree} (hroot : root.wellNamed = true) (path : String) :
    filesAt root path = [path] ∨ path ≠ "" ∧ (filesAt root path).Nodup ∧ ∀ file ∈ filesAt root path,
      root.isFile (Path.spec file) = true ∧ ∃ directories name, LeadsTo path directories name file := by
  cases hlisting : root.listing? path with
  | none => exact Or.inl (by rw [filesAt, hlisting])
  | some directory => exact Or.inr (filesAt_of_listing hroot hlisting)

end Sync

end Unwire
