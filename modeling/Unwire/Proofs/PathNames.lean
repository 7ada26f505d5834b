import Mathlib.Data.List.Induction
import Unwire.Proofs.FileWrites

namespace Unwire

namespace Path

variable {path name stem extension : List Char}

def isName (name : List Char) : Bool :=
  !(name == [] || name == ['.'] || name == ['.', '.'] || name.contains '/')

theorem isName_iff : isName name = true ↔ name ≠ [] ∧ name ≠ ['.'] ∧ name ≠ ['.', '.'] ∧ '/' ∉ name := by
  simp [isName, and_assoc]

theorem slash_not_mem (hname : isName name = true) : '/' ∉ name := (isName_iff.mp hname).2.2.2

theorem exists_join (hpath : path ≠ []) :
    ∃ front, (path = front ∨ path = front ++ ['/']) ∧ ∀ name, join path name = front ++ '/' :: name := by
  rcases List.eq_nil_or_concat path with rfl | ⟨front, c, rfl⟩
  · exact absurd rfl hpath
  · by_cases hc : c = '/'
    · exact ⟨front, Or.inr (by simp [hc]), fun name => by simp [join, hc]⟩
    · exact ⟨front.concat c, Or.inl rfl, fun name => by simp [join]⟩

theorem settle_append {last : List Char} (hne : last ≠ []) (hdot : last ≠ ['.']) (hslash : '/' ∉ last)
    (r : List Char) : settle (last ++ r) = last ++ r := by
  rcases last with _ | ⟨c, _ | ⟨d, last⟩⟩
  · exact absurd rfl hne
  · simp only [List.mem_singleton, ne_eq, List.cons.injEq, and_true] at hdot hslash
    rw [List.singleton_append, settle]
    all_goals simp_all [eq_comm]
  · simp only [List.mem_cons, not_or] at hslash
    rw [List.cons_append, List.cons_append, settle]
    all_goals simp_all [eq_comm]

def trim (path : List Char) : List Char := (settle path.reverse).reverse

theorem all_ne_reverse {c : Char} (hc : c ∉ name) : ∀ d ∈ name.reverse, (d != c) = true := by
  intro d hd
  simpa using ne_of_mem_of_not_mem (List.mem_reverse.mp hd) hc

theorem split?_of_reverse (rest : List Char) (hname : isName name = true) (hpath : path.reverse = name.reverse ++ rest)
    (hrest : ∀ c ∈ rest.head?, c = '/') : split? path = some ((settle rest).reverse, name) := by
  obtain ⟨hne, hdot, hdots, hslash⟩ := isName_iff.mp hname
  have hsettle : settle path.reverse = name.reverse ++ rest := by
    rw [hpath]
    apply settle_append
    · simpa using hne
    · simpa [List.reverse_eq_cons_iff] using hdot
    · simpa using hslash
  have htake : rest.takeWhile (· != '/') = [] := by
    cases rest with
    | nil => rfl
    | cons c rest => simp [hrest c rfl]
  have hdrop : rest.dropWhile (· != '/') = rest := by
    cases rest with
    | nil => rfl
    | cons c rest => simp [hrest c rfl]
  rw [split?, hsettle]
  simp only [List.takeWhile_append_of_pos (all_ne_reverse hslash), List.dropWhile_append_of_pos (all_ne_reverse hslash)]
  simp [htake, hdrop, hne, hdot, hdots]

theorem split?_join (hname : isName name = true) (path : List Char) :
    split? (join path name) = some (trim path, name) := by
  by_cases hpath : path = []
  · subst hpath
    exact split?_of_reverse [] hname (by simp [join]) (by simp)
  · obtain ⟨front, hfront, hjoin⟩ := exists_join hpath
    have htrim : settle ('/' :: front.reverse) = settle path.reverse := by
      rcases hfront with rfl | rfl
      · cases hr : path.reverse with
        | nil => exact absurd (List.reverse_eq_nil_iff.mp hr) hpath
        | cons c r => rw [settle]
      · simp
    rw [trim, ← htrim]
    exact split?_of_reverse _ hname (by simp [hjoin]) (by simp)

theorem divide_append (hstem : stem ≠ []) (hdot : '.' ∉ extension) :
    divide (stem ++ '.' :: extension) = (stem, some extension) := by
  have hrev : (stem ++ '.' :: extension).reverse = extension.reverse ++ '.' :: stem.reverse := by simp
  rw [divide, hrev]
  simp only [List.takeWhile_append_of_pos (all_ne_reverse hdot), List.dropWhile_append_of_pos (all_ne_reverse hdot)]
  cases hr : stem.reverse with
  | nil => exact absurd (List.reverse_eq_nil_iff.mp hr) hstem
  | cons c r =>
      obtain rfl : stem = (c :: r).reverse := by rw [← hr, List.reverse_reverse]
      simp

theorem divide_hidden (hdot : '.' ∉ extension) : divide ('.' :: extension) = ('.' :: extension, none) := by
  rw [divide, List.reverse_cons]
  simp only [List.dropWhile_append_of_pos (all_ne_reverse hdot)]
  rfl

theorem divide_cases (name : List Char) :
    (∃ stem extension, stem ≠ [] ∧ '.' ∉ extension ∧ name = stem ++ '.' :: extension) ∨ divide name = (name, none) := by
  have hname : name = (name.reverse.dropWhile (· != '.')).reverse ++ (name.reverse.takeWhile (· != '.')).reverse := by
    rw [← List.reverse_append, List.takeWhile_append_dropWhile, List.reverse_reverse]
  rw [divide]
  split
  · next c before hdrop =>
      refine Or.inl ⟨(c :: before).reverse, (name.reverse.takeWhile (· != '.')).reverse, by simp, ?_, ?_⟩
      · rw [List.mem_reverse]
        intro hmem
        simpa using List.all_eq_true.mp List.all_takeWhile _ hmem
      · rw [hdrop] at hname
        simpa using hname
  · exact Or.inr rfl

theorem specName_append (hstem : stem ≠ []) (hdot : '.' ∉ extension) :
    specName (stem ++ '.' :: extension) = stem ++ ".spec".toList ++ '.' :: extension := by
  rw [specName, divide_append hstem hdot, Option.getD_some]

theorem specName_of_divide (h : divide name = (name, none)) :
    specName name = name ++ ".spec".toList ++ '.' :: ['t', 's'] := by
  rw [specName, h, Option.getD_none]

theorem isName_specName (hslash : '/' ∉ name) : isName (specName name) = true := by
  have hmem : '/' ∉ specName name := by
    rcases divide_cases name with ⟨stem, extension, hstem, hdot, rfl⟩ | hname
    · rw [specName_append hstem hdot]
      simpa using hslash
    · rw [specName_of_divide hname]
      simpa using hslash
  have hlength : 5 < (specName name).length := by
    have hspec : ".spec".toList.length = 5 := rfl
    simp only [specName, List.length_append, List.length_cons, hspec]
    omega
  refine isName_iff.mpr ⟨?_, ?_, ?_, hmem⟩ <;> intro h <;> simp [h] at hlength

theorem toList_spec_below {directory name : String} (hname : isName name.toList = true) :
    (spec (below directory name)).toList = join (trim directory.toList) (specName name.toList) := by
  simp [spec, below, split?_join hname]

theorem slash_not_mem_of_split? {parent : List Char} (h : split? path = some (parent, name)) : '/' ∉ name := by
  rw [split?] at h
  split at h
  · cases h
  · obtain ⟨-, rfl⟩ := Prod.mk.inj (Option.some.inj h)
    rw [List.mem_reverse]
    intro hmem
    simpa using List.all_eq_true.mp List.all_takeWhile _ hmem

/-- Every spec path ends in the name of a spec file. -/
theorem exists_spec (path : String) : ∃ parent name, '/' ∉ name ∧
    (spec path).toList = join parent (specName name) ∧ extension? path = (divide name).2.map .ofList := by
  cases hsplit : split? path.toList with
  | none => exact ⟨path.toList, [], by simp, by simp [spec, hsplit], by simp [extension?, hsplit, divide]⟩
  | some parts =>
      obtain ⟨parent, name⟩ := parts
      exact ⟨parent, name, slash_not_mem_of_split? hsplit, by simp [spec, hsplit],
        by simp [extension?, hsplit]⟩

theorem fileName?_eq {path : String} {parent : List Char} (hname : isName name = true)
    (hpath : path.toList = join parent name) : fileName? path = some (.ofList name) := by
  rw [fileName?, hpath, split?_join hname, Option.map_some]

theorem divide_specName (name : List Char) :
    (divide (specName name)).2 = some ((divide name).2.getD ['t', 's']) := by
  have hdot : '.' ∉ (divide name).2.getD ['t', 's'] := by
    rcases divide_cases name with ⟨stem, extension, hstem, hdot, rfl⟩ | hname
    · simpa [divide_append hstem hdot] using hdot
    · simp [hname]
  rw [specName, divide_append (by simp) hdot]

theorem extension?_spec (path : String) : extension? (spec path) = some ((extension? path).getD "ts") := by
  obtain ⟨parent, name, hslash, hspec, hextension⟩ := exists_spec path
  rw [extension?, hspec, split?_join (isName_specName hslash), hextension]
  simp only [Option.bind_some, divide_specName]
  cases (divide name).2 <;> rfl

theorem segments_ne_nil (path : List Char) : segments path ≠ [] := by
  cases path with
  | nil => simp [segments]
  | cons c path =>
      rw [segments]
      split
      · simp
      · split <;> simp

theorem segments_append (front rest : List Char) :
    segments (front ++ '/' :: rest) = segments front ++ segments rest := by
  induction front with
  | nil => simp [segments]
  | cons c front ih =>
      rw [List.cons_append, segments, segments, ih]
      split
      · rfl
      · cases hs : segments front with
        | nil => exact absurd hs (segments_ne_nil front)
        | cons n ns => rfl

theorem segments_of_not_mem (hslash : '/' ∉ name) : segments name = [name] := by
  induction name with
  | nil => rfl
  | cons c name ih =>
      simp only [List.mem_cons, not_or] at hslash
      rw [segments, ih hslash.2, if_neg (by simpa using Ne.symm hslash.1)]

theorem trim_ne_nil (hpath : path ≠ []) : trim path ≠ [] := by
  have hsettle (r : List Char) (hr : r ≠ []) : settle r ≠ [] := by
    fun_induction settle r with
    | case1 c r ih => exact ih (by simp)
    | case2 c r ih => exact ih (by simp)
    | case3 => simp
    | case4 => exact hr
  simpa [trim] using hsettle path.reverse (by simpa using hpath)

end Path

namespace FileTree

variable {root : FileTree} {place : List String}

theorem resolveFrom_append (root : FileTree) (place front rest : List String) :
    root.resolveFrom place (front ++ rest) =
      (root.resolveFrom place front).bind fun place => root.resolveFrom place rest := by
  induction front generalizing place with
  | nil => rfl
  | cons name front ih =>
      rw [List.cons_append, resolveFrom, resolveFrom]
      split
      · simp only [ih]
        split
        · rfl
        · split
          · rfl
          · split <;> rfl
      · rfl

def IsDirectory (root : FileTree) (place : List String) : Prop := ∃ es, root.find? place = some (.directory es)

theorem resolveFrom_stay {name : String} {place' : List String} (hstay : name = "" ∨ name = ".") :
    root.resolveFrom place [name] = .ok place' ↔ root.IsDirectory place ∧ place' = place := by
  have hname : (name == "" || name == ".") = true := by simpa using hstay
  rw [resolveFrom, IsDirectory]
  split
  · next es hes => simp [hname, resolveFrom, hes, eq_comm]
  · next hno => simpa using fun es hes => absurd hes (hno es)

theorem resolveFrom_name {name : String} {place' : List String} (hname : Path.isName name.toList = true)
    (h : root.resolveFrom place [name] = .ok place') : root.IsDirectory place ∧ place' = place ++ [name] := by
  obtain ⟨hne, hdot, hdots, -⟩ := Path.isName_iff.mp hname
  rw [resolveFrom] at h
  split at h
  · next es hes =>
      have hgo : ¬(name == "" || name == ".") = true := by
        rw [Bool.or_eq_true, beq_iff_eq, beq_iff_eq]
        rintro (rfl | rfl)
        · exact hne rfl
        · exact hdot rfl
      have hup : ¬(name == "..") = true := by
        rw [beq_iff_eq]
        rintro rfl
        exact hdots rfl
      rw [if_neg hgo, if_neg hup] at h
      split at h
      · exact ⟨⟨es, hes⟩, (Except.ok.inj h).symm⟩
      · cases h
  · cases h

def walk (root : FileTree) (path : List Char) : Except FileError (List String) :=
  root.resolveFrom [] ((Path.segments path).map .ofList)

theorem resolve_eq_ok_iff {path : String} :
    root.resolve path = .ok place ↔ path ≠ "" ∧ root.walk path.toList = .ok place := by
  rw [resolve, walk, segments]
  split
  · next he => simp_all
  · next hne => simp_all

theorem walk_append_eq_ok_iff {front rest : List Char} (hslash : '/' ∉ rest) :
    root.walk (front ++ '/' :: rest) = .ok place ↔
      ∃ parent, root.walk front = .ok parent ∧ root.resolveFrom parent [.ofList rest] = .ok place := by
  rw [walk, Path.segments_append, List.map_append, resolveFrom_append, Path.segments_of_not_mem hslash, ← walk]
  cases root.walk front <;> simp [Except.bind]

theorem walk_append_stay (front : List Char) {rest : List Char} (hrest : rest = [] ∨ rest = ['.']) :
    root.walk (front ++ '/' :: rest) = .ok place ↔ root.walk front = .ok place ∧ root.IsDirectory place := by
  have hslash : '/' ∉ rest := by rcases hrest with rfl | rfl <;> simp
  have hstay : String.ofList rest = "" ∨ String.ofList rest = "." := by rcases hrest with rfl | rfl <;> simp
  simp only [walk_append_eq_ok_iff hslash, resolveFrom_stay hstay]
  constructor
  · rintro ⟨parent, hparent, hdir, rfl⟩
    exact ⟨hparent, hdir⟩
  · rintro ⟨hplace, hdir⟩
    exact ⟨place, hplace, hdir, rfl⟩

theorem walk_join {path name : List Char} (hpath : path ≠ []) (hname : Path.isName name = true)
    (h : root.walk (Path.join path name) = .ok place) :
    ∃ parent, root.walk path = .ok parent ∧ root.IsDirectory parent ∧ place = parent ++ [.ofList name] := by
  obtain ⟨front, hfront, hjoin⟩ := Path.exists_join hpath
  rw [hjoin, walk_append_eq_ok_iff (Path.slash_not_mem hname)] at h
  obtain ⟨parent, hparent, hlast⟩ := h
  obtain ⟨hdir, hplace⟩ := resolveFrom_name (by simpa using hname) hlast
  refine ⟨parent, ?_, hdir, hplace⟩
  rcases hfront with rfl | rfl
  · exact hparent
  · exact (walk_append_stay _ (Or.inl rfl)).mpr ⟨hparent, hdir⟩

/-- A path that ends in a name leads to a place of that name. -/
theorem getLast?_of_resolve {path : String} {parent name : List Char} (hname : Path.isName name = true)
    (hpath : path.toList = Path.join parent name) (h : root.resolve path = .ok place) :
    place.getLast? = some (.ofList name) := by
  have hwalk := (resolve_eq_ok_iff.mp h).2
  rw [hpath] at hwalk
  by_cases hparent : parent = []
  · subst hparent
    rw [Path.join, List.getLast?_nil, walk, Path.segments_of_not_mem (Path.slash_not_mem hname)] at hwalk
    obtain ⟨-, rfl⟩ := resolveFrom_name (by simpa using hname) hwalk
    rfl
  · obtain ⟨place, -, -, rfl⟩ := walk_join hparent hname hwalk
    exact List.getLast?_concat

theorem walk_of_trim {path : List Char} (hdir : root.IsDirectory place) (h : root.walk (Path.trim path) = .ok place) :
    root.walk path = .ok place := by
  -- What is dropped from the end goes away by one slash, or one slash and one dot, at a time.
  have hsettle (r : List Char) (h : root.walk (Path.settle r).reverse = .ok place) :
      root.walk r.reverse = .ok place := by
    fun_induction Path.settle r with
    | case1 c r ih =>
        rw [List.reverse_cons]
        exact (walk_append_stay _ (Or.inl rfl)).mpr ⟨ih h, hdir⟩
    | case2 c r ih =>
        rw [List.reverse_cons, List.reverse_cons, List.append_assoc]
        exact (walk_append_stay _ (Or.inr rfl)).mpr ⟨ih h, hdir⟩
    | case3 => exact (walk_append_stay [] (Or.inr rfl)).mpr ((walk_append_stay _ (Or.inl rfl)).mp h)
    | case4 => exact h
  simpa using hsettle path.reverse h

theorem resolve_below {directory name : String} (hdir : directory ≠ "") (hname : Path.isName name.toList = true)
    (h : root.resolve (Path.below directory name) = .ok place) :
    ∃ parent, root.resolve directory = .ok parent ∧ place = parent ++ [name] := by
  have hwalk := (resolve_eq_ok_iff.mp h).2
  rw [Path.below, String.toList_ofList] at hwalk
  obtain ⟨parent, hparent, -, hplace⟩ := walk_join (by simpa using hdir) hname hwalk
  rw [String.ofList_toList] at hplace
  exact ⟨parent, resolve_eq_ok_iff.mpr ⟨hdir, hparent⟩, hplace⟩

/-- The spec file of a class file below a directory is in that directory. -/
theorem resolve_spec_below {directory name : String} (hdir : directory ≠ "") (hname : Path.isName name.toList = true)
    (h : root.resolve (Path.spec (Path.below directory name)) = .ok place) :
    ∃ parent, root.resolve directory = .ok parent ∧ place = parent ++ [.ofList (Path.specName name.toList)] := by
  have hspec := Path.isName_specName (Path.slash_not_mem hname)
  have hwalk := (resolve_eq_ok_iff.mp h).2
  rw [Path.toList_spec_below hname] at hwalk
  obtain ⟨parent, hparent, hparentDir, hplace⟩ := walk_join (Path.trim_ne_nil (by simpa using hdir)) hspec hwalk
  exact ⟨parent, resolve_eq_ok_iff.mpr ⟨hdir, walk_of_trim hparentDir hparent⟩, hplace⟩

end FileTree

namespace Path

variable {directory : String} {names others : List String}

def descend (directory : String) (names : List String) : String := names.foldl below directory

theorem descend_append (directory : String) (names : List String) (name : String) :
    descend directory (names ++ [name]) = below (descend directory names) name := by
  simp [descend]

theorem below_ne_empty {name : String} (hname : isName name.toList = true) : below directory name ≠ "" := by
  rw [below, ne_eq, ← String.toList_eq_nil_iff, String.toList_ofList]
  by_cases hdir : directory.toList = []
  · rw [hdir]
    exact (isName_iff.mp hname).1
  · obtain ⟨front, -, hjoin⟩ := exists_join hdir
    simp [hjoin]

theorem segments_below {name : String} (hname : isName name.toList = true)
    (hend : (FileTree.segments directory).getLast? ≠ some "") :
    FileTree.segments (below directory name) = FileTree.segments directory ++ [name] := by
  have hdir : directory.toList ≠ [] := by
    intro hnil
    exact hend (by simp [FileTree.segments, hnil, segments])
  have hslash := slash_not_mem hname
  obtain ⟨front, rfl | hfront, hjoin⟩ := exists_join hdir
  · simp [FileTree.segments, below, hjoin, segments_append, segments_of_not_mem hslash]
  · refine absurd ?_ hend
    simp [FileTree.segments, hfront, segments_append, segments]

theorem exists_segments_descend (hdir : directory ≠ "") : ∃ base, ∀ names, names ≠ [] →
    (∀ name ∈ names, isName name.toList = true) → FileTree.segments (descend directory names) = base ++ names := by
  obtain ⟨front, -, hjoin⟩ := exists_join (String.toList_eq_nil_iff.not.mpr hdir)
  refine ⟨(segments front).map .ofList, fun names hne hnames => ?_⟩
  induction names using List.reverseRecOn with
  | nil => exact absurd rfl hne
  | append_singleton names name ih =>
      have hname := hnames name (by simp)
      rw [descend_append]
      by_cases hnil : names = []
      · subst hnil
        simp [FileTree.segments, descend, below, hjoin, segments_append,
          segments_of_not_mem (slash_not_mem hname)]
      · -- Only the directory may end in a slash: after a first name the path ends in a name.
        have hrest := ih hnil fun n hn => hnames n (by simp [hn])
        rw [segments_below hname, hrest, List.append_assoc]
        rw [hrest, List.getLast?_append, Option.or_of_isSome (by simpa using hnil)]
        intro hempty
        exact (isName_iff.mp (hnames "" (by simp [List.mem_of_getLast? hempty]))).1 rfl

/-- Two ways down from a directory that give the same path go by the same names. -/
theorem descend_inj (hdir : directory ≠ "") (hne : names ≠ []) (hne' : others ≠ [])
    (hnames : ∀ name ∈ names, isName name.toList = true) (hothers : ∀ name ∈ others, isName name.toList = true)
    (h : descend directory names = descend directory others) : names = others := by
  obtain ⟨base, hbase⟩ := exists_segments_descend hdir
  have hsegments := congrArg FileTree.segments h
  rw [hbase names hne hnames, hbase others hne' hothers] at hsegments
  exact List.append_cancel_left hsegments

theorem descend_ne_empty (hdir : directory ≠ "") (hnames : ∀ name ∈ names, isName name.toList = true) :
    descend directory names ≠ "" := by
  induction names generalizing directory with
  | nil => exact hdir
  | cons name names ih =>
      obtain ⟨hname, hrest⟩ := List.forall_mem_cons.mp hnames
      exact ih (below_ne_empty hname) hrest

end Path

theorem FileTree.resolve_descend {root : FileTree} {directory : String} {names place : List String}
    (hdir : directory ≠ "") (hnames : ∀ name ∈ names, Path.isName name.toList = true)
    (h : root.resolve (Path.descend directory names) = .ok place) :
    ∃ start, root.resolve directory = .ok start ∧ place = start ++ names := by
  induction names generalizing directory with
  | nil => exact ⟨place, h, by simp⟩
  | cons name names ih =>
      obtain ⟨hname, hrest⟩ := List.forall_mem_cons.mp hnames
      obtain ⟨start, hstart, rfl⟩ := ih (Path.below_ne_empty hname) hrest h
      obtain ⟨parent, hparent, rfl⟩ := resolve_below hdir hname hstart
      exact ⟨parent, hparent, by simp⟩

end Unwire
