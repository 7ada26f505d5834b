import Mathlib.Data.List.Forall2
import Unwire.CommandLine
import Unwire.Proofs.SyncRun

namespace Unwire

namespace FileTree

variable {root : FileTree} {path other : String} {place : List String}

def names (path : String) : List String := (segments path).filter fun name => !(name == "" || name == ".")

theorem resolveFrom_eq_append {parts : List String} (hup : ".." ∉ parts) {start : List String}
    (h : root.resolveFrom start parts = .ok place) :
    place = start ++ parts.filter fun name => !(name == "" || name == ".") := by
  induction parts generalizing start with
  | nil =>
      rw [resolveFrom] at h
      simpa [eq_comm] using h
  | cons part parts ih =>
      have hpart : (part == "..") = false := beq_eq_false_iff_ne.mpr fun he => hup (by simp [he])
      have hparts : ".." ∉ parts := fun hmem => hup (List.mem_cons_of_mem _ hmem)
      rw [resolveFrom] at h
      split at h
      · split at h
        · next hstay =>
            rw [List.filter_cons_of_neg (by simp [hstay])]
            exact ih hparts h
        · next hgo =>
            rw [List.filter_cons_of_pos (by simpa using hgo)]
            rw [hpart, if_neg Bool.false_ne_true] at h
            split at h
            · rw [ih hparts h, List.append_assoc, List.singleton_append]
            · cases h
      · cases h

theorem names_eq_of_sameFile (hpath : ".." ∉ segments path) (hother : ".." ∉ segments other)
    (h : root.SameFile path other) : names path = names other := by
  obtain ⟨place, hplace, hplace'⟩ := h
  rw [resolve] at hplace hplace'
  split at hplace
  · cases hplace
  split at hplace'
  · cases hplace'
  have heq := resolveFrom_eq_append hpath hplace
  rw [resolveFrom_eq_append hother hplace'] at heq
  exact heq.symm

end FileTree

/-- The files that a job uses, and those among them that it writes. -/
structure Footprint where
  used : List String
  written : List String
  written_used : written ⊆ used

def Footprint.Apart (root : FileTree) (f g : Footprint) : Prop :=
  (∀ p ∈ f.written, ∀ q ∈ g.used, ¬root.SameFile p q) ∧ ∀ q ∈ g.written, ∀ p ∈ f.used, ¬root.SameFile q p

namespace Job

variable {α β : Type} {root files files' : FileTree} {f g : Footprint} {j : Job α} {k : Job β}

/-- On files of the shape of `root`, the job reads and writes what it may, and writes only files that are there. -/
def StaysIn (root : FileTree) (f : Footprint) : Job α → Prop
  | done _ => True
  | listing path next => (next (root.listing? path)).StaysIn root f
  | read path next => path ∈ f.used ∧ ∀ r, (next r).StaysIn root f
  | isFile path next => (next (root.isFile path)).StaysIn root f
  | write path _ next => path ∈ f.written ∧ root.isFile path = true ∧ (next (.ok ())).StaysIn root f

theorem step_induction {motive : Job α → Prop} (done : ∀ a, motive (.done a))
    (step : ∀ j : Job α, (∀ files, motive (j.step files).1) → motive j) (j : Job α) : motive j := by
  induction j with
  | done a => exact done a
  | write path text next ih =>
      refine step _ fun files => ?_
      rw [Job.step]
      cases files.write path (.text text) with
      | ok files' => exact ih _
      | error cause => exact ih _
  | listing path next ih => exact step _ fun files => ih _
  | read path next ih => exact step _ fun files => ih _
  | isFile path next ih => exact step _ fun files => ih _

theorem write_eq_put {path : String} (h : root.isFile path = true) :
    ∃ place, root.resolve path = .ok place ∧ ∀ files : FileTree, files.shape = root.shape →
      (∃ c, files.content? place = some c) ∧
        ∀ d, files.write path d = .ok (Entry.put (.file d) place files) := by
  obtain ⟨place, _, hplace, _⟩ := FileTree.isFile_iff.mp h
  refine ⟨place, hplace, fun files hshape => ?_⟩
  rw [← FileTree.isFile_congr hshape] at h
  obtain ⟨place', c, hplace', hc⟩ := FileTree.isFile_iff.mp h
  have hsame := (FileTree.resolve_congr hshape path).symm.trans hplace'
  obtain rfl := Except.ok.inj (hplace.symm.trans hsame)
  exact ⟨⟨c, hc⟩, FileTree.write_eq hplace' hc⟩

theorem step_files (h : j.StaysIn root f) :
    (∀ files, (j.step files).2 = files) ∨
    ∃ p ∈ f.written, ∃ place d, root.resolve p = .ok place ∧ ∀ files : FileTree, files.shape = root.shape →
      (∃ c, files.content? place = some c) ∧ (j.step files).2 = Entry.put (.file d) place files := by
  cases j with
  | write path text next =>
      obtain ⟨hpath, hfile, _⟩ := h
      obtain ⟨place, hplace, hwrite⟩ := write_eq_put hfile
      refine Or.inr ⟨path, hpath, place, .text text, hplace, fun files hshape => ⟨(hwrite files hshape).1, ?_⟩⟩
      rw [step, (hwrite files hshape).2]
  | _ => exact Or.inl fun _ => rfl

theorem step_shape (h : j.StaysIn root f) (hshape : files.shape = root.shape) :
    (j.step files).2.shape = root.shape := by
  obtain hsame | ⟨_, _, place, d, _, hput⟩ := step_files h
  · rw [hsame, hshape]
  · obtain ⟨⟨c, hc⟩, hstep⟩ := hput files hshape
    rw [hstep, Entry.shape_put hc, hshape]

theorem step_staysIn (h : j.StaysIn root f) (hshape : files.shape = root.shape) :
    (j.step files).1.StaysIn root f := by
  cases j with
  | done a => exact h
  | listing path next =>
      rw [step, FileTree.listing?_congr hshape]
      exact h
  | read path next => exact h.2 _
  | isFile path next =>
      rw [step, FileTree.isFile_congr hshape]
      exact h
  | write path text next =>
      obtain ⟨_, hwrite⟩ := write_eq_put h.2.1
      rw [step, (hwrite.2 files hshape).2]
      exact h.2.2

/-- What a job does next depends on the files that it uses. -/
theorem step_congr (h : j.StaysIn root f) (hshape : files.shape = root.shape) (hshape' : files'.shape = root.shape)
    (hread : ∀ p ∈ f.used, files'.read p = files.read p) : (j.step files').1 = (j.step files).1 := by
  cases j with
  | done a => rfl
  | listing path next => rw [step, step, FileTree.listing?_congr (hshape'.trans hshape.symm)]
  | read path next => rw [step, step, hread path h.1]
  | isFile path next => rw [step, step, FileTree.isFile_congr (hshape'.trans hshape.symm)]
  | write path text next =>
      obtain ⟨_, hwrite⟩ := write_eq_put h.2.1
      rw [step, step, (hwrite.2 files hshape).2, (hwrite.2 files' hshape').2]

theorem read_step (h : j.StaysIn root f) (hshape : files.shape = root.shape) {q : String}
    (hq : ∀ p ∈ f.written, ¬root.SameFile p q) : (j.step files).2.read q = files.read q := by
  obtain hsame | ⟨p, hp, place, d, hplace, hput⟩ := step_files h
  · rw [hsame]
  · obtain ⟨⟨c, hc⟩, hstep⟩ := hput files hshape
    rw [hstep]
    refine FileTree.read_congr (Entry.shape_put hc d) fun place' hplace' => ?_
    rw [FileTree.resolve_congr hshape] at hplace'
    exact Entry.content?_put_of_ne hc d fun he => hq p hp ⟨place, hplace, he ▸ hplace'⟩

/-- Steps of two jobs that are apart can be taken in either order. -/
theorem step_comm (hj : j.StaysIn root f) (hk : k.StaysIn root g) (hapart : f.Apart root g)
    (hshape : files.shape = root.shape) :
    j.step (k.step files).2 = ((j.step files).1, (k.step (j.step files).2).2) := by
  refine Prod.ext (step_congr hj hshape (step_shape hk hshape) fun p hp => ?_) ?_
  · exact read_step hk hshape fun q hq => hapart.2 q hq p hp
  show (j.step (k.step files).2).2 = (k.step (j.step files).2).2
  obtain hsame | ⟨p, hp, place, d, hplace, hput⟩ := step_files hj
  · rw [hsame, hsame]
  obtain hsame | ⟨q, hq, place', d', hplace', hput'⟩ := step_files hk
  · rw [hsame, hsame]
  obtain ⟨⟨c, hc⟩, hstep⟩ := hput files hshape
  obtain ⟨⟨c', hc'⟩, hstep'⟩ := hput' files hshape
  have hne : place ≠ place' := fun he => hapart.1 p hp q (g.written_used hq) ⟨place, hplace, he ▸ hplace'⟩
  rw [(hput _ (step_shape hk hshape)).2, (hput' _ (step_shape hj hshape)).2, hstep, hstep',
    Entry.put_comm hc hc' hne]

theorem step_run_comm (hj : j.StaysIn root f) (hk : k.StaysIn root g) (hapart : f.Apart root g)
    (hshape : files.shape = root.shape) :
    k.run (j.step files).2 = ((k.run files).1, (j.step (k.run files).2).2) ∧
      (j.step (k.run files).2).1 = (j.step files).1 ∧ (k.run files).2.shape = root.shape := by
  induction k using step_induction generalizing files with
  | done b => exact ⟨rfl, rfl, hshape⟩
  | step k ih =>
      have hswap := step_comm hj hk hapart hshape
      have hswap' := step_comm hk hj ⟨hapart.2, hapart.1⟩ hshape
      obtain ⟨hrun, hjob, hend⟩ := ih files (step_staysIn hk hshape) (step_shape hk hshape)
      rw [run_step] at hrun hjob hend
      refine ⟨?_, hjob.trans (by rw [hswap]), hend⟩
      rw [← run_step k (j.step files).2, hswap', ← hrun]

def Within : Nat → Job α → Prop
  | 0, j => ∃ a, j = done a
  | n + 1, j => ∀ files, Within n (j.step files).1

theorem within_done (n : Nat) (a : α) : (done a).Within n := by
  induction n with
  | zero => exact ⟨a, rfl⟩
  | succ n ih => exact fun _ => ih

theorem within_step {n : Nat} (h : j.Within n) (files : FileTree) : (j.step files).1.Within (n - 1) := by
  cases n with
  | zero =>
      obtain ⟨a, rfl⟩ := h
      exact ⟨a, rfl⟩
  | succ n => exact h files

theorem step_write {path text : String} {next : Except FileError Unit → Job α}
    (h : files.write path (.text text) = .ok files') : (write path text next).step files = (next (.ok ()), files') := by
  rw [step, h]

theorem within_write {n : Nat} {path text : String} {next : Except FileError Unit → Job α}
    (h : ∀ r, (next r).Within n) : (write path text next).Within (n + 1) := by
  intro files
  rw [step]
  cases files.write path (.text text) with
  | ok files' => exact h _
  | error cause => exact h _

end Job

def runAll {α : Type} : List (Job α) → FileTree → List α × FileTree
  | [], files => ([], files)
  | j :: jobs, files =>
    let rest := runAll jobs (j.run files).2
    ((j.run files).1 :: rest.1, rest.2)

structure Pool (α : Type) where
  jobs : List (Job α)
  files : FileTree

namespace Pool

variable {α : Type}

def step (pool : Pool α) (i : Nat) : Pool α :=
  match pool.jobs[i]? with
  | none => pool
  | some j => ⟨pool.jobs.set i (j.step pool.files).1, (j.step pool.files).2⟩

def follow (pool : Pool α) (schedule : List Nat) : Pool α := schedule.foldl step pool

/-- Each job has a footprint of its own, apart from those of the others. -/
structure Divided (root : FileTree) (footprints : List Footprint) (pool : Pool α) : Prop where
  shape : pool.files.shape = root.shape
  staysIn : List.Forall₂ (fun f j => j.StaysIn root f) footprints pool.jobs
  apart : footprints.Pairwise (Footprint.Apart root)

variable {root files : FileTree} {footprints : List Footprint} {pool : Pool α} {jobs : List (Job α)} {j : Job α}
  {i n : Nat}

theorem exists_footprint (h : List.Forall₂ (fun f j => Job.StaysIn root f j) footprints jobs) (hj : jobs[i]? = some j) :
    ∃ f ∈ footprints, j.StaysIn root f := by
  obtain ⟨hi, rfl⟩ := List.getElem?_eq_some_iff.mp hj
  have hi' : i < footprints.length := h.length_eq ▸ hi
  exact ⟨footprints[i], List.getElem_mem hi', h.get hi' hi⟩

theorem staysIn_set {j' : Job α} (h : List.Forall₂ (fun f j => Job.StaysIn root f j) footprints jobs)
    (hj : jobs[i]? = some j) (hstep : ∀ f, j.StaysIn root f → j'.StaysIn root f) :
    List.Forall₂ (fun f j => Job.StaysIn root f j) footprints (jobs.set i j') := by
  induction h generalizing i with
  | nil => simp at hj
  | @cons f k footprints jobs hk hrest ih =>
      cases i with
      | zero =>
          obtain rfl : k = j := by simpa using hj
          exact .cons (hstep f hk) hrest
      | succ i => exact .cons hk (ih (by simpa using hj))

/-- A step of one job moves to the front, past the runs of the jobs before it. -/
theorem runAll_set (hstays : List.Forall₂ (fun f j => Job.StaysIn root f j) footprints jobs)
    (hapart : footprints.Pairwise (Footprint.Apart root)) (hshape : files.shape = root.shape)
    (hj : jobs[i]? = some j) :
    runAll (jobs.set i (j.step files).1) (j.step files).2 = runAll jobs files := by
  induction hstays generalizing i files with
  | nil => simp at hj
  | @cons f k footprints jobs hk hrest ih =>
      obtain ⟨hfirst, hapart⟩ := List.pairwise_cons.mp hapart
      cases i with
      | zero =>
          obtain rfl : k = j := by simpa using hj
          rw [List.set_cons_zero, runAll, runAll, Job.run_step]
      | succ i =>
          rw [List.getElem?_cons_succ] at hj
          obtain ⟨g, hg, hjg⟩ := exists_footprint hrest hj
          obtain ⟨hrun, hjob, hend⟩ := Job.step_run_comm hjg hk ⟨(hfirst g hg).2, (hfirst g hg).1⟩ hshape
          rw [List.set_cons_succ, runAll, runAll, hrun, ← hjob, ih hapart hend hj]

theorem Divided.step (h : pool.Divided root footprints) (i : Nat) :
    (pool.step i).Divided root footprints ∧
      runAll (pool.step i).jobs (pool.step i).files = runAll pool.jobs pool.files := by
  rw [Pool.step]
  cases hj : pool.jobs[i]? with
  | none => exact ⟨h, rfl⟩
  | some j =>
      obtain ⟨f, _, hjf⟩ := exists_footprint h.staysIn hj
      refine ⟨⟨Job.step_shape hjf h.shape, ?_, h.apart⟩, runAll_set h.staysIn h.apart h.shape hj⟩
      exact staysIn_set h.staysIn hj fun g hg => Job.step_staysIn hg h.shape

/-- Whatever has been done so far, the jobs end as they would have one after the other. -/
theorem Divided.follow (h : pool.Divided root footprints) (schedule : List Nat) :
    runAll (pool.follow schedule).jobs (pool.follow schedule).files = runAll pool.jobs pool.files := by
  induction schedule generalizing pool with
  | nil => rfl
  | cons i schedule ih =>
      obtain ⟨hnext, hrun⟩ := h.step i
      exact (ih hnext).trans hrun

theorem runAll_done (results : List α) (files : FileTree) : runAll (results.map .done) files = (results, files) := by
  induction results with
  | nil => rfl
  | cons result results ih => simp [runAll, Job.run, ih]

theorem getElem?_runAll {a : α} (hj : jobs[i]? = some (.done a)) (files : FileTree) :
    (runAll jobs files).1[i]? = some a := by
  induction jobs generalizing i files with
  | nil => simp at hj
  | cons k jobs ih =>
      cases i with
      | zero =>
          obtain rfl : k = .done a := by simpa using hj
          rfl
      | succ i => exact ih (by simpa using hj) _

theorem length_step (pool : Pool α) (i : Nat) : (pool.step i).jobs.length = pool.jobs.length := by
  rw [step]
  split <;> simp

theorem length_follow (pool : Pool α) (schedule : List Nat) :
    (pool.follow schedule).jobs.length = pool.jobs.length := by
  induction schedule generalizing pool with
  | nil => rfl
  | cons i schedule ih => exact (ih (pool.step i)).trans (pool.length_step i)

theorem getElem?_step_self (hj : pool.jobs[i]? = some j) :
    (pool.step i).jobs[i]? = some (j.step pool.files).1 := by
  obtain ⟨hi, _⟩ := List.getElem?_eq_some_iff.mp hj
  rw [step, hj]
  simp [hi]

theorem getElem?_step_of_ne {k : Nat} (hne : k ≠ i) : (pool.step k).jobs[i]? = pool.jobs[i]? := by
  rw [step]
  split
  · rfl
  · simp [hne]

theorem follow_done {schedule : List Nat} (hj : pool.jobs[i]? = some j) (hwithin : j.Within n)
    (hturns : n ≤ schedule.count i) : ∃ a, (pool.follow schedule).jobs[i]? = some (.done a) := by
  induction schedule generalizing pool j n with
  | nil =>
      obtain rfl : n = 0 := by simpa using hturns
      obtain ⟨a, rfl⟩ := hwithin
      exact ⟨a, hj⟩
  | cons k schedule ih =>
      by_cases hk : k = i
      · obtain rfl := hk
        rw [List.count_cons_self] at hturns
        exact ih (getElem?_step_self hj) (Job.within_step hwithin pool.files) (by omega)
      · rw [List.count_cons_of_ne hk] at hturns
        exact ih ((getElem?_step_of_ne hk).trans hj) hwithin hturns

end Pool

namespace Sync

open Syntax
open CommandLine (Results reports failures)

namespace Settings

variable (s : Settings)

def footprint (path : String) : Footprint where
  used := [path, Path.spec path]
  written := [Path.spec path]
  written_used := by simp

theorem syncFile_staysIn (root : FileTree) (path : String) : (s.syncFile path).StaysIn root (footprint path) := by
  refine ⟨List.mem_cons_self, fun classText => ?_⟩
  dsimp only
  split
  · trivial
  split
  · trivial
  rw [Job.StaysIn]
  split
  · trivial
  next hfile =>
  refine ⟨by simp [footprint], fun text => ?_⟩
  dsimp only
  split
  · trivial
  split
  · trivial
  split
  · trivial
  split
  · trivial
  split
  · trivial
  · exact ⟨List.mem_singleton.mpr rfl, hfile, trivial⟩

theorem syncFile_within (path : String) : (s.syncFile path).Within 4 := by
  intro files
  rw [syncFile, Job.step]
  split
  · exact Job.within_done _ _
  split
  · exact Job.within_done _ _
  intro files
  rw [Job.step]
  split
  · exact Job.within_done _ _
  intro files
  rw [Job.step]
  split
  · exact Job.within_done _ _
  split
  · exact Job.within_done _ _
  dsimp only
  split
  · exact Job.within_done _ _
  split
  · exact Job.within_done _ _
  split
  · exact Job.within_done _ _
  · refine Job.within_write fun result => ?_
    cases result with
    | error cause => exact Job.within_done _ _
    | ok _ => exact Job.within_done _ _

theorem run_syncFiles (paths : List String) (files : FileTree) :
    (s.syncFiles paths).run files =
      (paths.zip (runAll (paths.map s.syncFile) files).1, (runAll (paths.map s.syncFile) files).2) := by
  induction paths generalizing files with
  | nil => rfl
  | cons path paths ih =>
      have hrun : (s.syncFiles (path :: paths)).run files =
          ((path, ((s.syncFile path).run files).1) :: ((s.syncFiles paths).run ((s.syncFile path).run files).2).1,
            ((s.syncFiles paths).run ((s.syncFile path).run files).2).2) := by
        rw [syncFiles]
        exact (Job.run_bind _ _ _).trans (Job.run_bind _ _ _)
      rw [hrun, ih]
      rfl

theorem exists_run_of_mem {path : String} {result : Except SyncError Report} {paths : List String} {files : FileTree}
    (h : (path, result) ∈ ((s.syncFiles paths).run files).1) : ∃ files', ((s.syncFile path).run files').1 = result := by
  rw [run_syncFiles] at h
  induction paths generalizing files with
  | nil => simp at h
  | cons other paths ih =>
      rw [List.map_cons, runAll, List.zip_cons_cons] at h
      cases h with
      | head => exact ⟨files, rfl⟩
      | tail _ h => exact ih h

theorem divided_syncFiles {paths : List String} {files : FileTree}
    (hapart : paths.Pairwise fun p q => ¬files.SameFile (Path.spec p) (Path.spec q) ∧ ¬files.SameFile p (Path.spec q) ∧
      ¬files.SameFile (Path.spec p) q) :
    (Pool.mk (paths.map s.syncFile) files).Divided files (paths.map footprint) := by
  refine ⟨rfl, ?_, List.pairwise_map.mpr (hapart.imp fun {p q} ⟨hspecs, hclass, hspec⟩ => ?_)⟩
  · rw [List.forall₂_map_left_iff, List.forall₂_map_right_iff, List.forall₂_same]
    exact fun path _ => s.syncFile_staysIn files path
  · have hsymm {p q : String} (h : ¬files.SameFile p q) : ¬files.SameFile q p := by
      rintro ⟨place, hp, hq⟩
      exact h ⟨place, hq, hp⟩
    simp only [Footprint.Apart, footprint, List.mem_cons, List.not_mem_nil, or_false, forall_eq, forall_eq_or_imp]
    exact ⟨⟨hspec, hspecs⟩, hsymm hclass, hsymm hspecs⟩

end Settings

theorem classFile_reports {results : Results} (h : ∀ x ∈ results, ∀ report, x.2 = .ok report → report.classFile = x.1) :
    (reports results).map (·.classFile) = (results.filter (·.2.isOk)).map (·.1) := by
  induction results with
  | nil => rfl
  | cons x results ih =>
      have hrest := ih fun y hy => h y (List.mem_cons_of_mem _ hy)
      obtain ⟨path, result⟩ := x
      cases result with
      | error cause => exact hrest
      | ok report =>
          obtain rfl : report.classFile = path := h _ List.mem_cons_self report rfl
          exact congrArg (report.classFile :: ·) hrest

theorem length_reports_add_failures (results : Results) :
    (reports results).length + (failures results).length = results.length := by
  induction results with
  | nil => rfl
  | cons x results ih =>
      obtain ⟨path, result⟩ := x
      cases result with
      | error cause =>
          have hreports : reports ((path, .error cause) :: results) = reports results := rfl
          have hfailures : (failures ((path, .error cause) :: results)).length = (failures results).length + 1 := rfl
          rw [hreports, hfailures, List.length_cons, ← ih, Nat.add_assoc]
      | ok report =>
          have hreports : (reports ((path, .ok report) :: results)).length = (reports results).length + 1 := rfl
          have hfailures : failures ((path, .ok report) :: results) = failures results := rfl
          rw [hreports, hfailures, List.length_cons, ← ih, Nat.add_right_comm]

/-- Class files can be synchronised at the same time where no spec file belongs to two of them or is another one of
them. In whatever order the steps are taken, a file that is finished has the result that it has when the files are
synchronised one after the other. Four turns finish a file. Once all are finished the files are the same too, and
there is one report or one failure for each file, in order. -/
theorem schedule_independent (s : Settings) (files : FileTree) (paths : List String) (schedule : List Nat)
    (hapart : paths.Pairwise fun p q => ¬files.SameFile (Path.spec p) (Path.spec q) ∧ ¬files.SameFile p (Path.spec q) ∧
      ¬files.SameFile (Path.spec p) q) :
    let pool := (Pool.mk (paths.map s.syncFile) files).follow schedule
    let sequential := (s.syncFiles paths).run files
    (∀ (i : Nat) path result, paths[i]? = some path → pool.jobs[i]? = some (.done result) →
      sequential.1[i]? = some (path, result)) ∧
    (∀ i < paths.length, 4 ≤ schedule.count i → ∃ result, pool.jobs[i]? = some (.done result)) ∧
    ∀ results, pool.jobs = results.map .done →
      results.length = paths.length ∧ paths.zip results = sequential.1 ∧ pool.files = sequential.2 ∧
      (reports (paths.zip results)).map (·.classFile) = ((paths.zip results).filter (·.2.isOk)).map (·.1) ∧
      (reports (paths.zip results)).length + (failures (paths.zip results)).length = paths.length := by
  intro pool sequential
  have hfollow := (s.divided_syncFiles hapart).follow schedule
  have hsequential : sequential = (paths.zip (runAll pool.jobs pool.files).1, (runAll pool.jobs pool.files).2) := by
    rw [hfollow]
    exact s.run_syncFiles paths files
  refine ⟨fun i path result hpath hjob => ?_, fun i hi hturns => ?_, fun results hdone => ?_⟩
  · rw [hsequential, List.getElem?_zip_eq_some]
    exact ⟨hpath, Pool.getElem?_runAll hjob _⟩
  · refine Pool.follow_done ?_ (s.syncFile_within paths[i]) hturns
    simp [hi]
  · have hlength : results.length = paths.length := by
      have hjobs := Pool.length_follow (Pool.mk (paths.map s.syncFile) files) schedule
      simpa [pool, hdone] using hjobs
    rw [hdone, Pool.runAll_done] at hsequential
    have hzip : paths.zip results = sequential.1 := by rw [hsequential]
    refine ⟨hlength, hzip, by rw [hsequential], classFile_reports fun x hx report hreport => ?_, ?_⟩
    · rw [hzip] at hx
      obtain ⟨files', hrun⟩ := s.exists_run_of_mem hx
      exact Settings.classFile_of_run (hrun.trans hreport)
    · rw [length_reports_add_failures, List.length_zip, hlength, Nat.min_self]

def twoClassFiles : FileTree :=
  .directory [("c.ts", .file (.text classText)), ("c.spec.ts", .file (.text Removal.setupText)),
    ("d.ts", .file (.text classText)), ("d.spec.ts", .file (.text Removal.setupText))]

theorem two_classes_take_turns :
    let s : Settings := { reader := classReader, config := ⟨"f", .listAware⟩ }
    let pool := (Pool.mk (["c.ts", "d.ts"].map s.syncFile) twoClassFiles).follow [0, 1, 1, 0, 0, 1, 1, 0]
    ¬twoClassFiles.SameFile "c.spec.ts" "d.spec.ts" ∧
    ∃ results, pool.jobs = results.map .done ∧
      ["c.ts", "d.ts"].zip results = ((s.syncFiles ["c.ts", "d.ts"]).run twoClassFiles).1 ∧
      pool.files = ((s.syncFiles ["c.ts", "d.ts"]).run twoClassFiles).2 := by
  intro s pool
  have hspec : Path.spec "c.ts" = "c.spec.ts" ∧ Path.spec "d.ts" = "d.spec.ts" := by decide
  have hdiffer : ∀ p ∈ ["c.ts", "c.spec.ts"], ∀ q ∈ ["d.ts", "d.spec.ts"], ¬twoClassFiles.SameFile p q := by
    intro p hp q hq hsame
    have hnames : ∀ p ∈ ["c.ts", "c.spec.ts"], ∀ q ∈ ["d.ts", "d.spec.ts"], ".." ∉ FileTree.segments p ∧
        ".." ∉ FileTree.segments q ∧ FileTree.names p ≠ FileTree.names q := by decide
    obtain ⟨hup, hup', hne⟩ := hnames p hp q hq
    exact hne (FileTree.names_eq_of_sameFile hup hup' hsame)
  have hapart : ["c.ts", "d.ts"].Pairwise fun p q => ¬twoClassFiles.SameFile (Path.spec p) (Path.spec q) ∧
      ¬twoClassFiles.SameFile p (Path.spec q) ∧ ¬twoClassFiles.SameFile (Path.spec p) q := by
    rw [List.pairwise_pair, hspec.1, hspec.2]
    exact ⟨hdiffer _ (by simp) _ (by simp), hdiffer _ (by simp) _ (by simp), hdiffer _ (by simp) _ (by simp)⟩
  obtain ⟨_, hturns, hend⟩ := schedule_independent s twoClassFiles ["c.ts", "d.ts"] [0, 1, 1, 0, 0, 1, 1, 0] hapart
  obtain ⟨first, hfirst⟩ := hturns 0 (by decide) (by decide)
  obtain ⟨second, hsecond⟩ := hturns 1 (by decide) (by decide)
  have hjobs : pool.jobs = [first, second].map .done := by
    have hlength : pool.jobs.length = 2 := Pool.length_follow _ _
    refine List.ext_getElem? fun i => ?_
    match i with
    | 0 => exact hfirst
    | 1 => exact hsecond
    | i + 2 => rw [List.getElem?_eq_none (by omega), List.getElem?_eq_none (by simp)]
  obtain ⟨_, hzip, hfiles, _⟩ := hend _ hjobs
  exact ⟨hspec.1 ▸ hspec.2 ▸ (List.pairwise_pair.mp hapart).1, _, hjobs, hzip, hfiles⟩

def settledReader : Reader := fun dialect text => if text = leftText then leftTree else classReader dialect text

def listAwareSettings : Settings := { reader := settledReader, config := ⟨"f", .listAware⟩ }

def settledFiles : FileTree :=
  .directory [("c.ts", .file (.text classText)), ("c.spec.ts", .file (.text leftText))]

theorem signature_settledReader (path : String) :
    ClassSignature.read settledReader path classText none = .ok ⟨"C", [⟨"d", none⟩]⟩ := by
  apply signature_classText
  rw [SyntaxTree.read, settledReader, if_neg (by decide), classReader, if_neg (by decide)]

theorem read_one_class (spec : String) {path : String} (hpath : path = "c.ts" ∨ path = "./c.ts") :
    let files : FileTree := .directory [("c.ts", .file (.text classText)), ("c.spec.ts", .file (.text spec))]
    files.read path = .ok classText ∧ files.read (Path.spec path) = .ok spec := by
  rcases hpath with rfl | rfl <;>
    exact ⟨FileTree.read_eq_ok_iff.mpr ⟨["c.ts"], rfl, rfl⟩, FileTree.read_eq_ok_iff.mpr ⟨["c.spec.ts"], rfl, rfl⟩⟩

theorem settle_classFiles {path : String} (hpath : path = "c.ts" ∨ path = "./c.ts") :
    ∃ report edits next, report.status = .updated edits ∧ next (.ok ()) = .done (.ok report) ∧
      listAwareSettings.settle (Path.spec path) (listAwareSettings.inspect classFiles path) =
        .write (Path.spec path) leftText next := by
  obtain ⟨hclass, hspec⟩ : classFiles.read path = .ok classText ∧
      classFiles.read (Path.spec path) = .ok Removal.setupText := read_one_class _ hpath
  have htree : SyntaxTree.read settledReader (Path.spec path) Removal.setupText =
      .ofParse Removal.setupText Removal.setupTree := by
    rw [SyntaxTree.read, settledReader, if_neg (by decide), classReader, if_pos rfl]
  obtain ⟨plan, hplan, hedits, hpatched⟩ := exists_plan_setup htree
  rw [Settings.inspect_of_plan (s := listAwareSettings) hclass (signature_settledReader path) hspec hplan,
    if_neg (by simpa using hedits), Settings.settle, hpatched]
  exact ⟨_, _, _, rfl, rfl, rfl⟩

theorem settle_settledFiles {path : String} (hpath : path = "c.ts" ∨ path = "./c.ts") :
    ∃ report, report.status = .upToDate ∧
      listAwareSettings.settle (Path.spec path) (listAwareSettings.inspect settledFiles path) = .done (.ok report) := by
  obtain ⟨hclass, hspec⟩ : settledFiles.read path = .ok classText ∧
      settledFiles.read (Path.spec path) = .ok leftText := read_one_class _ hpath
  have htree : SyntaxTree.read settledReader (Path.spec path) leftText = .ofParse leftText leftTree := by
    rw [SyntaxTree.read, settledReader, if_pos rfl]
  obtain ⟨again, hagain, hedits⟩ := exists_plan_left htree
  rw [Settings.inspect_of_plan (s := listAwareSettings) hclass (signature_settledReader path) hspec hagain,
    if_pos (by simp [hedits]), Settings.settle]
  exact ⟨_, rfl, rfl⟩

/-- Two paths that differ lead to one class. Where both tasks read the spec file before one of them writes it, both
report an update; one after the other, the second finds nothing to do, whichever of them that is. -/
theorem one_class_by_two_paths :
    let s := listAwareSettings
    let paths := ["c.ts", "./c.ts"]
    let pool := Pool.mk (paths.map s.syncFile) classFiles
    ((collect paths).run classFiles).1 = paths ∧
    (paths.Pairwise fun p q => Path.spec p ≠ Path.spec q ∧ p ≠ Path.spec q ∧ Path.spec p ≠ q) ∧
    ∃ first second firstEdits secondEdits, first.status = .updated firstEdits ∧ second.status = .updated secondEdits ∧
      ∃ first' second' : Report, first'.status = .upToDate ∧ second'.status = .upToDate ∧
      ((s.syncFiles paths).run classFiles).1 = [("c.ts", .ok first), ("./c.ts", .ok second')] ∧
      (pool.follow [0, 0, 0, 1, 1, 1, 0, 1]).jobs = [.done (.ok first), .done (.ok second)] ∧
      (pool.follow [1, 1, 1, 1, 0, 0, 0, 0]).jobs = [.done (.ok first'), .done (.ok second)] := by
  intro s paths pool
  obtain ⟨first, firstEdits, next, hfirst, hnext, hsettle⟩ := settle_classFiles (Or.inl rfl)
  obtain ⟨second, secondEdits, next', hsecond, hnext', hsettle'⟩ := settle_classFiles (Or.inr rfl)
  obtain ⟨first', hfirst', hsettled⟩ := settle_settledFiles (Or.inl rfl)
  obtain ⟨second', hsecond', hsettled'⟩ := settle_settledFiles (Or.inr rfl)
  have hwrite : (Job.write (Path.spec "c.ts") leftText next).step classFiles = (.done (.ok first), settledFiles) :=
    hnext ▸ Job.step_write rfl
  have hwrite' : (Job.write (Path.spec "./c.ts") leftText next').step classFiles = (.done (.ok second), settledFiles) :=
    hnext' ▸ Job.step_write rfl
  have hagain : (Job.write (Path.spec "./c.ts") leftText next').step settledFiles =
      (.done (.ok second), settledFiles) :=
    hnext' ▸ Job.step_write rfl
  refine ⟨by decide, by decide, first, second, firstEdits, secondEdits, hfirst, hsecond, first', second', hfirst',
    hsecond', ?_, ?_, ?_⟩
  · rw [Settings.run_syncFiles]
    simp only [paths, s, List.map_cons, List.map_nil, runAll, Settings.run_syncFile, hsettle]
    rw [← Job.run_step, hwrite, Job.run, hsettled', Job.run]
    rfl
  · obtain ⟨j₁, j₂, h₁, h₂, h₃⟩ := s.syncFile_looks classFiles "c.ts"
    obtain ⟨k₁, k₂, hk₁, hk₂, hk₃⟩ := s.syncFile_looks classFiles "./c.ts"
    rw [hsettle] at h₃
    rw [hsettle'] at hk₃
    simp [pool, paths, Pool.follow, Pool.step, h₁, h₂, h₃, hk₁, hk₂, hk₃, hwrite, hagain]
  · obtain ⟨j₁, j₂, h₁, h₂, h₃⟩ := s.syncFile_looks settledFiles "c.ts"
    obtain ⟨k₁, k₂, hk₁, hk₂, hk₃⟩ := s.syncFile_looks classFiles "./c.ts"
    have hdone : (Job.done (Except.ok first' : Except SyncError Report)).step settledFiles =
        (.done (.ok first'), settledFiles) := rfl
    rw [hsettled] at h₃
    rw [hsettle'] at hk₃
    simp [pool, paths, Pool.follow, Pool.step, h₁, h₂, h₃, hk₁, hk₂, hk₃, hwrite', hdone]

end Sync

end Unwire
