import Unwire.FileTree

namespace Unwire

namespace Entry

variable {α β : Type} {name other : String} {names : List String} {c d : α}

section Assign

variable {b b' : β} {es : List (String × β)}

theorem lookup_assign_self (name : String) (b : β) (es : List (String × β)) :
    (assign name b es).lookup name = some b := by
  fun_induction assign name b es with
  | case1 => simp
  | case2 => simp
  | case3 other x rest hne ih =>
      have hfalse : (name == other) = false := beq_eq_false_iff_ne.mpr fun he => hne (by simp [he])
      rw [List.lookup_cons, hfalse]
      exact ih

theorem lookup_assign_of_ne (hne : other ≠ name) (b : β) (es : List (String × β)) :
    (assign name b es).lookup other = es.lookup other := by
  fun_induction assign name b es with
  | case1 => simp [hne]
  | case2 other' x rest heq =>
      obtain rfl := eq_of_beq heq
      rw [List.lookup_cons, List.lookup_cons, beq_eq_false_iff_ne.mpr hne]
  | case3 other' x rest _ ih => rw [List.lookup_cons, List.lookup_cons, ih]

theorem assign_assign_self (name : String) (b b' : β) (es : List (String × β)) :
    assign name b' (assign name b es) = assign name b' es := by
  fun_induction assign name b es with
  | case1 => simp [assign]
  | case2 other x rest heq => simp [assign, heq]
  | case3 other x rest hne ih => simp [assign, hne, ih]

theorem assign_comm (hne : name ≠ other) (hname : (es.lookup name).isSome = true)
    (hother : (es.lookup other).isSome = true) :
    assign name b (assign other b' es) = assign other b' (assign name b es) := by
  induction es with
  | nil => simp at hname
  | cons e es ih =>
      obtain ⟨n, x⟩ := e
      by_cases hn : n = name
      · obtain rfl := hn
        have hrest : n ≠ other := hne
        simp [assign, hrest]
      · by_cases ho : n = other
        · obtain rfl := ho
          simp [assign, hn]
        · have hname' : name ≠ n := fun h => hn h.symm
          have hother' : other ≠ n := fun h => ho h.symm
          simp only [List.lookup_cons, beq_eq_false_iff_ne.mpr hname', beq_eq_false_iff_ne.mpr hother'] at hname hother
          simp [assign, hn, ho, ih hname hother]

end Assign

theorem lookup_shapes (name : String) (es : List (String × Entry α)) :
    (shapes es).lookup name = (es.lookup name).map shape := by
  induction es with
  | nil => rfl
  | cons e es ih =>
      obtain ⟨n, x⟩ := e
      rw [shapes, List.lookup_cons, List.lookup_cons, ih]
      cases name == n <;> rfl

theorem find?_shape (names : List String) (e : Entry α) : e.shape.find? names = (e.find? names).map shape := by
  induction names generalizing e with
  | nil => rfl
  | cons name names ih =>
      have hentries : e.shape.entries = shapes e.entries := by
        cases e with
        | file c => rfl
        | directory es =>
            rw [shape]
            rfl
      rw [find?, find?, hentries, lookup_shapes]
      cases e.entries.lookup name with
      | none => rfl
      | some x => exact ih x

theorem shapes_assign {es : List (String × Entry α)} {e e' : Entry α} (hname : es.lookup name = some e)
    (hshape : e'.shape = e.shape) : shapes (assign name e' es) = shapes es := by
  induction es with
  | nil => simp at hname
  | cons x es ih =>
      obtain ⟨n, x⟩ := x
      rw [List.lookup_cons] at hname
      by_cases hn : n = name
      · obtain rfl := hn
        obtain rfl : x = e := by simpa using hname
        simp [assign, shapes, hshape]
      · have hname' : (name == n) = false := beq_eq_false_iff_ne.mpr fun h => hn h.symm
        rw [hname'] at hname
        simp [assign, hn, shapes, ih hname]

def content? (names : List String) (e : Entry α) : Option α :=
  match e.find? names with
  | some (file c) => some c
  | _ => none

theorem content?_eq_some_iff {e : Entry α} : e.content? names = some c ↔ e.find? names = some (.file c) := by
  rw [content?]
  split
  · next d hfound => simp [hfound]
  · next hno =>
      simp only [reduceCtorEq, false_iff]
      exact fun h => hno c h

theorem exists_directory {e : Entry α} (h : e.content? (name :: names) = some c) :
    ∃ es x, e = directory es ∧ es.lookup name = some x ∧ x.content? names = some c := by
  obtain ⟨x, hx, hfound⟩ := Option.bind_eq_some_iff.mp (content?_eq_some_iff.mp h)
  cases e with
  | file d => simp [entries] at hx
  | directory es => exact ⟨es, x, rfl, hx, content?_eq_some_iff.mpr hfound⟩

theorem eq_file {e : Entry α} (h : e.content? [] = some c) : e = file c := by
  simpa [find?] using content?_eq_some_iff.mp h

theorem put_cons {es : List (String × Entry α)} {x : Entry α} (new : Entry α) (hx : es.lookup name = some x) :
    put new (name :: names) (directory es) = directory (assign name (put new names x) es) := by
  simp [put, entries, hx]

theorem content?_cons (name : String) (names : List String) (es : List (String × Entry α)) :
    (directory es).content? (name :: names) = (es.lookup name).bind (content? names) := by
  rw [content?, find?, entries]
  cases es.lookup name <;> rfl

theorem content?_put_self (c : α) (names : List String) (e : Entry α) :
    (put (file c) names e).content? names = some c := by
  induction names generalizing e with
  | nil => rfl
  | cons name names ih =>
      rw [put, content?_cons, lookup_assign_self]
      exact ih _

theorem content?_put_of_ne {e : Entry α} {others : List String} (h : e.content? names = some c) (d : α)
    (hne : others ≠ names) : (put (file d) names e).content? others = e.content? others := by
  induction names generalizing e others with
  | nil =>
      obtain rfl := eq_file h
      cases others with
      | nil => exact absurd rfl hne
      | cons other others => rfl
  | cons name names ih =>
      obtain ⟨es, x, rfl, hx, hc⟩ := exists_directory h
      rw [put_cons _ hx]
      cases others with
      | nil => rfl
      | cons other others =>
          rw [content?_cons, content?_cons]
          by_cases ho : other = name
          · obtain rfl := ho
            rw [lookup_assign_self, hx]
            exact ih hc fun he => hne (by rw [he])
          · rw [lookup_assign_of_ne ho]

theorem shape_put {e : Entry α} (h : e.content? names = some c) (d : α) : (put (file d) names e).shape = e.shape := by
  induction names generalizing e with
  | nil =>
      obtain rfl := eq_file h
      rfl
  | cons name names ih =>
      obtain ⟨es, x, rfl, hx, hc⟩ := exists_directory h
      rw [put_cons _ hx, shape, shape, shapes_assign hx (ih hc)]

/-- Files at two places can be written in either order. -/
theorem put_comm {e : Entry α} {others : List String} {a b : α} (h : e.content? names = some a)
    (h' : e.content? others = some b) (hne : names ≠ others) (c d : α) :
    put (file c) names (put (file d) others e) = put (file d) others (put (file c) names e) := by
  induction names generalizing e others with
  | nil =>
      obtain rfl := eq_file h
      cases others with
      | nil => exact absurd rfl hne
      | cons other others =>
          obtain ⟨_, _, he, _⟩ := exists_directory h'
          cases he
  | cons name names ih =>
      obtain ⟨es, x, rfl, hx, hc⟩ := exists_directory h
      cases others with
      | nil => cases eq_file h'
      | cons other others =>
          rw [content?_cons] at h'
          obtain ⟨y, hy, hc'⟩ := Option.bind_eq_some_iff.mp h'
          rw [put_cons _ hx, put_cons _ hy]
          by_cases ho : name = other
          · obtain rfl := ho
            obtain rfl := Option.some.inj (hx.symm.trans hy)
            rw [put_cons _ (lookup_assign_self ..), put_cons _ (lookup_assign_self ..), assign_assign_self,
              assign_assign_self, ih hc hc' fun he => hne (by rw [he])]
          · have hx' := (lookup_assign_of_ne ho (put (file d) others y) es).trans hx
            have hy' := (lookup_assign_of_ne (Ne.symm ho) (put (file c) names x) es).trans hy
            rw [put_cons _ hx', put_cons _ hy', assign_comm ho (by simp [hx]) (by simp [hy])]

end Entry

namespace FileTree

variable {root root' : FileTree} {path other text : String} {place : List String}

section Shape

variable (hshape : root'.shape = root.shape)
include hshape

theorem find?_map_shape (names : List String) :
    (root'.find? names).map Entry.shape = (root.find? names).map Entry.shape := by
  rw [← Entry.find?_shape, ← Entry.find?_shape, hshape]

/-- Two trees of one shape have the same directories, with the same names in them. -/
theorem find?_cases (names : List String) :
    (∃ es es', root'.find? names = some (.directory es') ∧ root.find? names = some (.directory es) ∧
      Entry.shapes es' = Entry.shapes es) ∨
    (∃ c c', root'.find? names = some (.file c') ∧ root.find? names = some (.file c)) ∨
    root'.find? names = none ∧ root.find? names = none := by
  have h := find?_map_shape hshape names
  cases h' : root'.find? names with
  | none =>
      rw [h'] at h
      exact Or.inr (Or.inr ⟨rfl, by simpa using h.symm⟩)
  | some e' =>
      rw [h', Option.map_some, eq_comm] at h
      obtain ⟨e, he, hee⟩ := Option.map_eq_some_iff.mp h
      cases e with
      | file c =>
          cases e' with
          | file c' => exact Or.inr (Or.inl ⟨c, c', rfl, he⟩)
          | directory es' => simp [Entry.shape] at hee
      | directory es =>
          cases e' with
          | file c' => simp [Entry.shape] at hee
          | directory es' => exact Or.inl ⟨es, es', rfl, he, by simpa [Entry.shape, eq_comm] using hee⟩

theorem resolveFrom_congr (names : List String) : root'.resolveFrom place names = root.resolveFrom place names := by
  induction names generalizing place with
  | nil => rfl
  | cons name names ih =>
      rw [resolveFrom, resolveFrom]
      rcases find?_cases hshape place with ⟨es, es', h', h, hes⟩ | ⟨c, c', h', h⟩ | ⟨h', h⟩
      · have hlookup : (es'.lookup name).isSome = (es.lookup name).isSome := by
          have hmap := congrArg (fun s => (s.lookup name).isSome) hes
          simpa [Entry.lookup_shapes] using hmap
        simp only [h', h, ih, hlookup]
      · rw [h', h]
      · rw [h', h]

theorem resolve_congr (path : String) : root'.resolve path = root.resolve path := by
  rw [resolve, resolve, resolveFrom_congr hshape]

theorem isFile_congr (path : String) : root'.isFile path = root.isFile path := by
  rw [isFile, isFile, get, get, resolve_congr hshape]
  cases root.resolve path with
  | error cause => rfl
  | ok place =>
      simp only [bind, Except.bind]
      rcases find?_cases hshape place with ⟨es, es', h', h, _⟩ | ⟨c, c', h', h⟩ | ⟨h', h⟩ <;> rw [h', h] <;> rfl

theorem listing?_congr (path : String) : root'.listing? path = root.listing? path := by
  rw [listing?, listing?, get, get, resolve_congr hshape]
  cases root.resolve path with
  | error cause => rfl
  | ok place =>
      simp only [bind, Except.bind]
      rcases find?_cases hshape place with ⟨es, es', h', h, hes⟩ | ⟨c, c', h', h⟩ | ⟨h', h⟩ <;> rw [h', h]
      · simp [pure, Except.pure, Entry.shape, hes]
      · rfl

/-- What is read at a path depends on the content of one file. -/
theorem read_congr (hcontent : ∀ place, root.resolve path = .ok place → root'.content? place = root.content? place) :
    root'.read path = root.read path := by
  rw [read, read, get, get, resolve_congr hshape]
  cases hplace : root.resolve path with
  | error cause => rfl
  | ok place =>
      have hsame := hcontent place hplace
      rw [Entry.content?, Entry.content?] at hsame
      simp only [bind, Except.bind]
      rcases find?_cases hshape place with ⟨es, es', h', h, _⟩ | ⟨c, c', h', h⟩ | ⟨h', h⟩ <;> rw [h', h] at hsame ⊢
      · rfl
      · obtain rfl := Option.some.inj hsame
        rfl

end Shape

theorem get_eq_ok_iff {e : Entry Content} :
    root.get path = .ok e ↔ ∃ place, root.resolve path = .ok place ∧ root.find? place = some e := by
  rw [get]
  cases root.resolve path with
  | error cause => simp [bind, Except.bind]
  | ok place =>
      simp only [bind, Except.bind, Except.ok.injEq, exists_eq_left']
      cases root.find? place <;> simp [pure, Except.pure, throw, throwThe, MonadExceptOf.throw]

theorem isFile_iff :
    root.isFile path = true ↔ ∃ place c, root.resolve path = .ok place ∧ root.content? place = some c := by
  have hget : root.isFile path = true ↔ ∃ c, root.get path = .ok (.file c) := by
    rw [isFile]
    split
    · next c h => simp [h]
    · next hno => simpa using hno
  simp only [hget, get_eq_ok_iff, Entry.content?_eq_some_iff]
  exact exists_comm

theorem read_eq_ok_iff :
    root.read path = .ok text ↔ ∃ place, root.resolve path = .ok place ∧ root.content? place = some (.text text) := by
  have hget : root.read path = .ok text ↔ root.get path = .ok (.file (.text text)) := by
    rw [read]
    cases root.get path with
    | error cause => simp [bind, Except.bind]
    | ok e =>
        cases e with
        | file c => cases c <;> simp [bind, Except.bind, pure, Except.pure, throw, throwThe, MonadExceptOf.throw]
        | directory es => simp [bind, Except.bind, throw, throwThe, MonadExceptOf.throw]
  simp only [hget, get_eq_ok_iff, Entry.content?_eq_some_iff]

theorem isFile_of_read (h : root.read path = .ok text) : root.isFile path = true := by
  obtain ⟨place, hplace, hc⟩ := read_eq_ok_iff.mp h
  exact isFile_iff.mpr ⟨place, _, hplace, hc⟩

theorem write_eq {c : Content} (hplace : root.resolve path = .ok place) (hc : root.content? place = some c)
    (d : Content) : root.write path d = .ok (Entry.put (.file d) place root) := by
  have htarget : root.target path = .ok place := by
    rw [target, hplace]
  rw [write, htarget]
  simp only [bind, Except.bind, Entry.content?_eq_some_iff.mp hc]
  rfl

/-- The two paths lead to one place. -/
def SameFile (root : FileTree) (path other : String) : Prop :=
  ∃ place, root.resolve path = .ok place ∧ root.resolve other = .ok place

theorem SameFile.read_eq (h : root.SameFile path other) : root.read path = root.read other := by
  obtain ⟨place, hpath, hother⟩ := h
  rw [read, read, get, get, hpath, hother]

/-- The tree after a text has been written to the file at a path. -/
structure Rewritten (root : FileTree) (path text : String) (root' : FileTree) : Prop where
  shape : root'.shape = root.shape
  self : root'.read path = .ok text
  others : ∀ {place other : List String}, root.resolve path = .ok place → other ≠ place →
    root'.content? other = root.content? other

theorem rewritten_put {c : Content} (hplace : root.resolve path = .ok place) (hc : root.content? place = some c)
    (text : String) : root.Rewritten path text (Entry.put (.file (.text text)) place root) := by
  have hshape := Entry.shape_put hc (.text text)
  refine ⟨hshape, read_eq_ok_iff.mpr ⟨place, ?_, Entry.content?_put_self _ _ _⟩, fun {place' other} hplace' hne => ?_⟩
  · rw [resolve_congr hshape, hplace]
  · obtain rfl := Except.ok.inj (hplace.symm.trans hplace')
    exact Entry.content?_put_of_ne hc _ hne

theorem exists_rewritten (h : root.isFile path = true) (text : String) :
    ∃ root', root.write path (.text text) = .ok root' ∧ root.Rewritten path text root' := by
  obtain ⟨place, c, hplace, hc⟩ := isFile_iff.mp h
  exact ⟨_, write_eq hplace hc _, rewritten_put hplace hc text⟩

theorem Rewritten.read_other (h : root.Rewritten path text root') (hdiff : ¬root.SameFile path other)
    (hpath : root.isFile path = true) : root'.read other = root.read other := by
  obtain ⟨place, c, hplace, _⟩ := isFile_iff.mp hpath
  refine read_congr h.shape fun place' hplace' => h.others hplace fun he => hdiff ?_
  exact ⟨place, hplace, he ▸ hplace'⟩

end FileTree

end Unwire
