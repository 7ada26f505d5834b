import Mathlib.Data.List.Induction
import Unwire.CommandLine

namespace Unwire.CommandLine

inductive Item where
  | className (name : String)
  | setupPrefix (start : String) (nonempty : start ≠ "")
  | legacySeparators
  | dryRun
  | json
  | path (text : String) (plain : text.toList.head? ≠ some '-')
  deriving DecidableEq

namespace Item

def words : Item → List String
  | className name => ["--class", name]
  | setupPrefix start _ => ["--setup-prefix", start]
  | legacySeparators => ["--legacy-separators"]
  | dryRun => ["--dry-run"]
  | json => ["--json"]
  | path text _ => [text]

def className? : Item → Option String
  | className name => some name
  | _ => none

def setupPrefix? : Item → Option String
  | setupPrefix start _ => some start
  | _ => none

def path? : Item → Option String
  | path text _ => some text
  | _ => none

def addTo (a : SyncArgs) : Item → SyncArgs
  | className name => { a with className := some name }
  | setupPrefix start _ => { a with config := { a.config with setupPrefix := start } }
  | legacySeparators => { a with config := { a.config with separators := .nextChar } }
  | dryRun => { a with dryRun := true }
  | json => { a with json := true }
  | path text _ => { a with paths := a.paths ++ [text] }

end Item

variable {items others : List Item} {args rest tail : List String} {a : SyncArgs}

def words (items : List Item) : List String := items.flatMap Item.words

def paths (items : List Item) : List String := items.filterMap Item.path?

def classNames (items : List Item) : List String := items.filterMap Item.className?

def setupPrefixes (items : List Item) : List String := items.filterMap Item.setupPrefix?

/-- What a sequence of items asks for: all paths, the last class name and prefix, and the flags that are there. -/
def argsOf (items : List Item) : SyncArgs where
  paths := paths items
  className := (classNames items).getLast?
  config :=
    { setupPrefix := (setupPrefixes items).getLastD "setup"
      separators := if .legacySeparators ∈ items then .nextChar else .listAware }
  dryRun := decide (.dryRun ∈ items)
  json := decide (.json ∈ items)

theorem argsOf_concat (items : List Item) (item : Item) : argsOf (items ++ [item]) = item.addTo (argsOf items) := by
  have hconcat (f : Item → Option String) :
      (items ++ [item]).filterMap f = items.filterMap f ++ (f item).toList := by
    rw [List.filterMap_append, List.filterMap_cons, List.filterMap_nil]
    cases f item <;> rfl
  rw [argsOf, argsOf, paths, classNames, setupPrefixes, hconcat, hconcat, hconcat]
  cases item <;> simp [Item.addTo, Item.path?, Item.className?, Item.setupPrefix?, paths, classNames, setupPrefixes]

theorem foldl_addTo (items : List Item) : items.foldl Item.addTo {} = argsOf items := by
  -- From the end, since the last class name and the last prefix count.
  induction items using List.reverseRecOn with
  | nil => rfl
  | append_singleton items item ih => rw [List.foldl_append, List.foldl_cons, List.foldl_nil, ih, argsOf_concat]

theorem isPrefixOf_dash (arg : String) : ['-'].isPrefixOf arg.toList = true ↔ arg.toList.head? = some '-' := by
  rw [ List.isPrefixOf_iff_prefix]
  cases arg.toList with
  | nil => simp
  | cons c cs => rw [List.cons_prefix_cons, List.head?_cons, Option.some.injEq]; simp [eq_comm]

theorem parseFrom_cons {arg : String} (hclass : arg ≠ "--class") (hstart : arg ≠ "--setup-prefix") (a : SyncArgs)
    (rest : List String) : parseFrom a (arg :: rest) =
      if arg = "--legacy-separators" then parseFrom (Item.legacySeparators.addTo a) rest
      else if arg = "--dry-run" then parseFrom (Item.dryRun.addTo a) rest
      else if arg = "--json" then parseFrom (Item.json.addTo a) rest
      else if arg = "--help" then .ok (.help, rest)
      else if arg = "--version" then .ok (.version, rest)
      else if h : arg.toList.head? = some '-' then .error (.unknownFlag arg)
      else parseFrom ((Item.path arg h).addTo a) rest := by
  rw [parseFrom.eq_def]
  simp only [beq_iff_eq, hclass, hstart, if_false, isPrefixOf_dash, Item.addTo]
  rfl

theorem parseFrom_words_cons (a : SyncArgs) (item : Item) (rest : List String) :
    parseFrom a (item.words ++ rest) = parseFrom (item.addTo a) rest := by
  cases item with
  | className name => rfl
  | setupPrefix start nonempty => simp [Item.words, Item.addTo, parseFrom, nonempty]
  | legacySeparators | dryRun | json =>
      rw [Item.words, List.singleton_append, parseFrom_cons (by decide) (by decide)]
      simp
  | path text plain =>
      have hflag (flag : String) (hflag : flag.toList.head? = some '-') : text ≠ flag := by
        rintro rfl
        exact plain hflag
      rw [Item.words, List.singleton_append, parseFrom_cons (hflag _ rfl) (hflag _ rfl), if_neg (hflag _ rfl),
        if_neg (hflag _ rfl), if_neg (hflag _ rfl), if_neg (hflag _ rfl), if_neg (hflag _ rfl), dif_neg plain]

theorem parseFrom_words (a : SyncArgs) (items : List Item) (rest : List String) :
    parseFrom a (words items ++ rest) = parseFrom (items.foldl Item.addTo a) rest := by
  induction items generalizing a with
  | nil => rfl
  | cons item items ih =>
      rw [words, List.flatMap_cons, List.append_assoc, parseFrom_words_cons, ← words, ih, List.foldl_cons]

theorem parse_words (items : List Item) (rest : List String) :
    parse (words items ++ rest) = parseFrom (argsOf items) rest := by
  rw [parse, parseFrom_words, foldl_addTo]

def flags : List String :=
  ["--class", "--setup-prefix", "--legacy-separators", "--dry-run", "--json", "--help", "--version"]

inductive Refused : List String → Prop
  | noName : Refused ["--class"]
  | noPrefix : Refused ["--setup-prefix"]
  | emptyPrefix (others : List String) : Refused ("--setup-prefix" :: "" :: others)
  | unknown (arg : String) (others : List String) (dash : arg.toList.head? = some '-') (other : arg ∉ flags) :
      Refused (arg :: others)

theorem exists_error_of_refused (h : Refused tail) (a : SyncArgs) : ∃ e, parseFrom a tail = .error e := by
  cases h with
  | noName => exact ⟨_, rfl⟩
  | noPrefix => exact ⟨_, rfl⟩
  | emptyPrefix rest => exact ⟨.setupPrefixMissing, by simp [parseFrom]⟩
  | unknown arg rest dash other =>
      simp only [flags, List.mem_cons, List.not_mem_nil, not_or, or_false] at other
      refine ⟨.unknownFlag arg, ?_⟩
      rw [parseFrom_cons other.1 other.2.1]
      simp [other, dash]

/-- What comes after the items at the front of any arguments. -/
inductive Ends : List String → Prop
  | done : Ends []
  | help (rest : List String) : Ends ("--help" :: rest)
  | version (rest : List String) : Ends ("--version" :: rest)
  | refused {tail : List String} (bad : Refused tail) : Ends tail

theorem exists_items (a : SyncArgs) (args : List String) : ∃ items tail, args = words items ++ tail ∧ Ends tail := by
  have hcons {rest : List String} (item : Item) (h : ∃ items tail, rest = words items ++ tail ∧ Ends tail) :
      ∃ items tail, item.words ++ rest = words items ++ tail ∧ Ends tail := by
    obtain ⟨items, tail, rfl, htail⟩ := h
    exact ⟨item :: items, tail, by simp [words], htail⟩
  -- What has been read before plays no part; it is there for the induction along the reading.
  fun_induction parseFrom a args with
  | case1 => exact ⟨[], [], rfl, .done⟩
  | case2 a arg h =>
      rw [eq_of_beq h]
      exact ⟨[], _, rfl, .refused .noName⟩
  | case3 a arg h name rest ih =>
      rw [eq_of_beq h]
      exact hcons (.className name) ih
  | case4 a arg _ h =>
      rw [eq_of_beq h]
      exact ⟨[], _, rfl, .refused .noPrefix⟩
  | case5 a arg _ h start rest hempty =>
      rw [eq_of_beq h, String.isEmpty_iff.mp hempty]
      exact ⟨[], _, rfl, .refused (.emptyPrefix rest)⟩
  | case6 a arg _ h start rest hempty ih =>
      rw [eq_of_beq h]
      exact hcons (.setupPrefix start (mt String.isEmpty_iff.mpr hempty)) ih
  | case7 a arg rest _ _ h ih =>
      rw [eq_of_beq h]
      exact hcons .legacySeparators ih
  | case8 a arg rest _ _ _ h ih =>
      rw [eq_of_beq h]
      exact hcons .dryRun ih
  | case9 a arg rest _ _ _ _ h ih =>
      rw [eq_of_beq h]
      exact hcons .json ih
  | case10 a arg rest _ _ _ _ _ h =>
      rw [eq_of_beq h]
      exact ⟨[], _, rfl, .help rest⟩
  | case11 a arg rest _ _ _ _ _ _ h =>
      rw [eq_of_beq h]
      exact ⟨[], _, rfl, .version rest⟩
  | case12 a arg rest _ _ _ _ _ _ _ h =>
      refine ⟨[], _, rfl, .refused (.unknown arg rest ((isPrefixOf_dash arg).mp h) ?_)⟩
      simp_all [flags]
  | case13 a arg rest _ _ _ _ _ _ _ h ih => exact hcons (.path arg (mt (isPrefixOf_dash arg).mpr h)) ih

/-- Items that ask for a synchronisation: with a path, and only one beside the name of a class. -/
structure Complete (items : List Item) : Prop where
  path : paths items ≠ []
  single : classNames items ≠ [] → (paths items).length = 1

theorem complete_iff : Complete items ↔ ¬(argsOf items).paths.isEmpty = true ∧
    ¬((argsOf items).className.isSome && decide (1 < (argsOf items).paths.length)) = true := by
  rw [Bool.and_eq_true, decide_eq_true_eq, argsOf, List.getLast?_isSome, List.isEmpty_iff]
  constructor
  · rintro ⟨hpath, hsingle⟩
    exact ⟨hpath, fun ⟨hclass, hlt⟩ => Nat.ne_of_gt hlt (hsingle hclass)⟩
  · rintro ⟨hpath, hmany⟩
    refine ⟨hpath, fun hclass => ?_⟩
    have hpos : 0 < (paths items).length := List.length_pos_iff.mpr hpath
    have hle : ¬1 < (paths items).length := not_and.mp hmany hclass
    omega

theorem finish_of_complete (h : Complete items) : finish (argsOf items) = .ok (argsOf items) := by
  obtain ⟨hpath, hmany⟩ := complete_iff.mp h
  rw [finish, if_neg hpath, if_neg hmany]

theorem exists_error_of_not_complete (h : ¬Complete items) : ∃ e, finish (argsOf items) = .error e := by
  rw [finish]
  split
  · exact ⟨_, rfl⟩
  · next hpath =>
      split
      · exact ⟨_, rfl⟩
      · next hmany => exact absurd (complete_iff.mpr ⟨hpath, hmany⟩) h

inductive Reads : List String → Except UsageError (Invocation × List String) → Prop
  | help (items : List Item) (rest : List String) : Reads (words items ++ "--help" :: rest) (.ok (.help, rest))
  | version (items : List Item) (rest : List String) : Reads (words items ++ "--version" :: rest) (.ok (.version, rest))
  | sync (items : List Item) (complete : Complete items) : Reads (words items) (.ok (.sync (argsOf items), []))
  | incomplete (items : List Item) (missing : ¬Complete items) (e : UsageError) : Reads (words items) (.error e)
  | refused (items : List Item) {tail : List String} (bad : Refused tail) (e : UsageError) :
      Reads (words items ++ tail) (.error e)

theorem parse_items (items : List Item) : parse (words items) = (finish (argsOf items)).map fun a => (.sync a, []) := by
  have h := parse_words items []
  rw [List.append_nil] at h
  exact h

theorem parse_help (items : List Item) (rest : List String) :
    parse (words items ++ "--help" :: rest) = .ok (.help, rest) := by
  rw [parse_words, parseFrom_cons (by decide) (by decide)]
  simp

theorem parse_version (items : List Item) (rest : List String) :
    parse (words items ++ "--version" :: rest) = .ok (.version, rest) := by
  rw [parse_words, parseFrom_cons (by decide) (by decide)]
  simp

theorem parse_of_complete (h : Complete items) : parse (words items) = .ok (.sync (argsOf items), []) := by
  rw [parse_items, finish_of_complete h]
  rfl

theorem reads_parse (args : List String) : Reads args (parse args) := by
  obtain ⟨items, tail, rfl, hends⟩ := exists_items {} args
  cases hends with
  | done =>
      rw [List.append_nil]
      by_cases hcomplete : Complete items
      · rw [parse_of_complete hcomplete]
        exact .sync items hcomplete
      · obtain ⟨e, he⟩ := exists_error_of_not_complete hcomplete
        rw [parse_items, he]
        exact .incomplete items hcomplete e
  | help rest =>
      rw [parse_help]
      exact .help items rest
  | version rest =>
      rw [parse_version]
      exact .version items rest
  | refused bad =>
      obtain ⟨e, he⟩ := exists_error_of_refused bad (argsOf items)
      rw [parse_words, he]
      exact .refused items bad e

theorem argsOf_perm (h : items.Perm others) (hpaths : paths items = paths others)
    (hclass : classNames items = classNames others) (hstart : setupPrefixes items = setupPrefixes others) :
    argsOf items = argsOf others := by
  simp only [argsOf, hpaths, hclass, hstart, h.mem_iff]

/-- Arguments are accepted exactly where they are items, either up to a request for help or the version, or all of them
and complete. The order of items counts only among paths, among class names and among prefixes. -/
theorem arguments_accepted_iff (args : List String) :
    (∀ rest, parse args = .ok (.help, rest) ↔ ∃ items, args = words items ++ "--help" :: rest) ∧
    (∀ rest, parse args = .ok (.version, rest) ↔ ∃ items, args = words items ++ "--version" :: rest) ∧
    (∀ a rest, parse args = .ok (.sync a, rest) ↔
      rest = [] ∧ ∃ items, args = words items ∧ Complete items ∧ a = argsOf items) ∧
    ((∀ items rest, args ≠ words items ++ "--help" :: rest ∧ args ≠ words items ++ "--version" :: rest) →
      (∀ items, Complete items → args ≠ words items) → ∃ e, parse args = .error e) ∧
    ∀ items others : List Item, items.Perm others → paths items = paths others → classNames items = classNames others →
      setupPrefixes items = setupPrefixes others → parse (words items) = parse (words others) := by
  have hreads := reads_parse args
  refine ⟨fun rest => ⟨fun h => ?_, ?_⟩, fun rest => ⟨fun h => ?_, ?_⟩, fun a rest => ⟨fun h => ?_, ?_⟩,
    fun hasks hcomplete => ?_, fun items others hperm hpaths hclass hstart => ?_⟩
  · rw [h] at hreads
    cases hreads with
    | help items => exact ⟨items, rfl⟩
  · rintro ⟨items, rfl⟩
    exact parse_help items rest
  · rw [h] at hreads
    cases hreads with
    | version items => exact ⟨items, rfl⟩
  · rintro ⟨items, rfl⟩
    exact parse_version items rest
  · rw [h] at hreads
    cases hreads with
    | sync items complete => exact ⟨rfl, items, rfl, complete, rfl⟩
  · rintro ⟨rfl, items, rfl, complete, rfl⟩
    exact parse_of_complete complete
  · cases hresult : parse args with
    | error e => exact ⟨e, rfl⟩
    | ok result =>
        rw [hresult] at hreads
        cases hreads with
        | help items rest => exact absurd rfl (hasks items rest).1
        | version items rest => exact absurd rfl (hasks items rest).2
        | sync items complete => exact absurd rfl (hcomplete items complete)
  · rw [parse_items, parse_items, argsOf_perm hperm hpaths hclass hstart]

/-- A flag as the name of a class, and a request for help as the prefix. -/
theorem flag_read_as_name :
    parse ["--class", "--json", "a.ts", "--setup-prefix", "--help"] =
      .ok (.sync { paths := ["a.ts"], className := some "--json", config := { setupPrefix := "--help" } }, []) ∧
    parse ["--setup-prefix", "--help", "a.ts", "--class", "--json"] =
      parse ["--class", "--json", "a.ts", "--setup-prefix", "--help"] := by
  let items : List Item := [.className "--json", .path "a.ts" (by decide), .setupPrefix "--help" (by decide)]
  let others : List Item := [.setupPrefix "--help" (by decide), .path "a.ts" (by decide), .className "--json"]
  have hperm : others.Perm items := by decide
  obtain ⟨-, -, hsync, -, horder⟩ := arguments_accepted_iff (words items)
  refine ⟨(hsync _ _).mpr ⟨rfl, items, rfl, ⟨?_, ?_⟩, rfl⟩, horder others items hperm rfl rfl rfl⟩
  · simp [items, paths, Item.path?]
  · intro _
    rfl

end Unwire.CommandLine
