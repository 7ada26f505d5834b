import Unwire.Proofs.ConstructorArguments
import Unwire.Proofs.ScaffoldRemovals

namespace Unwire.Scaffold

open Syntax
open Unwire.Parse (ParseTree)
open Unwire.Syntax.SyntaxTree (ofParse rootSpot)
open Unwire.Text (width width_append)

variable {stem gap className : String} {names stale kept : List String}

section Pieces

variable {gone : String → Bool}

theorem argumentSegments_text (gone : String → Bool) (lead : List Char) (name : String) (names : List String) :
    Segment.textAll (argumentSegments gone lead (name :: names)) = lead ++ argumentsText (name :: names) := by
  induction names generalizing lead name with
  | nil => simp [argumentSegments, Segment.textAll, argumentsText_singleton]
  | cons next names ih =>
      by_cases hall : (next :: names).all gone = true
      · rw [argumentSegments, if_pos hall, argumentsText_cons, Segment.textAll, List.flatMap_cons, List.flatMap_map,
          List.append_assoc]
      · have hrest := ih " ".toList next
        rw [Segment.textAll] at hrest
        rw [argumentSegments, if_neg hall, Segment.textAll, List.flatMap_cons, hrest, argumentsText_cons_cons,
          String.toList_append, List.append_assoc, List.append_assoc]
        rfl

theorem argumentSegments_kept_of_all (lead : List Char) (name : String) (hall : names.all gone = true) :
    Segment.kept (argumentSegments gone lead (name :: names)) = if gone name then [] else lead ++ name.toList := by
  rw [argumentSegments, if_pos hall]
  cases gone name <;> simp [Segment.kept]

/-- What is left of an argument list. The blank before the second name stays if the first one goes away. -/
theorem argumentSegments_kept (lead : List Char) (name : String) (hsome : (name :: names).all gone = false) :
    Segment.kept (argumentSegments gone lead (name :: names)) =
      (if gone name then " ".toList else lead) ++ argumentsText ((name :: names).filter (!gone ·)) := by
  induction names generalizing lead name with
  | nil =>
      have hname : gone name = false := by simpa using hsome
      rw [argumentSegments_kept_of_all lead name rfl, hname]
      simp [hname, argumentsText_singleton]
  | cons next names ih =>
      cases hall : (next :: names).all gone with
      | true =>
          have hname : gone name = false := by simpa [List.all_cons, hall] using hsome
          have hnone : (next :: names).filter (!gone ·) = [] := by simpa using hall
          rw [argumentSegments_kept_of_all lead name hall, List.filter_cons, hnone, hname]
          simp [argumentsText_singleton]
      | false =>
          have hrest := ih " ".toList next hall
          rw [ite_self] at hrest
          obtain ⟨first, others, hothers⟩ : ∃ first others, (next :: names).filter (!gone ·) = first :: others := by
            obtain ⟨n, hn, hstays⟩ := List.all_eq_false.mp hall
            exact List.exists_cons_of_ne_nil (List.ne_nil_of_mem (List.mem_filter.mpr ⟨hn, by simpa using hstays⟩))
          have hkept : Segment.kept (argumentSegments gone lead (name :: next :: names)) =
              (if gone name then [] else lead ++ (name ++ ",").toList) ++
                Segment.kept (argumentSegments gone " ".toList (next :: names)) := by
            rw [argumentSegments, hall]
            cases gone name <;> simp [Segment.kept]
          rw [hkept, hrest, hothers, List.filter_cons, hothers]
          cases hname : gone name with
          | true => simp
          | false => simp [argumentsText_cons_cons]

theorem argumentSegments_left (gone : String → Bool) (names : List String) :
    Segment.kept (argumentSegments gone [] names) =
      (if !(names.filter (!gone ·)).isEmpty && names.head?.any gone then " " else "").toList ++
        argumentsText (names.filter (!gone ·)) := by
  cases names with
  | nil => rfl
  | cons name names =>
      cases hall : (name :: names).all gone with
      | true =>
          have hnone : (name :: names).filter (!gone ·) = [] := by simpa using hall
          obtain ⟨hname, hrest⟩ := Bool.and_eq_true_iff.mp hall
          rw [argumentSegments_kept_of_all [] name hrest, hnone, hname]
          rfl
      | false =>
          obtain ⟨n, hn, hstays⟩ := List.all_eq_false.mp hall
          have hsome : ((name :: names).filter (!gone ·)).isEmpty = false :=
            List.isEmpty_eq_false_iff.mpr (List.ne_nil_of_mem (List.mem_filter.mpr ⟨hn, by simpa using hstays⟩))
          rw [argumentSegments_kept [] name hall, hsome]
          cases hname : gone name <;> simp [hname]

theorem argumentSegments_ne_nil {lead : List Char} (hnames : ∀ name ∈ names, name ≠ "") :
    ∀ s ∈ argumentSegments gone lead names, s.text ≠ [] := by
  induction names generalizing lead with
  | nil => simp [argumentSegments]
  | cons name names ih =>
      obtain ⟨hname, hrest⟩ := List.forall_mem_cons.mp hnames
      rw [argumentSegments]
      split
      · simp [hname]
      · refine List.forall_mem_cons.mpr ⟨by simp, ih hrest⟩

/-- The forms in which an argument can go away: alone, or with one of the commas next to it. -/
def argumentForms (name : String) : List String := [name, ", " ++ name, name ++ ",", " " ++ name ++ ","]

theorem argumentSegments_forms {lead : List Char}
    (hlead : lead = [] ∨ lead = " ".toList ∧ names.all gone = false) :
    List.Forall₂ (fun s name => String.ofList s.text ∈ argumentForms name)
      ((argumentSegments gone lead names).filter (·.gone)) (names.filter gone) := by
  induction names generalizing lead with
  | nil => exact List.Forall₂.nil
  | cons name names ih =>
      rw [argumentSegments]
      cases hall : names.all gone with
      | true =>
          have hrest : List.Forall₂ (fun (s : Segment) name => String.ofList s.text ∈ argumentForms name)
              (names.map fun n => ⟨true, (", " ++ n).toList⟩) names := by
            rw [List.forall₂_map_left_iff, List.forall₂_same]
            intro n _
            rw [String.ofList_toList]
            exact List.mem_cons_of_mem _ List.mem_cons_self
          have hnames : names.filter gone = names := by simpa using hall
          have hgone : (names.map fun n => (⟨true, (", " ++ n).toList⟩ : Segment)).filter (·.gone) =
              names.map fun n => ⟨true, (", " ++ n).toList⟩ := by simp
          rw [if_pos rfl, List.filter_cons, List.filter_cons, hnames, hgone]
          split
          · next hname =>
              have hnil : lead = [] := by
                refine hlead.resolve_right fun hlead => ?_
                rw [List.all_cons, hall, Bool.and_true] at hlead
                exact Bool.false_ne_true (hlead.2.symm.trans hname)
              refine List.Forall₂.cons ?_ hrest
              rw [hnil, List.nil_append, String.ofList_toList]
              exact List.mem_cons_self
          · exact hrest
      | false =>
          have hrest := ih (Or.inr ⟨rfl, hall⟩)
          rw [if_neg Bool.false_ne_true, List.filter_cons, List.filter_cons]
          split
          · refine List.Forall₂.cons ?_ hrest
            rcases hlead with rfl | ⟨rfl, _⟩
            · rw [List.nil_append, String.ofList_toList]
              exact List.mem_cons_of_mem _ (List.mem_cons_of_mem _ List.mem_cons_self)
            · rw [← String.toList_append, String.ofList_toList, ← String.append_assoc]
              exact List.mem_cons_of_mem _ (List.mem_cons_of_mem _ (List.mem_cons_of_mem _ List.mem_cons_self))
          · exact hrest

theorem nameSegments_text (gone : String → Bool) (piece : String → List Char) (names : List String) :
    Segment.textAll (nameSegments gone piece names) = names.flatMap piece := by
  simp [Segment.textAll, nameSegments, List.flatMap_map]

theorem nameSegments_kept (gone : String → Bool) (piece : String → List Char) (names : List String) :
    Segment.kept (nameSegments gone piece names) = (names.filter (!gone ·)).flatMap piece := by
  simp [Segment.kept, nameSegments, List.filter_map, List.flatMap_map, Function.comp_def]

theorem nameSegments_edits (path : String) (offset : Nat) (gone : String → Bool) (piece : String → List Char)
    (names : List String) :
    (Segment.edits path offset (nameSegments gone piece names)).map (·.text) =
      (names.filter gone).map fun name => .ofList (piece name) := by
  rw [Segment.edits_text, nameSegments, List.filter_map, List.map_map]
  rfl

theorem argumentSegments_edits (path : String) (offset : Nat) (gone : String → Bool) (names : List String) :
    List.Forall₂ (fun e name => e.text ∈ argumentForms name)
      (Segment.edits path offset (argumentSegments gone [] names)) (names.filter gone) := by
  have hforms := argumentSegments_forms (Or.inl rfl : [] = [] ∨ [] = " ".toList ∧ names.all gone = false)
  have htexts : List.Forall₂ (fun text name => text ∈ argumentForms name)
      (((argumentSegments gone [] names).filter (·.gone)).map fun s => .ofList s.text) (names.filter gone) :=
    List.forall₂_map_left_iff.mpr hforms
  rw [← Segment.edits_text, List.forall₂_map_left_iff] at htexts
  exact htexts

/-- The spec file, cut where names may go away. -/
def specSegments (stem className : String) (gone : String → Bool) (names : List String) : List Segment :=
  ⟨false, (specHeader stem className).toList ++ openingText⟩ :: (nameSegments gone declarationText names ++
    ⟨false, builderText⟩ :: (nameSegments gone entryText names ++
      ⟨false, methodsText className⟩ :: (argumentSegments gone [] names ++ [⟨false, closingText ++ ['\n']⟩])))

theorem specSegments_text (stem className : String) (gone : String → Bool) (names : List String) :
    Segment.textAll (specSegments stem className gone names) = (specFor stem className names).toList := by
  have harguments : Segment.textAll (argumentSegments gone [] names) = argumentsText names := by
    cases names with
    | nil => rfl
    | cons name names => exact argumentSegments_text gone [] name names
  have hdeclarations := nameSegments_text gone declarationText names
  have hentries := nameSegments_text gone entryText names
  rw [Segment.textAll] at harguments hdeclarations hentries
  rw [specFor_text, setupFunction_text_empty, specSegments, Segment.textAll]
  simp only [List.flatMap_cons, List.flatMap_append, List.flatMap_nil, harguments, hdeclarations, hentries,
    List.append_assoc, List.append_nil]

theorem specSegments_kept (stem className : String) (gone : String → Bool) (names : List String) :
    Segment.kept (specSegments stem className gone names) =
      (specHeader stem className).toList ++ (openingText ++ ((names.filter (!gone ·)).flatMap declarationText ++
        (builderText ++ ((names.filter (!gone ·)).flatMap entryText ++ (methodsText className ++
          (Segment.kept (argumentSegments gone [] names) ++ (closingText ++ ['\n']))))))) := by
  rw [← nameSegments_kept, ← nameSegments_kept]
  simp [Segment.kept, specSegments]

theorem specSegments_edits (path stem className : String) (gone : String → Bool) (names : List String) :
    Segment.edits path 0 (specSegments stem className gone names) =
      Segment.edits path (width (specHeader stem className).toList + width openingText)
        (nameSegments gone declarationText names) ++
      (Segment.edits path (width (specHeader stem className).toList + width openingText +
          width (names.flatMap declarationText) + width builderText) (nameSegments gone entryText names) ++
        Segment.edits path (width (specHeader stem className).toList + width openingText +
          width (names.flatMap declarationText) + width builderText + width (names.flatMap entryText) +
            width (methodsText className)) (argumentSegments gone [] names)) := by
  simp only [specSegments, Segment.edits, Segment.edits_append, nameSegments_text, width_append, Nat.zero_add,
    Bool.false_eq_true, if_false, List.append_nil]

theorem length_specEdits (path stem className : String) (gone : String → Bool) (names : List String) :
    (Segment.edits path 0 (specSegments stem className gone names)).length = 3 * (names.filter gone).length := by
  have hdeclarations (offset : Nat) := congrArg List.length (nameSegments_edits path offset gone declarationText names)
  have hentries (offset : Nat) := congrArg List.length (nameSegments_edits path offset gone entryText names)
  have harguments (offset : Nat) := (argumentSegments_edits path offset gone names).length_eq
  simp only [List.length_map] at hdeclarations hentries
  rw [specSegments_edits, List.length_append, List.length_append, hdeclarations, hentries, harguments]
  omega

end Pieces

/-- A spec file that has blanks before the first argument of its class. -/
def specChars (gap stem className : String) (names : List String) : List Char :=
  (specHeader stem className).toList ++ ((setupFunction gap className names).text ++ ['\n'])

/-- The tree of the spec file of a scaffold: an import, the tests, and the setup function. -/
def IsSpecTree (gap stem className : String) (names : List String) (p : ParseTree) : Prop :=
  ∃ imports tests start stop,
    p.root = .node "program" none start stop [imports, tests,
      (setupFunction gap className names).place (width (specHeader stem className).toList)] ∧
    imports.kind = "import_statement" ∧ tests.kind = "expression_statement" ∧
    tests.stop ≤ width (specHeader stem className).toList

def specTree (gap stem className : String) (names : List String) : ParseTree where
  root := .node "program" none 0 (width (specChars gap stem className names)) [
    (importing stem className).place 0,
    (tests className).place (width (importing stem className).text),
    (setupFunction gap className names).place (width (specHeader stem className).toList)]
  faulty := false

theorem specTree_isSpecTree (gap stem className : String) (names : List String) :
    IsSpecTree gap stem className names (specTree gap stem className names) := by
  refine ⟨_, _, _, _, rfl, Doc.place_kind _ _, Doc.place_kind _ _, ?_⟩
  rw [Doc.place_stop, specHeader_text, width_append, width_append]
  omega

theorem setupFunction_plain (gap className : String) (names : List String) :
    (setupFunction gap className names).has Doc.isComment = false := by
  have hdeclarations : Doc.hasAny Doc.isComment (names.map declaration) = false := by
    refine Doc.hasAny_eq_false fun d hd => ?_
    obtain ⟨name, _, rfl⟩ := List.mem_map.mp hd
    rfl
  have hentries : Doc.hasAny Doc.isComment (names.flatMap entry) = false := by
    refine Doc.hasAny_eq_false fun d hd => ?_
    rcases mem_entries hd with rfl | ⟨name, _, rfl⟩ <;> rfl
  have harguments : Doc.hasAny Doc.isComment (arguments gap names) = false := by
    refine Doc.hasAny_eq_false fun d hd => ?_
    rcases mem_arguments hd with rfl | ⟨gap, name, rfl⟩ <;> rfl
  simp only [setupFunction, setupBody, builder, statement, members, method, returning, instantiation, argumentList,
    Doc.node_has, Doc.labelled_has, Doc.node_parts, Doc.hasAny, Doc.hasAny_append, hdeclarations, hentries,
    harguments]
  rfl

section Root

variable {text : String} {p : ParseTree}

theorem root_nodes {imports tests : Parse.Tree} {start stop offset : Nat} {d : Doc}
    (hroot : p.root = .node "program" none start stop [imports, tests, d.place offset])
    (himports : imports.kind = "import_statement") (htests : tests.kind = "expression_statement")
    (hstop : tests.stop ≤ offset) (holds : Holds text.toList offset d.text) (hplain : d.has Doc.isComment = false) :
    ∃ first second third lead, (ofParse text p).children SyntaxTree.root = [first, second, third] ∧
      ((ofParse text p).node first).kind = .other "import_statement" ∧
      ((ofParse text p).node second).kind = .other "expression_statement" ∧ Shows text p third lead offset d := by
  have hspot := (rootSpot p).mem_all_self
  have hchildren : (ofParse text p).children SyntaxTree.root = (rootSpot p).children.map Spot.id :=
    SyntaxTree.ofParse_children hspot
  have hall : ∀ c ∈ (rootSpot p).children, c ∈ (rootSpot p).all := fun c hc => Spot.child_mem_all hspot hc
  have htree : (rootSpot p).tree = p.root := rfl
  have himportstrivia : (Kind.ofName imports.kind).isTrivia = false := by
    rw [himports]
    rfl
  have hteststrivia : (Kind.ofName tests.kind).isTrivia = false := by
    rw [htests]
    rfl
  simp only [Spot.children, htree, hroot, Parse.Tree.children, Spot.row, himportstrivia, hteststrivia,
    Bool.false_eq_true, if_false, List.map_cons, List.map_nil, List.forall_mem_cons] at hchildren hall
  obtain ⟨hfirst, hsecond, hthird, _⟩ := hall
  refine ⟨_, _, _, _, hchildren, ?_, ?_, ⟨_, hthird, rfl, rfl, rfl⟩, hstop, holds, hplain⟩
  · rw [SyntaxTree.ofParse_node hfirst, Spot.node, himports]
    rfl
  · rw [SyntaxTree.ofParse_node hsecond, Spot.node, htests]
    rfl

theorem findSetup_third {t : SyntaxTree} {first second third : NodeId} {kind kind' : String}
    (hchildren : t.children SyntaxTree.root = [first, second, third]) (hfirst : (t.node first).kind = .other kind)
    (hsecond : (t.node second).kind = .other kind') (hthird : (t.node third).kind = .functionDeclaration)
    (hfunction : t.setupFunction? "setup" third = some ⟨third, "setup"⟩) :
    t.findSetup? "setup" = some ⟨third, "setup"⟩ := by
  have hdeclarations : t.declarations = [first, second, third] := by
    simp [SyntaxTree.declarations, SyntaxTree.significantChildren, hchildren, SyntaxTree.isTrivia, hfirst, hsecond,
      hthird, Kind.isTrivia]
  have hother {i : NodeId} {name : String} (hi : (t.node i).kind = .other name) :
      t.setupFunction? "setup" i = none := by
    simp [SyntaxTree.setupFunction?, hi]
  simp [SyntaxTree.findSetup?, hdeclarations, hother hfirst, hother hsecond, hfunction]

theorem exists_setup (htext : text.toList = specChars gap stem className names)
    (hp : IsSpecTree gap stem className names p) :
    ∃ setup s, (ofParse text p).findSetup? "setup" = some ⟨setup, "setup"⟩ ∧
      SetupAt text p gap className names setup (width (specHeader stem className).toList) s := by
  obtain ⟨imports, tests, start, stop, hroot, himports, htests, hstop⟩ := hp
  have holds : Holds text.toList (width (specHeader stem className).toList)
      (setupFunction gap className names).text := by
    rw [htext, specChars]
    exact ⟨(specHeader stem className).toList, ['\n'], by simp, rfl⟩
  obtain ⟨first, second, third, lead, hchildren, hfirst, hsecond, hthird⟩ :=
    root_nodes hroot himports htests hstop holds (setupFunction_plain gap className names)
  obtain ⟨s, hs⟩ := exists_setupAt hthird
  exact ⟨third, s, findSetup_third hchildren hfirst hsecond hthird.kind hs.function, hs⟩

end Root

theorem specSegments_ne_nil (stem className : String) (gone : String → Bool) (hnames : ∀ name ∈ names, name ≠ "") :
    ∀ s ∈ specSegments stem className gone names, s.gone = true → s.text ≠ [] := by
  intro s hs hgone
  rw [specSegments] at hs
  simp only [List.mem_cons, List.mem_append, List.not_mem_nil, or_false] at hs
  rcases hs with rfl | hs | rfl | hs | rfl | hs | rfl
  · simp at hgone
  · obtain ⟨name, _, rfl⟩ := List.mem_map.mp hs
    simp [declarationText]
  · simp at hgone
  · obtain ⟨name, _, rfl⟩ := List.mem_map.mp hs
    simp [entryText]
  · simp at hgone
  · exact argumentSegments_ne_nil hnames s hs
  · simp at hgone

theorem filter_contains_of_sublist (hkept : kept.Sublist names) (hnodup : names.Nodup) :
    names.filter kept.contains = kept := by
  induction hkept with
  | slnil => rfl
  | @cons kept names name hkept ih =>
      obtain ⟨hname, hnodup⟩ := List.nodup_cons.mp hnodup
      have hout : name ∉ kept := fun hmem => hname (hkept.subset hmem)
      rw [List.filter_cons, if_neg (by simpa using hout), ih hnodup]
  | @cons_cons kept names name hkept ih =>
      obtain ⟨hname, hnodup⟩ := List.nodup_cons.mp hnodup
      have hrest : names.filter (name :: kept).contains = names.filter kept.contains := by
        refine List.filter_congr fun n hn => ?_
        have hne : n ≠ name := fun he => hname (he ▸ hn)
        simp [hne]
      rw [List.filter_cons, if_pos (by simp), hrest, ih hnodup]

def specBefore (stem className : String) (names : List String) : String :=
  .ofList ((specHeader stem className).toList ++ (openingText ++ (names.flatMap declarationText ++ (builderText ++
    (names.flatMap entryText ++
      "\n    default() \x7b\n      return builder;\n    \x7d,\n    build() \x7b\n      return ".toList)))))

def specAfter : String := .ofList (closingText ++ ['\n'])

theorem spec_text (stem className : String) (names : List String) (arguments : String) :
    (specBefore stem className names ++ "new " ++ className ++ "(" ++ arguments ++ specAfter).toList =
      (specHeader stem className).toList ++ (openingText ++ (names.flatMap declarationText ++ (builderText ++
        (names.flatMap entryText ++ (methodsText className ++ (arguments.toList ++ (closingText ++ ['\n']))))))) := by
  have hmethods : methodsText className =
      "\n    default() \x7b\n      return builder;\n    \x7d,\n    build() \x7b\n      return ".toList ++
        ("new ".toList ++ (className.toList ++ "(".toList)) := by
    have hnew : "\n    default() \x7b\n      return builder;\n    \x7d,\n    build() \x7b\n      return new ".toList =
        "\n    default() \x7b\n      return builder;\n    \x7d,\n    build() \x7b\n      return ".toList ++
          "new ".toList := by decide
    rw [methodsText, String.toList_append, String.toList_append, hnew, List.append_assoc, List.append_assoc]
  simp only [specBefore, specAfter, hmethods, String.toList_append, String.toList_ofList, List.append_assoc]

section

variable {desired : List Dependency} (hkept : kept.Sublist names) (hnodup : names.Nodup)
  (hdesired : desired.map (·.name) = kept)

include hdesired in
theorem staleNames_contains {name : String} (hname : name ∈ names) :
    (staleNames names desired).contains name = !kept.contains name := by
  rw [Bool.eq_iff_iff, List.contains_iff_mem, mem_staleNames]
  simp [← hdesired, hname]

include hdesired in
theorem filter_stale : names.filter (staleNames names desired).contains = names.filter (!kept.contains ·) :=
  List.filter_congr fun _ hname => staleNames_contains hdesired hname

include hkept hnodup hdesired

theorem filter_not_stale : names.filter (!(staleNames names desired).contains ·) = kept := by
  refine Eq.trans (List.filter_congr fun name hname => ?_) (filter_contains_of_sublist hkept hnodup)
  rw [staleNames_contains hdesired hname, Bool.not_not]

theorem applyEdits_spec (stem className path : String) (hnames : ∀ name ∈ names, name ≠ "") :
    applyEdits (specFor stem className names)
      (Segment.edits path 0 (specSegments stem className (staleNames names desired).contains names)) =
      .ok (specBefore stem className kept ++ "new " ++ className ++ "(" ++
        ((if !kept.isEmpty && names.head?.any (!kept.contains ·) then " " else "") ++ ", ".intercalate kept) ++
        specAfter) := by
  have hhead : names.head?.any (staleNames names desired).contains = names.head?.any (!kept.contains ·) := by
    cases names with
    | nil => rfl
    | cons name names => exact staleNames_contains hdesired List.mem_cons_self
  have hleft : Segment.kept (specSegments stem className (staleNames names desired).contains names) =
      (specBefore stem className kept ++ "new " ++ className ++ "(" ++
        ((if !kept.isEmpty && names.head?.any (!kept.contains ·) then " " else "") ++ ", ".intercalate kept) ++
        specAfter).toList := by
    rw [specSegments_kept, argumentSegments_left, filter_not_stale hkept hnodup hdesired, hhead, spec_text,
      String.toList_append, argumentsText]
  have hpos := specSegments_ne_nil stem className (staleNames names desired).contains hnames
  rw [← String.ofList_toList (s := specFor stem className names), ← specSegments_text stem className,
    Segment.applyEdits_edits hpos, hleft, String.ofList_toList]

end

theorem exists_plan (reader : Reader) (path : String) (desired : List Dependency) {text : String}
    (htext : text.toList = specChars gap stem className names)
    (hread : IsSpecTree gap stem className names (reader (.ofPath path) text)) :
    ∃ setup s plan, UpdatePlan.make reader path text desired className {} = .ok plan ∧
      SetupAt text (reader (.ofPath path) text) gap className names setup (width (specHeader stem className).toList) s ∧
      plan.unwired = unwiredDependencies names desired ∧
      plan.edits =
        (Removal.plan (ofParse text (reader (.ofPath path) text)) setup (staleNames names desired) .listAware).map
          (Edit.ofRemoval path (ofParse text (reader (.ofPath path) text))) := by
  obtain ⟨setup, s, hsetup, hs⟩ := exists_setup htext hread
  refine ⟨setup, s, _, UpdatePlan.ofTree_eq_ok_iff.mpr ⟨_, _, hsetup, findInstantiation_eq hs, rfl⟩, hs, ?_, ?_⟩
  · rw [UpdatePlan.ofWiring, SyntaxTree.read, hs.wired]
  · rw [UpdatePlan.ofWiring, SyntaxTree.read, hs.wired]

theorem make_plan (reader : Reader) (path : String) (desired : List Dependency)
    (hread : IsSpecTree "" stem className names (reader (.ofPath path) (specFor stem className names)))
    (hnames : ∀ name ∈ names, name ∉ ["", "setup", "builder", className]) :
    ∃ plan, UpdatePlan.make reader path (specFor stem className names) desired className {} = .ok plan ∧
      plan.unwired = unwiredDependencies names desired ∧
      plan.edits = Segment.edits path 0 (specSegments stem className (staleNames names desired).contains names) := by
  obtain ⟨setup, s, plan, hmake, hs, hunwired, hedits⟩ :=
    exists_plan reader path desired (specFor_text stem className names) hread
  have hstale : ∀ name ∈ ["", "setup", "builder", className], name ∉ staleNames names desired :=
    fun name hname hmem => hnames name (mem_staleNames.mp hmem).1 hname
  refine ⟨plan, hmake, hunwired, ?_⟩
  rw [hedits, specSegments_edits]
  exact setup_edits hs path (hstale "setup" (by simp)) (hstale "builder" (by simp)) (hstale className (by simp))

/-- An update of a spec file that takes away names gives the spec file of the names that are left, up to a blank before
the first argument. Three edits go with a name that is taken away: one for its declaration, one for its entry and one
for its argument. -/
theorem update_rerenders (reader : Reader) (path stem className : String) (names kept : List String)
    (desired : List Dependency)
    (hread : IsSpecTree "" stem className names (reader (.ofPath path) (specFor stem className names)))
    (hnames : ∀ name ∈ names, name ∉ ["", "setup", "builder", className]) (hnodup : names.Nodup)
    (hkept : kept.Sublist names) (hdesired : desired.map (·.name) = kept) :
    ∃ plan declarations entries arguments,
      UpdatePlan.make reader path (specFor stem className names) desired className {} = .ok plan ∧
      plan.edits = declarations ++ (entries ++ arguments) ∧
      declarations.map (·.text) = (names.filter (!kept.contains ·)).map (fun n => "\n  let " ++ parameter n ++ ";") ∧
      entries.map (·.text) = (names.filter (!kept.contains ·)).map (fun n => "\n    " ++ n ++ ",") ∧
      List.Forall₂ (fun e n => e.text ∈ argumentForms n) arguments (names.filter (!kept.contains ·)) ∧
      plan.edits.length = 3 * (names.filter (!kept.contains ·)).length ∧
      specFor stem className kept =
        specBefore stem className kept ++ "new " ++ className ++ "(" ++ ", ".intercalate kept ++ specAfter ∧
      applyEdits (specFor stem className names) plan.edits =
        .ok (specBefore stem className kept ++ "new " ++ className ++ "(" ++
          ((if !kept.isEmpty && names.head?.any (!kept.contains ·) then " " else "") ++ ", ".intercalate kept) ++
          specAfter) := by
  obtain ⟨plan, hmake, _, hedits⟩ := make_plan reader path desired hread hnames
  have happly := applyEdits_spec hkept hnodup hdesired stem className path fun name hname he =>
    hnames name hname (by simp [he])
  rw [← hedits] at happly
  rw [specSegments_edits] at hedits
  obtain ⟨declarations, entries, arguments, hparts, hdeclarations, hentries, harguments⟩ :
      ∃ declarations entries arguments, plan.edits = declarations ++ (entries ++ arguments) ∧
        declarations.map (·.text) = (names.filter (!kept.contains ·)).map (fun n => "\n  let " ++ parameter n ++ ";") ∧
        entries.map (·.text) = (names.filter (!kept.contains ·)).map (fun n => "\n    " ++ n ++ ",") ∧
        List.Forall₂ (fun e n => e.text ∈ argumentForms n) arguments (names.filter (!kept.contains ·)) := by
    refine ⟨_, _, _, hedits, ?_, ?_, ?_⟩
    · rw [nameSegments_edits, filter_stale hdesired]
      exact List.map_congr_left fun n _ => String.ofList_toList
    · rw [nameSegments_edits, filter_stale hdesired]
      exact List.map_congr_left fun n _ => String.ofList_toList
    · rw [← filter_stale hdesired]
      exact argumentSegments_edits path _ _ names
  refine ⟨plan, declarations, entries, arguments, hmake, hparts, hdeclarations, hentries, harguments, ?_, ?_, happly⟩
  · have hdlength := congrArg List.length hdeclarations
    have helength := congrArg List.length hentries
    have halength := harguments.length_eq
    rw [List.length_map, List.length_map] at hdlength helength
    rw [hparts, List.length_append, List.length_append]
    omega
  · rw [← String.toList_inj, spec_text, specFor_text, setupFunction_text_empty, argumentsText]
    simp only [List.append_assoc]

theorem four_names_rerender :
    let names := ["a", "b", "c", "d"]
    let reader : Reader := fun _ _ => specTree "" "f" "F" names
    IsSpecTree "" "f" "F" names (reader (.ofPath "f.spec.ts") (specFor "f" "F" names)) ∧
      (∀ name ∈ names, name ∉ ["", "setup", "builder", "F"]) ∧ names.Nodup ∧ ["b"].Sublist names ∧
      ∃ plan, UpdatePlan.make reader "f.spec.ts" (specFor "f" "F" names) [⟨"b", none⟩] "F" {} = .ok plan ∧
        plan.edits.length = 9 ∧
        applyEdits (specFor "f" "F" names) plan.edits =
          .ok (specBefore "f" "F" ["b"] ++ "new " ++ "F" ++ "(" ++ " b" ++ specAfter) := by
  intro names reader
  have hread : IsSpecTree "" "f" "F" names (reader (.ofPath "f.spec.ts") (specFor "f" "F" names)) :=
    specTree_isSpecTree "" "f" "F" names
  have hnames : ∀ name ∈ names, name ∉ ["", "setup", "builder", "F"] := by decide
  have hnodup : names.Nodup := by decide
  have hkept : ["b"].Sublist names := by decide
  obtain ⟨plan, _, _, _, hmake, _, _, _, _, hlength, _, happly⟩ :=
    update_rerenders reader "f.spec.ts" "f" "F" names ["b"] [⟨"b", none⟩] hread hnames hnodup hkept rfl
  exact ⟨hread, hnames, hnodup, hkept, plan, hmake, hlength, happly⟩

end Unwire.Scaffold
