import Unwire.Proofs.KeptText
import Unwire.Proofs.ScaffoldNodes

namespace Unwire.Scaffold

open Syntax Removal
open Unwire.Parse (ParseTree)
open Unwire.Syntax.Doc (mark token)
open Unwire.Syntax.SyntaxTree (ofParse ofParse_linked mem_significantChildren)
open Unwire.Text (width width_append)

variable {text gap className name : String} {p : ParseTree} {names stale : List String} {setup offset d e i l : Nat}
  {s : SetupParts}

def isStaleName (t : SyntaxTree) (stale : List String) (i : NodeId) : Bool :=
  (t.node i).kind == .identifier && stale.contains (t.textOf i)

def declaresStale (t : SyntaxTree) (stale : List String) (d : NodeId) : Bool :=
  (declaredNames t d).any stale.contains

def isUsage (t : SyntaxTree) (setup : NodeId) (stale : List String) (i : NodeId) : Bool :=
  isStaleName t stale i && !isDeclaredName t i && !(staleStatements t setup stale).any (t.isWithin i)

def instantiates (t : SyntaxTree) (className : String) (i : NodeId) : Bool :=
  (t.node i).kind == .newExpression && Text.occursIn className.toList (t.textOf i).toList

theorem staleUsages_picked (t : SyntaxTree) (setup : NodeId) (stale : List String) :
    staleUsages t setup stale (staleStatements t setup stale) = t.picked (isUsage t setup stale) setup := rfl

theorem findInstantiation_picked (t : SyntaxTree) (setup : NodeId) (className : String) :
    t.findInstantiation? setup className = (t.picked (instantiates t className) setup).head? :=
  List.head?_filter.symm

theorem isUsage_iff {t : SyntaxTree} (h : t.Linked) (hi : t.Below setup i) :
    isUsage t setup stale i = true ↔ IsStaleUsage t setup stale i := by
  rw [← mem_staleUsages h, staleUsages_picked, SyntaxTree.picked, List.mem_filter, h.mem_descendants]
  exact (and_iff_right hi).symm

theorem picksOnly_isUsage (setup : NodeId) :
    PicksOnly text p (isUsage (ofParse text p) setup stale) (isPickable stale) := by
  intro i lead offset d hd husage
  have hstale := (Bool.and_eq_true_iff.mp (Bool.and_eq_true_iff.mp husage).1).1
  rw [isStaleName, hd.kind, hd.textOf] at hstale
  exact Bool.or_eq_true_iff.mpr (Or.inr hstale)

theorem occursIn_append (part pre post : List Char) : Text.occursIn part (pre ++ (part ++ post)) = true := by
  induction pre with
  | nil =>
      cases part with
      | nil => cases post <;> rfl
      | cons c part => simp [Text.occursIn]
  | cons c pre ih => simp [Text.occursIn, ih]

theorem entries_not_pickable (h : ∀ name ∈ names, name ∉ stale) :
    ∀ d ∈ names.flatMap entry, d.has (isPickable stale) = false := by
  intro d hd
  rcases mem_entries hd with rfl | ⟨name, hname, rfl⟩
  · rfl
  · exact token_not_pickable rfl (h name hname)

theorem entries_leaves (names : List String) : ∀ d ∈ names.flatMap entry, d.parts = [] := by
  intro d hd
  rcases mem_entries hd with rfl | ⟨name, _, rfl⟩ <;> rfl

theorem declaration_declares {lead : Nat} (hd : Shows text p d lead offset (declaration name)) :
    declaresStale (ofParse text p) stale d = stale.contains name := by
  rw [declaresStale, (statement_nodes rfl hd).1]
  simp

section Removed

variable (hs : SetupAt text p gap className names setup offset s)
include hs

theorem builder_mem : s.builder ∈ (ofParse text p).children s.body :=
  (mem_significantChildren.mp (by simp [hs.body_children])).1

theorem below_setup_of_builder (hi : (ofParse text p).Below s.builder i) : (ofParse text p).Below setup i :=
  (SyntaxTree.Below.child (.child .self (List.mem_of_find?_eq_some hs.body)) (builder_mem hs)).trans hi

theorem exists_declaration (hd : d ∈ s.declarations) : ∃ name o, Shows text p d o o (declaration name) := by
  obtain ⟨piece, hpiece, o, hshows⟩ := hs.declarations.exists_shows hd
  obtain ⟨name, _, rfl⟩ := List.mem_map.mp hpiece
  exact ⟨name, o, hshows⟩

theorem body_cases (hd : d ∈ (ofParse text p).significantChildren s.body) :
    d ∈ s.declarations ∧ ((ofParse text p).node d).kind = .variableStatement ∨ d = s.builder ∨
      ∃ other, ((ofParse text p).node d).kind = .other other := by
  rw [hs.body_children, List.mem_cons, List.mem_append, List.mem_cons] at hd
  rcases hd with hd | hd | hd | hd
  · exact Or.inr (Or.inr (hs.body_others d (by simp [hd])))
  · obtain ⟨_, o, hshows⟩ := exists_declaration hs hd
    exact Or.inl ⟨hd, hshows.kind⟩
  · exact Or.inr (Or.inl hd)
  · exact Or.inr (Or.inr (hs.body_others d (by simp [hd])))

theorem entries_subset : ∀ e ∈ s.entries, e ∈ (ofParse text p).children s.members :=
  fun e he => (mem_significantChildren.mp (by simp [hs.members_children, he])).1

theorem arguments_subset : ∀ e ∈ s.arguments, e ∈ (ofParse text p).children s.list :=
  fun e he => (mem_significantChildren.mp (by simp [hs.list_children, he])).1

theorem findInstantiation_eq : (ofParse text p).findInstantiation? setup className = some s.inst := by
  have hp : PicksOnly text p (instantiates (ofParse text p) className) (isPickable []) := by
    intro i lead offset d hd hinst
    have hk := (Bool.and_eq_true_iff.mp hinst).1
    rw [hd.kind] at hk
    simp [isPickable, hk]
  have hdeclarations := hp.picked_row_nil _ hs.declarations
    (Doc.hasAny_eq_false (by simp [declaration_not_pickable]))
  have hentries := hp.picked_row_nil _ hs.entries (Doc.hasAny_eq_false (entries_not_pickable (by simp)))
  have hinst : instantiates (ofParse text p) className s.inst = true := by
    obtain ⟨lead, offset, hinst⟩ := hs.inst
    have hk : ((ofParse text p).node s.inst).kind = .newExpression := hinst.kind
    have hbody : (instantiation gap className names).body =
        "new ".toList ++ (className.toList ++ (argumentList gap names).text) := by
      simp [instantiation, Doc.textAll, mark]
    simp only [instantiates, hk, hinst.textOf, hbody, String.toList_ofList, occursIn_append]
    rfl
  rw [findInstantiation_picked, hs.picked _ [] hp (by simp) (by simp) (by simp), hdeclarations, hentries, hinst]
  rfl

theorem default_not_removed : isRemoved (ofParse text p) setup stale s.default = false := by
  refine Bool.eq_false_iff.mpr fun hremoved => ?_
  rcases (isRemoved_iff (ofParse_linked text p)).mp hremoved with hd | hu
  · exact absurd hd.kind (by simp [hs.default_kind])
  · exact absurd hu.name (by simp [hs.default_kind])

variable (hbuilder : "builder" ∉ stale)
include hbuilder

theorem isStaleStatement_iff :
    IsStaleStatement (ofParse text p) setup stale d ↔
      d ∈ s.declarations ∧ declaresStale (ofParse text p) stale d = true := by
  have hdeclares : declaresStale (ofParse text p) stale d = true ↔
      ∃ name ∈ declaredNames (ofParse text p) d, name ∈ stale := by simp [declaresStale]
  rw [hdeclares]
  constructor
  · rintro ⟨body, hbody, hd, hk, name, hname, hstale⟩
    obtain rfl := Option.some.inj (hs.body.symm.trans hbody)
    rcases body_cases hs hd with ⟨hd, _⟩ | rfl | ⟨other, hother⟩
    · exact ⟨hd, name, hname, hstale⟩
    · rw [hs.builder_name, List.mem_singleton] at hname
      exact absurd (hname ▸ hstale) hbuilder
    · simp [hk] at hother
  · rintro ⟨hd, hname⟩
    obtain ⟨_, o, hshows⟩ := exists_declaration hs hd
    exact ⟨s.body, hs.body, by simp [hs.body_children, hd], hshows.kind, hname⟩

theorem staleStatements_eq :
    staleStatements (ofParse text p) setup stale = s.declarations.filter (declaresStale (ofParse text p) stale) := by
  have h := ofParse_linked text p
  have hsub : s.declarations.Sublist ((ofParse text p).significantChildren s.body) := by
    rw [hs.body_children]
    exact (List.sublist_append_left _ _).cons _
  refine (staleStatements_lt h setup stale).eq_of_mem_iff
    (((h.significantChildren_lt s.body).sublist hsub).filter _) fun d => ?_
  rw [mem_staleStatements, isStaleStatement_iff hs hbuilder, List.mem_filter]

/-- The statement of the builder stays, and all that is in it is in no other statement. -/
theorem not_below_of_isStaleStatement (hd : IsStaleStatement (ofParse text p) setup stale d)
    (hi : (ofParse text p).Below s.builder i) : ¬(ofParse text p).Below d i := by
  intro hdi
  have h := ofParse_linked text p
  have hdsize : d < (ofParse text p).nodes.size := lt_size_of_kind (by simp [hd.kind])
  have hbsize : s.builder < (ofParse text p).nodes.size := lt_size_of_kind (by simp [hs.builder_kind])
  have hne : d ≠ s.builder := by
    rintro rfl
    obtain ⟨_, _, _, _, name, hname, hstale⟩ := hd
    rw [hs.builder_name, List.mem_singleton] at hname
    exact hbuilder (hname ▸ hstale)
  obtain ⟨body, hbody, hdb, _⟩ := hd
  obtain rfl := Option.some.inj (hs.body.symm.trans hbody)
  have hdb := (mem_significantChildren.mp hdb).1
  rcases h.below_or_below hdsize hbsize hdi hi with hb | hb
  · exact hne (h.eq_of_siblings hdb (builder_mem hs) hb).symm
  · exact hne (h.eq_of_siblings (builder_mem hs) hdb hb)

/-- Of the elements of a list of the builder, the stale names are removed and nothing else. -/
theorem isStaleUsage_iff (hl : ((ofParse text p).node l).kind.isList = true) (hb : (ofParse text p).Below s.builder l)
    (he : e ∈ (ofParse text p).children l) :
    IsStaleUsage (ofParse text p) setup stale e ↔ isStaleName (ofParse text p) stale e = true := by
  have hbelow : (ofParse text p).Below s.builder e := .child hb he
  rw [isStaleName, Bool.and_eq_true, beq_iff_eq, List.contains_iff_mem]
  constructor
  · exact fun hu => ⟨hu.name, hu.mem_stale⟩
  · rintro ⟨hk, hstale⟩
    refine ⟨below_setup_of_builder hs hbelow, hk, hstale, ?_,
      fun d hd => not_below_of_isStaleStatement hs hbuilder hd hbelow⟩
    have hdeclarator : ((ofParse text p).node l).kind ≠ .variableDeclarator := by
      intro hkind
      simp [hkind, Kind.isList] at hl
    simp [isDeclaredName, (ofParse_linked text p).parent_of_mem he, hdeclarator]

theorem isRemoved_eq (hl : ((ofParse text p).node l).kind.isList = true) (hb : (ofParse text p).Below s.builder l)
    (he : e ∈ (ofParse text p).children l) :
    isRemoved (ofParse text p) setup stale e = isStaleName (ofParse text p) stale e := by
  have h := ofParse_linked text p
  rw [Bool.eq_iff_iff, isRemoved_iff h, ← isStaleUsage_iff hs hbuilder hl hb he]
  refine or_iff_right fun hd => ?_
  obtain ⟨body, hbody, hdb, _⟩ := hd
  obtain rfl := Option.some.inj (hs.body.symm.trans hbody)
  -- A statement is a child of the body, which is no list.
  have hparent := (h.parent_of_mem (mem_significantChildren.mp hdb).1).symm.trans (h.parent_of_mem he)
  rw [← Option.some.inj hparent, hs.body_kind] at hl
  simp [Kind.isList] at hl

theorem filter_isUsage {elements : List NodeId} (hl : ((ofParse text p).node l).kind.isList = true)
    (hb : (ofParse text p).Below s.builder l) (hsub : ∀ e ∈ elements, e ∈ (ofParse text p).children l) :
    elements.filter (isUsage (ofParse text p) setup stale) =
      elements.filter (isStaleName (ofParse text p) stale) := by
  refine List.filter_congr fun e he => ?_
  have hbelow := below_setup_of_builder hs (.child hb (hsub e he))
  rw [Bool.eq_iff_iff, isUsage_iff (ofParse_linked text p) hbelow, isStaleUsage_iff hs hbuilder hl hb (hsub e he)]

theorem declarations_without_usages :
    s.declarations.flatMap ((ofParse text p).picked (isUsage (ofParse text p) setup stale)) = [] := by
  have h := ofParse_linked text p
  refine List.flatMap_eq_nil_iff.mpr fun d hd => ?_
  obtain ⟨name, o, hshows⟩ := exists_declaration hs hd
  by_cases hname : name ∈ stale
  · -- All that is in the statement goes away with it.
    have hstale : IsStaleStatement (ofParse text p) setup stale d :=
      (isStaleStatement_iff hs hbuilder).mpr ⟨hd, by simp [declaration_declares hshows, hname]⟩
    have hdbody : d ∈ (ofParse text p).significantChildren s.body := by simp [hs.body_children, hd]
    have hdsetup : (ofParse text p).Below setup d :=
      .child (.child .self (List.mem_of_find?_eq_some hs.body)) (mem_significantChildren.mp hdbody).1
    refine List.filter_eq_nil_iff.mpr fun i hi husage => ?_
    have hdi := h.mem_descendants.mp hi
    exact ((isUsage_iff h (hdsetup.trans hdi)).mp husage).outside d hstale hdi
  · exact (picksOnly_isUsage setup).picked_nil _ hshows (declaration_not_pickable hname)

theorem staleUsages_eq (hsetup : "setup" ∉ stale) (hclass : className ∉ stale) :
    staleUsages (ofParse text p) setup stale (staleStatements (ofParse text p) setup stale) =
      s.entries.filter (isStaleName (ofParse text p) stale) ++
        s.arguments.filter (isStaleName (ofParse text p) stale) := by
  have hinst : isUsage (ofParse text p) setup stale s.inst = false := by
    obtain ⟨lead, offset, hinst⟩ := hs.inst
    have hk : ((ofParse text p).node s.inst).kind = .newExpression := hinst.kind
    simp [isUsage, isStaleName, hk]
  have hmembers : ((ofParse text p).node s.members).kind.isList = true := by
    rw [hs.members_kind]
    rfl
  have hlist : ((ofParse text p).node s.list).kind.isList = true := by
    rw [hs.list_kind]
    rfl
  rw [staleUsages_picked, hs.picked _ stale (picksOnly_isUsage setup) hsetup hbuilder hclass,
    declarations_without_usages hs hbuilder, hs.entries.picked_leaves (entries_leaves names),
    hs.arguments.picked_leaves (arguments_leaves gap names), hinst,
    filter_isUsage hs hbuilder hmembers hs.members_below (entries_subset hs),
    filter_isUsage hs hbuilder hlist hs.list_below (arguments_subset hs)]
  rfl

end Removed

def removalEdit (path : String) (t : SyntaxTree) (removed : NodeId → Bool) (i : NodeId) : Edit :=
  let span := listAwareSpan t removed i
  ⟨path, span.start, t.textBetween span.start span.stop⟩

theorem plan_edits (path : String) (t : SyntaxTree) (setup : NodeId) (stale : List String) :
    (plan t setup stale .listAware).map (Edit.ofRemoval path t) =
      (removedNodes t setup stale).map (removalEdit path t (isRemoved t setup stale)) := by
  have hspans := congrArg (List.map fun span => (⟨path, span.start, t.textBetween span.start span.stop⟩ : Edit))
    (plan_spans t setup stale .listAware)
  rw [List.map_map, List.map_map] at hspans
  exact hspans

section Edits

variable {path : String} {removed : NodeId → Bool}

theorem removalEdit_eq {part : List Char}
    (hspan : listAwareSpan (ofParse text p) removed i = ⟨offset, offset + width part⟩)
    (hpart : Holds text.toList offset part) :
    removalEdit path (ofParse text p) removed i = ⟨path, offset, .ofList part⟩ := by
  simp only [removalEdit, hspan, hpart.textBetween]

def nameSegments (gone : String → Bool) (piece : String → List Char) (names : List String) : List Segment :=
  names.map fun name => ⟨gone name, piece name⟩

theorem declarations_edits {ds : List NodeId} (hrow : ShowsRow text p offset (names.map declaration) ds)
    (hspan : ∀ d ∈ ds, listAwareSpan (ofParse text p) removed d = fullSpan (ofParse text p) d) :
    (ds.filter (declaresStale (ofParse text p) stale)).map (removalEdit path (ofParse text p) removed) =
      Segment.edits path offset (nameSegments stale.contains declarationText names) := by
  induction names generalizing offset ds with
  | nil =>
      obtain rfl := hrow.eq_nil
      rfl
  | cons name names ih =>
      obtain ⟨d, ds, rfl, hd, hrow⟩ := hrow.uncons
      obtain ⟨hself, hrest⟩ := List.forall_mem_cons.mp hspan
      rw [fullSpan, hd.fullStart, hd.stop, declaration_text] at hself
      have hpart := hd.holds
      rw [declaration_text] at hpart hrow
      rw [List.filter_cons, declaration_declares hd, nameSegments, List.map_cons, Segment.edits, ← nameSegments,
        ← ih hrow hrest]
      split
      · rw [List.map_cons, removalEdit_eq hself hpart]
      · rfl

theorem shows_pair {lead lead' : Nat} {first second : Doc} {part : List Char}
    (hfirst : Shows text p i lead offset first) (hsecond : Shows text p e lead' (offset + width first.text) second)
    (hpart : part = first.text ++ second.text) :
    Holds text.toList offset part ∧ offset + width part = offset + width first.text + width second.text := by
  rw [hpart, width_append, Nat.add_assoc]
  exact ⟨hfirst.holds.append hsecond.holds, rfl⟩

theorem shows_comma {lead : Nat} (stale : List String) (hc : Shows text p i lead offset (mark "" ",")) :
    isComma (ofParse text p) i = true ∧ isStaleName (ofParse text p) stale i = false := by
  have hk : ((ofParse text p).node i).kind = .comma := hc.kind
  simp [isComma, isStaleName, hk]

theorem shows_name {lead : Nat} {gap kind : String} (stale : List String) (hk : Kind.ofName kind = .identifier)
    (hn : Shows text p i lead offset (token gap kind name)) :
    ((ofParse text p).node i).kind = .identifier ∧ isStaleName (ofParse text p) stale i = stale.contains name := by
  have hkind : ((ofParse text p).node i).kind = .identifier := hn.kind.trans hk
  simp [isStaleName, hkind, hn.textOf]

/-- A run of removed entries does not close its list, since something kept follows. -/
theorem closes_entries {comma last : NodeId} {cs after : List NodeId}
    (hrow : ShowsRow text p offset (names.flatMap entry) cs) (hcomma : isComma (ofParse text p) comma = true)
    (hlast : removed last = false) : closes (ofParse text p) removed (comma :: (cs ++ last :: after)) = false := by
  induction names generalizing offset comma cs with
  | nil =>
      obtain rfl := hrow.eq_nil
      simp [closes, hcomma, hlast]
  | cons name names ih =>
      obtain ⟨e, _, rfl, he, hrow⟩ := hrow.uncons
      obtain ⟨next, cs, rfl, hnext, hrow⟩ := hrow.uncons
      have hrest := ih hrow (shows_comma [] hnext).1
      simp [closes, hcomma, hrest]

theorem entries_edits {last l : NodeId} {before cs after : List NodeId}
    (hrow : ShowsRow text p offset (names.flatMap entry) cs) (hlast : removed last = false)
    (hsplit : (ofParse text p).significantChildren l = before ++ (cs ++ last :: after)) :
    (cs.filter (isStaleName (ofParse text p) stale)).map (removalEdit path (ofParse text p) removed) =
      Segment.edits path offset (nameSegments stale.contains entryText names) := by
  have h := ofParse_linked text p
  induction names generalizing offset before cs with
  | nil =>
      obtain rfl := hrow.eq_nil
      rfl
  | cons name names ih =>
      obtain ⟨e, _, rfl, he, hrow⟩ := hrow.uncons
      obtain ⟨comma, cs, rfl, hcomma, hrow⟩ := hrow.uncons
      obtain ⟨hiscomma, hcommastale⟩ := shows_comma stale hcomma
      have hstale := (shows_name stale rfl he).2
      have hfollowing : (ofParse text p).following e = comma :: (cs ++ last :: after) :=
        (h.sides_of_split (by simpa using hsplit)).2
      have hopen : ¬Closes (ofParse text p) removed e := by
        rintro ⟨_, hcloses⟩
        rw [hfollowing, closes_entries hrow hiscomma hlast] at hcloses
        simp at hcloses
      have htext : entryText name =
          (token "\n    " "shorthand_property_identifier" name).text ++ (mark "" ",").text := by
        simp [mark, entryText]
      obtain ⟨hpart, hwidth⟩ := shows_pair he hcomma htext
      have hself : listAwareSpan (ofParse text p) removed e = ⟨offset, offset + width (entryText name)⟩ := by
        rw [listAwareSpan_of_not_closes hopen, SyntaxTree.next?, hfollowing, List.head?_cons, Option.filter_some,
          if_pos hiscomma, Option.elim_some, he.fullStart, hcomma.stop, hwidth]
      have hrestsplit : (ofParse text p).significantChildren l = (before ++ [e, comma]) ++ (cs ++ last :: after) := by
        simpa using hsplit
      have hrest := ih hrow hrestsplit
      rw [← hwidth] at hrest
      rw [List.filter_cons, hstale, List.filter_cons, hcommastale, nameSegments, List.map_cons, Segment.edits,
        ← nameSegments, ← hrest]
      split
      · rw [if_neg (by simp), List.map_cons, removalEdit_eq hself hpart]
      · rfl

/-- The pieces of an argument list. A comma goes with the name after it where no other names follow than those that go
away, and else with the name before it. -/
def argumentSegments (gone : String → Bool) (lead : List Char) : List String → List Segment
  | [] => []
  | name :: names =>
    if names.all gone then
      ⟨gone name, lead ++ name.toList⟩ :: names.map fun n => ⟨true, (", " ++ n).toList⟩
    else ⟨gone name, lead ++ (name ++ ",").toList⟩ :: argumentSegments gone " ".toList names

section Arguments

variable {closing l : NodeId} {before cs : List NodeId}

theorem closes_arguments (hrow : ShowsRow text p offset (names.flatMap nextArgument) cs)
    (hclosing : isComma (ofParse text p) closing = false)
    (hremoved : ∀ e ∈ cs, removed e = isStaleName (ofParse text p) stale e) :
    closes (ofParse text p) removed (cs ++ [closing]) = names.all stale.contains := by
  induction names generalizing offset cs with
  | nil =>
      obtain rfl := hrow.eq_nil
      simp [closes, hclosing]
  | cons name names ih =>
      obtain ⟨comma, _, rfl, hcomma, hrow⟩ := hrow.uncons
      obtain ⟨e, cs, rfl, he, hrow⟩ := hrow.uncons
      obtain ⟨_, hself, hrest⟩ := List.forall_mem_cons.mp hremoved |>.imp_right List.forall_mem_cons.mp
      obtain ⟨hk, hstale⟩ := shows_name stale rfl he
      have hcloses := ih hrow hrest
      simp [closes, (shows_comma stale hcomma).1, hk, Kind.isClosingBracket, hself, hstale, hcloses]

variable (hl : ((ofParse text p).node l).kind.isList = true) (hclosing : isComma (ofParse text p) closing = false)
include hl hclosing

theorem closes_iff_all (hrow : ShowsRow text p offset (names.flatMap nextArgument) cs)
    (hsplit : (ofParse text p).significantChildren l = before ++ e :: (cs ++ [closing]))
    (hremoved : ∀ e ∈ cs, removed e = isStaleName (ofParse text p) stale e) :
    Closes (ofParse text p) removed e ↔ names.all stale.contains = true := by
  have h := ofParse_linked text p
  have hparent : ((ofParse text p).node e).parent = some l :=
    h.parent_of_mem (mem_significantChildren.mp (by simp [hsplit])).1
  rw [Closes, (h.sides_of_split hsplit).2, closes_arguments hrow hclosing hremoved]
  exact and_iff_right (by simp [isListElement, hparent, hl])

/-- Stale arguments that nothing kept follows go away with the commas before them. -/
theorem lastArguments_edits (path : String) (hrow : ShowsRow text p offset (names.flatMap nextArgument) cs)
    (hsplit : (ofParse text p).significantChildren l = before ++ (cs ++ [closing]))
    (hremoved : ∀ e ∈ cs, removed e = isStaleName (ofParse text p) stale e) (hall : names.all stale.contains = true) :
    (cs.filter (isStaleName (ofParse text p) stale)).map (removalEdit path (ofParse text p) removed) =
      Segment.edits path offset (names.map fun name => ⟨true, (", " ++ name).toList⟩) := by
  have h := ofParse_linked text p
  induction names generalizing offset before cs with
  | nil =>
      obtain rfl := hrow.eq_nil
      rfl
  | cons name names ih =>
      obtain ⟨comma, _, rfl, hcomma, hrow⟩ := hrow.uncons
      obtain ⟨e, cs, rfl, he, hrow⟩ := hrow.uncons
      obtain ⟨_, hself, hrest⟩ := List.forall_mem_cons.mp hremoved |>.imp_right List.forall_mem_cons.mp
      obtain ⟨hname, hall⟩ := Bool.and_eq_true_iff.mp hall
      obtain ⟨hiscomma, hcommastale⟩ := shows_comma stale hcomma
      have hstale := (shows_name stale rfl he).2
      have hesplit : (ofParse text p).significantChildren l = (before ++ [comma]) ++ e :: (cs ++ [closing]) := by
        simpa using hsplit
      have hcloses := (closes_iff_all hl hclosing hrow hesplit hrest).mpr hall
      have htext : (", " ++ name).toList = (mark "" ",").text ++ (token " " "identifier" name).text := by
        simp [mark]
      obtain ⟨hpart, hwidth⟩ := shows_pair hcomma he htext
      have hspan : listAwareSpan (ofParse text p) removed e = ⟨offset, offset + width (", " ++ name).toList⟩ := by
        rw [listAwareSpan_of_closes hcloses, SyntaxTree.previous?, (h.sides_of_split hesplit).1, List.getLast?_concat,
          Option.filter_some, if_pos hiscomma, Option.elim_some, hcomma.start, he.stop, hwidth]
        rfl
      have hrestsplit : (ofParse text p).significantChildren l = (before ++ [comma, e]) ++ (cs ++ [closing]) := by
        simpa using hsplit
      have hmore := ih hrow hrestsplit hrest hall
      rw [← hwidth] at hmore
      rw [List.filter_cons, hcommastale, if_neg (by simp), List.filter_cons, hstale, if_pos hname, List.map_cons,
        removalEdit_eq hspan hpart, hmore, List.map_cons, Segment.edits, if_pos rfl]

theorem argument_edits_of_all
    (hrow : ShowsRow text p offset (token gap "identifier" name :: names.flatMap nextArgument) cs)
    (hsplit : (ofParse text p).significantChildren l = before ++ (cs ++ [closing]))
    (hremoved : ∀ e ∈ cs, removed e = isStaleName (ofParse text p) stale e) (hall : names.all stale.contains = true)
    (hbefore : ∀ comma, before.getLast? = some comma → isComma (ofParse text p) comma = true →
      stale.contains name = false) :
    (cs.filter (isStaleName (ofParse text p) stale)).map (removalEdit path (ofParse text p) removed) =
      Segment.edits path offset (argumentSegments stale.contains gap.toList (name :: names)) := by
  have h := ofParse_linked text p
  obtain ⟨e, cs, rfl, he, hrow⟩ := hrow.uncons
  obtain ⟨_, hrest⟩ := List.forall_mem_cons.mp hremoved
  have hesplit : (ofParse text p).significantChildren l = before ++ e :: (cs ++ [closing]) := hsplit
  have hrestsplit : (ofParse text p).significantChildren l = (before ++ [e]) ++ (cs ++ [closing]) := by
    simpa using hsplit
  have hmore := lastArguments_edits hl hclosing path hrow hrestsplit hrest hall
  rw [Doc.token_text] at hmore
  rw [argumentSegments, if_pos hall, Segment.edits, ← hmore, List.filter_cons, (shows_name stale rfl he).2]
  by_cases hname : stale.contains name = true
  · have hcloses := (closes_iff_all hl hclosing hrow hesplit hrest).mpr hall
    have hnocomma : ((ofParse text p).previous? e).filter (isComma (ofParse text p)) = none := by
      rw [SyntaxTree.previous?, (h.sides_of_split hesplit).1]
      refine Option.filter_eq_none_iff.mpr fun comma hlast hcomma => ?_
      exact Bool.false_ne_true ((hbefore comma hlast hcomma).symm.trans hname)
    have hspan : listAwareSpan (ofParse text p) removed e = ⟨offset, offset + width (gap.toList ++ name.toList)⟩ := by
      rw [listAwareSpan_of_closes hcloses, hnocomma, Option.elim_none, he.fullStart, he.stop, Doc.token_text]
    have hpart := he.holds
    rw [Doc.token_text] at hpart
    rw [if_pos hname, if_pos hname, List.map_cons, removalEdit_eq hspan hpart]
  · rw [if_neg hname, if_neg hname]

/-- The stale arguments of a list go away with a comma each, so that those that are left have one between each two. -/
theorem argument_edits
    (hrow : ShowsRow text p offset (token gap "identifier" name :: names.flatMap nextArgument) cs)
    (hsplit : (ofParse text p).significantChildren l = before ++ (cs ++ [closing]))
    (hremoved : ∀ e ∈ cs, removed e = isStaleName (ofParse text p) stale e)
    (hbefore : ∀ comma, before.getLast? = some comma → isComma (ofParse text p) comma = true →
      (name :: names).all stale.contains = false) :
    (cs.filter (isStaleName (ofParse text p) stale)).map (removalEdit path (ofParse text p) removed) =
      Segment.edits path offset (argumentSegments stale.contains gap.toList (name :: names)) := by
  have h := ofParse_linked text p
  induction names generalizing offset before cs gap name with
  | nil => exact argument_edits_of_all hl hclosing hrow hsplit hremoved rfl (by simpa using hbefore)
  | cons next names ih =>
      by_cases hall : (next :: names).all stale.contains = true
      · refine argument_edits_of_all hl hclosing hrow hsplit hremoved hall fun comma hlast hcomma => ?_
        have hnot := hbefore comma hlast hcomma
        rw [List.all_cons, hall, Bool.and_true] at hnot
        exact hnot
      · obtain ⟨e, _, rfl, he, hrow⟩ := hrow.uncons
        have hargument := hrow
        obtain ⟨comma, cs, rfl, hcomma, hrow⟩ := hrow.uncons
        obtain ⟨_, hafter⟩ := List.forall_mem_cons.mp hremoved
        obtain ⟨_, hrest⟩ := List.forall_mem_cons.mp hafter
        obtain ⟨hiscomma, hcommastale⟩ := shows_comma stale hcomma
        have hesplit : (ofParse text p).significantChildren l = before ++ e :: (comma :: cs ++ [closing]) := hsplit
        have hrestsplit : (ofParse text p).significantChildren l = (before ++ [e, comma]) ++ (cs ++ [closing]) := by
          simpa using hsplit
        have htext : gap.toList ++ (name ++ ",").toList = (token gap "identifier" name).text ++ (mark "" ",").text := by
          simp [mark]
        obtain ⟨hpart, hwidth⟩ := shows_pair he hcomma htext
        -- The next name follows a comma, but it is not in a run of stale names up to the end.
        have hmore := ih hrow hrestsplit hrest fun _ _ _ => Bool.eq_false_iff.mpr hall
        rw [← hwidth] at hmore
        rw [argumentSegments, if_neg hall, Segment.edits, ← hmore, List.filter_cons, (shows_name stale rfl he).2,
          List.filter_cons, hcommastale]
        by_cases hname : stale.contains name = true
        · have hopen : ¬Closes (ofParse text p) removed e :=
            fun hcloses => hall ((closes_iff_all hl hclosing hargument hesplit hafter).mp hcloses)
          have hspan : listAwareSpan (ofParse text p) removed e =
              ⟨offset, offset + width (gap.toList ++ (name ++ ",").toList)⟩ := by
            rw [listAwareSpan_of_not_closes hopen, SyntaxTree.next?, (h.sides_of_split hesplit).2, List.cons_append,
              List.head?_cons, Option.filter_some, if_pos hiscomma, Option.elim_some, he.fullStart, hcomma.stop, hwidth]
          rw [if_pos hname, if_pos hname, List.map_cons, removalEdit_eq hspan hpart]
          rfl
        · rw [if_neg hname, if_neg hname]
          rfl

end Arguments

end Edits

section Setup

variable (hs : SetupAt text p gap className names setup offset s)
include hs

theorem declaration_span (removed : NodeId → Bool) (hd : d ∈ s.declarations) :
    listAwareSpan (ofParse text p) removed d = fullSpan (ofParse text p) d := by
  have h := ofParse_linked text p
  have hmem : d ∈ (ofParse text p).significantChildren s.body := by simp [hs.body_children, hd]
  have hparent := h.parent_of_mem (mem_significantChildren.mp hmem).1
  have hopen : ¬Closes (ofParse text p) removed d := by
    rintro ⟨hlist, _⟩
    simp [isListElement, hparent, hs.body_kind, Kind.isList] at hlist
  have hnocomma : ((ofParse text p).next? d).filter (isComma (ofParse text p)) = none := by
    refine Option.filter_eq_none_iff.mpr fun c hc hcomma => ?_
    have hk : ((ofParse text p).node c).kind = .comma := by simpa [isComma] using hcomma
    have hcmem := h.mem_of_next hparent (mem_significantChildren.mp hmem).2 hc
    rcases body_cases hs hcmem with ⟨_, hstatement⟩ | rfl | ⟨other, hother⟩
    · simp [hk] at hstatement
    · exact absurd hs.builder_kind (by simp [hk])
    · simp [hk] at hother
  rw [listAwareSpan_of_not_closes hopen, hnocomma]
  rfl

theorem setup_edits (path : String) (hsetup : "setup" ∉ stale) (hbuilder : "builder" ∉ stale)
    (hclass : className ∉ stale) :
    (plan (ofParse text p) setup stale .listAware).map (Edit.ofRemoval path (ofParse text p)) =
      Segment.edits path (offset + width openingText)
        (nameSegments stale.contains declarationText names) ++
      (Segment.edits path (offset + width openingText + width (names.flatMap declarationText) + width builderText)
        (nameSegments stale.contains entryText names) ++
      Segment.edits path (offset + width openingText + width (names.flatMap declarationText) + width builderText +
        width (names.flatMap entryText) + width (methodsText className))
        (argumentSegments stale.contains gap.toList names)) := by
  have hlist : ((ofParse text p).node s.list).kind.isList = true := by
    rw [hs.list_kind]
    rfl
  have hmembers : (ofParse text p).significantChildren s.members =
      [s.membersOpening] ++ (s.entries ++ s.default :: s.membersRest) := hs.members_children
  have hchildren : (ofParse text p).significantChildren s.list =
      [s.listOpening] ++ (s.arguments ++ [s.listClosing]) := hs.list_children
  rw [plan_edits, removedNodes, staleUsages_eq hs hbuilder hsetup hclass, staleStatements_eq hs hbuilder,
    List.map_append, List.map_append]
  congr 2
  · exact declarations_edits hs.declarations fun d hd => declaration_span hs _ hd
  · exact entries_edits hs.entries (default_not_removed hs) hmembers
  · have harguments := hs.arguments
    cases names with
    | nil =>
        rw [harguments.eq_nil]
        rfl
    | cons name names =>
        refine argument_edits hlist (by simp [isComma, hs.listClosing_kind]) harguments hchildren
          (fun e he => isRemoved_eq hs hbuilder hlist hs.list_below (arguments_subset hs e he)) ?_
        intro comma hlast hcomma
        obtain rfl : s.listOpening = comma := by simpa using hlast
        simp [isComma, hs.listOpening_kind] at hcomma

end Setup

end Unwire.Scaffold
