import Unwire.Proofs.ScaffoldSyntax
import Unwire.Proofs.SetupBounds

namespace Unwire.Scaffold

open Syntax
open Unwire.Parse (ParseTree)
open Unwire.Syntax.Doc (mark node token)
open Unwire.Syntax.SyntaxTree (ofParse ofParse_linked)
open Unwire.Text (width width_append)

/-- An instantiation, or a mention of a stale name. -/
def isPickable (stale : List String) (d : Doc) : Bool :=
  Kind.ofName d.kind == .newExpression || Kind.ofName d.kind == .identifier && stale.contains (.ofList d.body)

variable {text gap className name : String} {p : ParseTree} {i lead offset : Nat} {names stale : List String}
  {pred : NodeId → Bool}

section Pieces

theorem labelled_has_pickable (d : Doc) (field : String) :
    (d.labelled field).has (isPickable stale) = d.has (isPickable stale) := by
  rw [Doc.has_eq, Doc.has_eq]
  rfl

theorem token_not_pickable {gap kind : String} (hk : Kind.ofName kind = .identifier) (hname : name ∉ stale) :
    (token gap kind name).has (isPickable stale) = false := by
  simp [isPickable, hk, hname]

theorem name_not_pickable (gap : String) (hname : name ∉ stale) :
    (token gap "identifier" name).has (isPickable stale) = false :=
  token_not_pickable rfl hname

theorem labelledName_not_pickable (gap field : String) (hname : name ∉ stale) :
    ((token gap "identifier" name).labelled field).has (isPickable stale) = false :=
  (labelled_has_pickable _ field).trans (name_not_pickable gap hname)

theorem returning_not_pickable (gap : String) {value : Doc} (hvalue : value.has (isPickable stale) = false) :
    (returning gap value).has (isPickable stale) = false := by
  rw [returning, Doc.node_has, Doc.hasAny, Doc.hasAny, hvalue]
  rfl

theorem mem_entries {d : Doc} (hd : d ∈ names.flatMap entry) :
    d = mark "" "," ∨ ∃ name ∈ names, d = token "\n    " "shorthand_property_identifier" name := by
  obtain ⟨name, hname, hd⟩ := List.mem_flatMap.mp hd
  rcases List.mem_pair.mp hd with rfl | rfl
  · exact Or.inr ⟨name, hname, rfl⟩
  · exact Or.inl rfl

theorem mem_arguments {d : Doc} (hd : d ∈ arguments gap names) :
    d = mark "" "," ∨ ∃ gap name, d = token gap "identifier" name := by
  cases names with
  | nil => simp [arguments] at hd
  | cons n ns =>
      rcases List.mem_cons.mp hd with rfl | hd
      · exact Or.inr ⟨_, _, rfl⟩
      · obtain ⟨m, _, hd⟩ := List.mem_flatMap.mp hd
        rcases List.mem_pair.mp hd with rfl | rfl
        · exact Or.inl rfl
        · exact Or.inr ⟨_, _, rfl⟩

theorem arguments_leaves (gap : String) (names : List String) : ∀ d ∈ arguments gap names, d.parts = [] := by
  intro d hd
  rcases mem_arguments hd with rfl | ⟨gap, name, rfl⟩ <;> rfl

theorem declaration_not_pickable (hname : name ∉ stale) : (declaration name).has (isPickable stale) = false := by
  have htitle := name_not_pickable "" hname
  simp only [declaration, statement, Doc.node_has, Doc.hasAny, labelled_has_pickable, htitle]
  rfl

/-- Nothing below an instantiation is picked but what is below its arguments. -/
theorem instantiation_list (hs : Shows text p i lead offset (instantiation gap className names)) :
    ∃ list ∈ (ofParse text p).children i, ∃ o, o = offset + width (" new " ++ className).toList ∧
      Shows text p list o o (argumentList gap names) ∧
      ∀ pred stale, PicksOnly text p pred (isPickable stale) → className ∉ stale →
        (ofParse text p).picked pred i = (if pred i then [i] else []) ++ (ofParse text p).picked pred list := by
  obtain ⟨keyword, rest, hchildren, hkeyword, hrest⟩ := hs.children_cons rfl
  obtain ⟨_, _, rfl, hclass, hrest⟩ := hrest.uncons
  obtain ⟨_, _, rfl, hlist, hrest⟩ := hrest.uncons
  obtain rfl := hrest.eq_nil
  refine ⟨_, by simp [hchildren], _, ?_, hlist, ?_⟩
  · simp [mark, width, Nat.add_assoc, instantiation]
  · intro pred stale hp hclassName
    have hclassnothing := labelledName_not_pickable " " "constructor" hclassName
    rw [(ofParse_linked text p).picked_eq, hchildren, List.flatMap_cons, List.flatMap_cons, List.flatMap_cons,
      hp.picked_nil _ hkeyword rfl, hp.picked_nil _ hclass hclassnothing]
    simp

theorem returning_value {value : Doc} (hs : Shows text p i lead offset (returning gap value)) :
    ∃ v ∈ (ofParse text p).children i, ∃ o, o = offset + width (gap ++ "return").toList ∧ Shows text p v o o value ∧
      ∀ pred stale, PicksOnly text p pred (isPickable stale) →
        (ofParse text p).picked pred i = (ofParse text p).picked pred v := by
  obtain ⟨keyword, rest, hchildren, hkeyword, hrest⟩ := hs.children_cons rfl
  obtain ⟨_, _, rfl, hvalue, hrest⟩ := hrest.uncons
  obtain ⟨_, _, rfl, hend, hrest⟩ := hrest.uncons
  obtain rfl := hrest.eq_nil
  refine ⟨_, by simp [hchildren], _, ?_, hvalue, ?_⟩
  · simp [mark, width, width_append, Nat.add_assoc, returning]
  · intro pred stale hp
    rw [hp.picked_children hs rfl, hchildren, List.flatMap_cons, List.flatMap_cons, List.flatMap_cons,
      hp.picked_nil _ hkeyword rfl, hp.picked_nil _ hend rfl]
    simp

theorem method_value {value : Doc} (hs : Shows text p i lead offset (method name value)) :
    ∃ v, (ofParse text p).Below i v ∧ ∃ o, o = offset + width ("\n    " ++ name ++ "() \x7b\n      return").toList ∧
      Shows text p v o o value ∧
      ∀ pred stale, PicksOnly text p pred (isPickable stale) →
        (ofParse text p).picked pred i = (ofParse text p).picked pred v := by
  obtain ⟨title, rest, hchildren, htitle, hrest⟩ := hs.children_cons rfl
  obtain ⟨_, _, rfl, hparameters, hrest⟩ := hrest.uncons
  obtain ⟨block, _, rfl, hblock, hrest⟩ := hrest.uncons
  obtain rfl := hrest.eq_nil
  obtain ⟨opening, inner, hinside, hopening, hinner⟩ := hblock.children_cons rfl
  obtain ⟨result, _, rfl, hreturn, hinner⟩ := hinner.uncons
  obtain ⟨_, _, rfl, hclosing, hinner⟩ := hinner.uncons
  obtain rfl := hinner.eq_nil
  obtain ⟨v, hv, o, ho, hvalue, hpick⟩ := returning_value hreturn
  have hblockmem : block ∈ (ofParse text p).children i := by simp [hchildren]
  have hreturnmem : result ∈ (ofParse text p).children block := by simp [hinside]
  refine ⟨v, .child (.child (.child .self hblockmem) hreturnmem) hv, o, ?_, hvalue, ?_⟩
  · rw [ho]
    simp [mark, width, width_append, Nat.add_assoc, method, parameters, Doc.textAll]
  · intro pred stale hp
    rw [hp.picked_children hs rfl, hchildren, List.flatMap_cons, List.flatMap_cons, List.flatMap_cons,
      hp.picked_nil _ htitle rfl, hp.picked_nil _ hparameters rfl, hp.picked_children hblock rfl, hinside,
      List.flatMap_cons, List.flatMap_cons, List.flatMap_cons, hp.picked_nil _ hopening rfl, hpick pred stale hp,
      hp.picked_nil _ hclosing rfl]
    simp

theorem members_nodes (hs : Shows text p i lead offset (members gap className names)) :
    ∃ opening entries default after inst, (ofParse text p).children i = opening :: (entries ++ default :: after) ∧
      ShowsRow text p (offset + width " \x7b".toList) (names.flatMap entry) entries ∧
      ((ofParse text p).node default).kind = .methodDefinition ∧ (ofParse text p).Below i inst ∧
      (∃ o, o = offset + width " \x7b".toList + width (names.flatMap entryText) +
          width "\n    default() \x7b\n      return builder;\n    \x7d,\n    build() \x7b\n      return".toList ∧
        Shows text p inst o o (instantiation gap className names)) ∧
      ∀ pred stale, PicksOnly text p pred (isPickable stale) → "builder" ∉ stale →
        (ofParse text p).picked pred i =
          entries.flatMap ((ofParse text p).picked pred) ++ (ofParse text p).picked pred inst := by
  obtain ⟨opening, rest, hchildren, hopening, hrest⟩ := hs.children_cons rfl
  obtain ⟨entries, rest, rfl, hentries, hrest⟩ := hrest.append
  obtain ⟨default, _, rfl, hdefault, hrest⟩ := hrest.uncons
  obtain ⟨_, _, rfl, hcomma, hrest⟩ := hrest.uncons
  obtain ⟨build, _, rfl, hbuild, hrest⟩ := hrest.uncons
  obtain ⟨_, _, rfl, hclosing, hrest⟩ := hrest.uncons
  obtain rfl := hrest.eq_nil
  obtain ⟨inst, hinst, o, ho, hshows, hpick⟩ := method_value hbuild
  have hbuildmem : build ∈ (ofParse text p).children i := by simp [hchildren]
  have hopen : offset + width (members gap className names).gap + width (members gap className names).word +
      width (mark "" "\x7b").text = offset + width " \x7b".toList := by
    rw [Nat.add_assoc, Nat.add_assoc]
    rfl
  have hdefaulttext : (method "default" (token " " "identifier" "builder")).text =
      "\n    default() \x7b\n      return builder;\n    \x7d".toList := by decide
  have hparts : "\n    default() \x7b\n      return builder;\n    \x7d,\n    build() \x7b\n      return".toList =
      "\n    default() \x7b\n      return builder;\n    \x7d".toList ++ ((mark "" ",").text ++
        ("\n    " ++ "build" ++ "() \x7b\n      return").toList) := by decide
  refine ⟨opening, entries, default, _, inst, hchildren, ?_, ?_, ?_, ⟨o, ?_, hshows⟩, ?_⟩
  · rw [← hopen]
    exact hentries
  · rw [hdefault.kind]
    rfl
  · exact (SyntaxTree.Below.child .self hbuildmem).trans hinst
  · rw [ho, hopen, hdefaulttext, textAll_flatMap entry_text, hparts, width_append, width_append]
    simp only [Nat.add_assoc]
  · intro pred stale hp hbuilder
    have hvalue : (method "default" (token " " "identifier" "builder")).has (isPickable stale) = false := by
      have hreturn := returning_not_pickable "\n      " (name_not_pickable " " hbuilder)
      simp only [method, Doc.node_has, Doc.hasAny, labelled_has_pickable, hreturn]
      rfl
    rw [hp.picked_children hs rfl, hchildren, List.flatMap_cons, List.flatMap_append, List.flatMap_cons,
      List.flatMap_cons, List.flatMap_cons, List.flatMap_cons, hp.picked_nil _ hopening rfl,
      hp.picked_nil _ hdefault hvalue, hp.picked_nil _ hcomma rfl, hpick pred stale hp, hp.picked_nil _ hclosing rfl]
    simp

theorem statement_nodes {keyword : String} {rest : List Doc} (hk : Kind.ofName keyword = .other keyword)
    (hs : Shows text p i lead offset (statement keyword name rest)) :
    Removal.declaredNames (ofParse text p) i = [name] ∧
    ∃ declarator ∈ (ofParse text p).children i, ∃ title values,
      (ofParse text p).children declarator = title :: values ∧
      (∃ o, o = offset + width ("\n  " ++ keyword ++ " " ++ name).toList ∧ ShowsRow text p o rest values) ∧
      ∀ pred stale, PicksOnly text p pred (isPickable stale) → name ∉ stale →
        (ofParse text p).picked pred i = values.flatMap ((ofParse text p).picked pred) := by
  obtain ⟨word, parts, hchildren, hword, hparts⟩ := hs.children_cons rfl
  obtain ⟨declarator, _, rfl, hdeclarator, hparts⟩ := hparts.uncons
  obtain ⟨_, _, rfl, hend, hparts⟩ := hparts.uncons
  obtain rfl := hparts.eq_nil
  obtain ⟨title, values, hinside, htitle, hvalues⟩ := hdeclarator.children_cons rfl
  refine ⟨?_, declarator, by simp [hchildren], title, values, hinside, ⟨_, ?_, hvalues⟩, ?_⟩
  · have hfound : (ofParse text p).childByField? declarator "name" = some title := by
      rw [SyntaxTree.childByField?, hinside, List.find?_cons_of_pos]
      simp [htitle.field]
    have hname : (ofParse text p).textOf title = name := by simp [htitle.textOf]
    have hwordkind : ((ofParse text p).node word).kind = .other keyword := hword.kind.trans hk
    rw [Removal.declaredNames, hchildren, List.filterMap_cons_none, List.filterMap_cons_some, List.filterMap_cons_none,
      List.filterMap_nil]
    · rw [hend.kind]
      rfl
    · rw [if_pos (by rw [hdeclarator.kind]; rfl), hfound, Option.bind_eq_bind, Option.bind_some,
        if_pos (by rw [htitle.kind]; rfl), hname]
    · simp [hwordkind]
  · simp [statement, mark, width, width_append]
    omega
  · intro pred stale hp hname
    have hnothing := labelledName_not_pickable "" "name" hname
    have hwordnothing : ((mark "" keyword).labelled "kind").has (isPickable stale) = false := by
      simp [isPickable, mark, hk, Doc.hasAny]
    rw [hp.picked_children hs rfl, hchildren, List.flatMap_cons, List.flatMap_cons, List.flatMap_cons,
      hp.picked_nil _ hword hwordnothing, hp.picked_nil _ hend rfl, hp.picked_children hdeclarator rfl, hinside,
      List.flatMap_cons, hp.picked_nil _ htitle hnothing]
    simp

end Pieces

structure SetupParts where
  body : NodeId
  bodyOpening : NodeId
  declarations : List NodeId
  builder : NodeId
  bodyRest : List NodeId
  members : NodeId
  membersOpening : NodeId
  entries : List NodeId
  default : NodeId
  membersRest : List NodeId
  inst : NodeId
  list : NodeId
  listOpening : NodeId
  arguments : List NodeId
  listClosing : NodeId

/-- The parts of the setup function at byte `offset` of a text, where the names that it wires are. -/
structure SetupAt (text : String) (p : ParseTree) (gap className : String) (names : List String) (setup offset : Nat)
    (s : SetupParts) : Prop where
  function : (ofParse text p).setupFunction? "setup" setup = some ⟨setup, "setup"⟩
  body : (ofParse text p).childByField? setup "body" = some s.body
  body_kind : ((ofParse text p).node s.body).kind = .other "statement_block"
  body_children : (ofParse text p).significantChildren s.body =
    s.bodyOpening :: (s.declarations ++ s.builder :: s.bodyRest)
  body_others : ∀ c ∈ s.bodyOpening :: s.bodyRest, ∃ name, ((ofParse text p).node c).kind = .other name
  declarations : ShowsRow text p (offset + width openingText) (names.map declaration) s.declarations
  builder_kind : ((ofParse text p).node s.builder).kind = .variableStatement
  builder_name : Removal.declaredNames (ofParse text p) s.builder = ["builder"]
  members_below : (ofParse text p).Below s.builder s.members
  members_kind : ((ofParse text p).node s.members).kind = .objectLiteral
  members_children : (ofParse text p).significantChildren s.members =
    s.membersOpening :: (s.entries ++ s.default :: s.membersRest)
  entries : ShowsRow text p (offset + width openingText + width (names.flatMap declarationText) + width builderText)
    (names.flatMap entry) s.entries
  default_kind : ((ofParse text p).node s.default).kind = .methodDefinition
  inst : ∃ lead offset, Shows text p s.inst lead offset (instantiation gap className names)
  wired : (ofParse text p).wiredNames s.inst = names
  list_below : (ofParse text p).Below s.builder s.list
  list_kind : ((ofParse text p).node s.list).kind = .argumentList
  list_children : (ofParse text p).significantChildren s.list = s.listOpening :: (s.arguments ++ [s.listClosing])
  listOpening_kind : ((ofParse text p).node s.listOpening).kind = .other "("
  listClosing_kind : ((ofParse text p).node s.listClosing).kind = .other ")"
  arguments : ShowsRow text p (offset + width openingText + width (names.flatMap declarationText) + width builderText +
    width (names.flatMap entryText) + width (methodsText className)) (arguments gap names) s.arguments
  picked : ∀ pred stale, PicksOnly text p pred (isPickable stale) → "setup" ∉ stale → "builder" ∉ stale →
    className ∉ stale →
    (ofParse text p).picked pred setup =
      s.declarations.flatMap ((ofParse text p).picked pred) ++ (s.entries.flatMap ((ofParse text p).picked pred) ++
        ((if pred s.inst then [s.inst] else []) ++ s.arguments.flatMap ((ofParse text p).picked pred)))

theorem arguments_names (gap : String) (names : List String) :
    ((arguments gap names).filter fun d => Kind.ofName d.kind == .identifier).map (fun d => .ofList d.body) =
      names := by
  have hname (gap name : String) : (Kind.ofName (token gap "identifier" name).kind == .identifier) = true := rfl
  have hcomma : (Kind.ofName (mark "" ",").kind == .identifier) = false := rfl
  have hnext (names : List String) :
      ((names.flatMap nextArgument).filter fun d => Kind.ofName d.kind == .identifier).map (fun d => .ofList d.body) =
        names := by
    induction names with
    | nil => rfl
    | cons name names ih =>
        rw [List.flatMap_cons, List.filter_append, List.map_append, ih, nextArgument, List.filter_cons, hcomma,
          List.filter_cons, hname]
        simp
  cases names with
  | nil => rfl
  | cons name names =>
      rw [arguments, List.filter_cons, hname, if_pos rfl, List.map_cons, hnext, Doc.token_body,
        String.ofList_toList]

theorem argumentList_leaves (gap : String) (names : List String) :
    ∀ d ∈ (argumentList gap names).parts, d.parts = [] := by
  intro d hd
  rcases List.mem_cons.mp hd with rfl | hd
  · rfl
  rcases List.mem_append.mp hd with hd | hd
  · exact arguments_leaves gap names d hd
  · obtain rfl := List.mem_singleton.mp hd
    rfl

theorem argumentList_names (gap : String) (names : List String) :
    ((argumentList gap names).walk.filter fun d => Kind.ofName d.kind == .identifier).map (fun d => .ofList d.body) =
      names := by
  have hself : (Kind.ofName (argumentList gap names).kind == .identifier) = false := rfl
  have hparts : (argumentList gap names).parts = mark "" "(" :: (arguments gap names ++ [mark "" ")"]) := rfl
  have hopening : (Kind.ofName (mark "" "(").kind == .identifier) = false := rfl
  have hclosing : [mark "" ")"].filter (fun d => Kind.ofName d.kind == .identifier) = [] := rfl
  rw [Doc.walk_eq, Doc.walkAll_leaves (argumentList_leaves gap names), hparts, List.filter_cons, hself,
    List.filter_cons, hopening, List.filter_append, hclosing, List.append_nil]
  exact arguments_names gap names

theorem wiredNames_instantiation (h : Showing text p i (instantiation gap className names)) :
    (ofParse text p).wiredNames i = names := by
  obtain ⟨lead, offset, hs⟩ := h
  have hlist : (instantiation gap className names).walk.find? (fun d => Kind.ofName d.kind == .argumentList) =
      some (argumentList gap names) := by
    apply Doc.find?_walk_part [mark "" "new", (token " " "identifier" className).labelled "constructor"] rfl rfl rfl
    rw [Doc.walk_eq, List.find?_cons_of_pos rfl]
  obtain ⟨list, hfound, _, _, hlist⟩ :=
    find?_of_showing (Shows.descendants _ hs) (fun hd => hd.kind_eq .argumentList) hlist
  rw [SyntaxTree.wiredNames, hfound]
  refine Eq.trans (map_filter_of_showing (Shows.descendants _ hlist) (fun hd => hd.kind_eq .identifier) ?_)
    (argumentList_names gap names)
  intro j d hd
  obtain ⟨lead, offset, hd⟩ := hd
  exact hd.textOf

theorem argumentList_nodes (hs : Shows text p i lead offset (argumentList gap names)) :
    ∃ opening elements closing, (ofParse text p).children i = opening :: (elements ++ [closing]) ∧
      ShowsRow text p (offset + width "(".toList) (arguments gap names) elements ∧
      ((ofParse text p).node opening).kind = .other "(" ∧ ((ofParse text p).node closing).kind = .other ")" ∧
      ∀ pred stale, PicksOnly text p pred (isPickable stale) →
        (ofParse text p).picked pred i = elements.flatMap ((ofParse text p).picked pred) := by
  obtain ⟨opening, rest, hchildren, hopening, hrest⟩ := hs.children_cons rfl
  obtain ⟨elements, rest, rfl, helements, hrest⟩ := hrest.append
  obtain ⟨closing, _, rfl, hclosing, hrest⟩ := hrest.uncons
  obtain rfl := hrest.eq_nil
  have hopeningkind : ((ofParse text p).node opening).kind = .other "(" := hopening.kind
  have hclosingkind : ((ofParse text p).node closing).kind = .other ")" := hclosing.kind
  refine ⟨opening, elements, closing, hchildren, helements, hopeningkind, hclosingkind, ?_⟩
  intro pred stale hp
  rw [hp.picked_children hs rfl, hchildren, List.flatMap_cons, List.flatMap_append, List.flatMap_singleton,
    hp.picked_nil _ hopening rfl, hp.picked_nil _ hclosing rfl]
  simp

theorem body_nodes (hs : Shows text p i lead offset (setupBody gap className names)) :
    ∃ opening declarations builder rest, (ofParse text p).children i = opening :: (declarations ++ builder :: rest) ∧
      (∀ c ∈ opening :: rest, ∃ name, ((ofParse text p).node c).kind = .other name) ∧
      ShowsRow text p (offset + width " \x7b".toList) (names.map declaration) declarations ∧
      (∃ o, o = offset + width " \x7b".toList + width (names.flatMap declarationText) ∧
        Shows text p builder o o (Scaffold.builder gap className names)) ∧
      ∀ pred stale, PicksOnly text p pred (isPickable stale) → "builder" ∉ stale →
        (ofParse text p).picked pred i =
          declarations.flatMap ((ofParse text p).picked pred) ++ (ofParse text p).picked pred builder := by
  obtain ⟨opening, rest, hchildren, hopening, hrest⟩ := hs.children_cons rfl
  obtain ⟨declarations, rest, rfl, hdeclarations, hrest⟩ := hrest.append
  obtain ⟨builder, _, rfl, hbuilder, hrest⟩ := hrest.uncons
  obtain ⟨result, _, rfl, hresult, hrest⟩ := hrest.uncons
  obtain ⟨closing, _, rfl, hclosing, hrest⟩ := hrest.uncons
  obtain rfl := hrest.eq_nil
  rw [textAll_map declaration_text] at hbuilder
  refine ⟨opening, declarations, builder, _, hchildren, ?_, ?_, ⟨_, ?_, hbuilder⟩, ?_⟩
  · intro c hc
    rcases List.mem_cons.mp hc with rfl | hc
    · exact ⟨_, hopening.kind⟩
    rcases List.mem_pair.mp hc with rfl | rfl
    · exact ⟨_, hresult.kind⟩
    · exact ⟨_, hclosing.kind⟩
  · exact hdeclarations
  · rfl
  · intro pred stale hp hname
    have hvalue := returning_not_pickable "\n\n  " (name_not_pickable " " hname)
    rw [hp.picked_children hs rfl, hchildren, List.flatMap_cons, List.flatMap_append, List.flatMap_cons,
      List.flatMap_cons, List.flatMap_singleton, hp.picked_nil _ hopening rfl, hp.picked_nil _ hresult hvalue,
      hp.picked_nil _ hclosing rfl]
    simp

theorem builder_nodes (hs : Shows text p i lead offset (builder gap className names)) :
    Removal.declaredNames (ofParse text p) i = ["builder"] ∧
    ∃ value o, (ofParse text p).Below i value ∧ o = offset + width "\n  const builder =".toList ∧
      Shows text p value o o (members gap className names) ∧
      ∀ pred stale, PicksOnly text p pred (isPickable stale) → "builder" ∉ stale →
        (ofParse text p).picked pred i = (ofParse text p).picked pred value := by
  obtain ⟨hname, declarator, hdeclarator, title, values, hvalues, ⟨o, ho, hrow⟩, hpick⟩ := statement_nodes rfl hs
  obtain ⟨equals, _, rfl, hequals, hrow⟩ := hrow.uncons
  obtain ⟨value, _, rfl, hvalue, hrow⟩ := hrow.uncons
  obtain rfl := hrow.eq_nil
  refine ⟨hname, value, _, .child (.child .self hdeclarator) (by simp [hvalues]), ?_, hvalue, ?_⟩
  · rw [ho, Nat.add_assoc]
    rfl
  · intro pred stale hp hbuilder
    rw [hpick pred stale hp hbuilder, List.flatMap_cons, List.flatMap_singleton, hp.picked_nil _ hequals rfl]
    rfl

theorem function_nodes (hs : Shows text p i lead offset (setupFunction gap className names)) :
    (ofParse text p).setupFunction? "setup" i = some ⟨i, "setup"⟩ ∧
    ∃ body o, (ofParse text p).childByField? i "body" = some body ∧ o = offset + width "function setup()".toList ∧
      Shows text p body o o (setupBody gap className names) ∧
      ∀ pred stale, PicksOnly text p pred (isPickable stale) → "setup" ∉ stale →
        (ofParse text p).picked pred i = (ofParse text p).picked pred body := by
  obtain ⟨keyword, rest, hchildren, hkeyword, hrest⟩ := hs.children_cons rfl
  obtain ⟨title, _, rfl, htitle, hrest⟩ := hrest.uncons
  obtain ⟨parameters, _, rfl, hparameters, hrest⟩ := hrest.uncons
  obtain ⟨body, _, rfl, hbody, hrest⟩ := hrest.uncons
  obtain rfl := hrest.eq_nil
  have hname : (ofParse text p).textOf title = "setup" := by simp [htitle.textOf]
  have htitled : (ofParse text p).childByField? i "name" = some title := by
    simp only [SyntaxTree.childByField?, hchildren, List.find?_cons, hkeyword.field, htitle.field]
    rfl
  refine ⟨SyntaxTree.setupFunction_eq_some_iff.mpr ⟨hs.kind, title, htitled, ?_, ?_⟩, body, _, ?_, ?_, hbody, ?_⟩
  · rw [hname]
    rfl
  · rw [hname]
  · simp only [SyntaxTree.childByField?, hchildren, List.find?_cons, hkeyword.field, htitle.field, hparameters.field,
      hbody.field]
    rfl
  · simp only [Nat.add_assoc]
    rfl
  · intro pred stale hp hsetup
    have htitlenothing := labelledName_not_pickable " " "name" hsetup
    rw [hp.picked_children hs rfl, hchildren, List.flatMap_cons, List.flatMap_cons, List.flatMap_cons,
      List.flatMap_singleton, hp.picked_nil _ hkeyword rfl, hp.picked_nil _ htitle htitlenothing,
      hp.picked_nil _ hparameters rfl]
    rfl

theorem width_openingText : width openingText = width "function setup()".toList + width " \x7b".toList := rfl

theorem width_builderText : width builderText = width "\n  const builder =".toList + width " \x7b".toList := rfl

theorem width_methodsText (className : String) :
    width (methodsText className) =
      width "\n    default() \x7b\n      return builder;\n    \x7d,\n    build() \x7b\n      return".toList +
        width (" new " ++ className).toList + width "(".toList := by
  simp only [methodsText, String.toList_append, width_append, ← Nat.add_assoc]
  rfl

theorem exists_setupAt (hs : Shows text p i lead offset (setupFunction gap className names)) :
    ∃ s, SetupAt text p gap className names i offset s := by
  obtain ⟨hfunction, body, _, hfield, rfl, hbody, hpick⟩ := function_nodes hs
  obtain ⟨bodyOpening, declarations, builder, bodyRest, hbodychildren, hothers, hdeclarations, ⟨_, rfl, hbuilder⟩,
    hpickbody⟩ := body_nodes hbody
  obtain ⟨hname, members, _, hmembersbelow, rfl, hmembers, hpickbuilder⟩ := builder_nodes hbuilder
  obtain ⟨membersOpening, entries, default, membersRest, inst, hmemberschildren, hentries, hdefault, hbelow,
    ⟨_, rfl, hinst⟩, hpickmembers⟩ := members_nodes hmembers
  obtain ⟨list, hlistmem, _, rfl, hlist, hpickinst⟩ := instantiation_list hinst
  obtain ⟨listOpening, arguments, listClosing, hlistchildren, harguments, hopening, hclosing, hpicklist⟩ :=
    argumentList_nodes hlist
  refine ⟨⟨body, bodyOpening, declarations, builder, bodyRest, members, membersOpening, entries, default, membersRest,
    inst, list, listOpening, arguments, listClosing⟩, hfunction, hfield, hbody.kind, ?_, hothers, ?_, hbuilder.kind,
    hname, hmembersbelow, hmembers.kind, ?_, ?_, hdefault, ⟨_, _, hinst⟩, wiredNames_instantiation ⟨_, _, hinst⟩,
    .child (hmembersbelow.trans hbelow) hlistmem, hlist.kind, ?_, hopening, hclosing, ?_, ?_⟩
  · rw [hbody.significantChildren_eq, hbodychildren]
  · simpa only [width_openingText, Nat.add_assoc] using hdeclarations
  · rw [hmembers.significantChildren_eq, hmemberschildren]
  · simpa only [width_openingText, width_builderText, Nat.add_assoc] using hentries
  · rw [hlist.significantChildren_eq, hlistchildren]
  · simpa only [width_openingText, width_builderText, width_methodsText, Nat.add_assoc] using harguments
  · intro pred stale hp hsetup hbuildername hclass
    rw [hpick pred stale hp hsetup, hpickbody pred stale hp hbuildername, hpickbuilder pred stale hp hbuildername,
      hpickmembers pred stale hp hbuildername, hpickinst pred stale hp hclass, hpicklist pred stale hp]

end Unwire.Scaffold
