import Unwire.ClassSignature
import Unwire.Proofs.ScaffoldSyntax

namespace Unwire.Scaffold

open Syntax
open Unwire.Parse (ParseTree)
open Unwire.Syntax.Doc (mark node token)
open Unwire.Syntax.SyntaxTree (ofParse ofParse_linked rootSpot)

section Pieces

def typedParameter (gap name : String) : Doc :=
  node gap "required_parameter" [
    (token "" "identifier" name).labelled "pattern",
    (node "" "type_annotation" [mark "" ":", token " " "type_identifier" (typeFor name)]).labelled "type"]

def nextParameter (name : String) : List Doc := [mark "" ",", typedParameter " " name]

def typedParameters : List String → List Doc
  | [] => []
  | name :: names => typedParameter "" name :: names.flatMap nextParameter

def constructorMethod (names : List String) : Doc :=
  node "\n  " "method_definition" [
    (token "" "property_identifier" "constructor").labelled "name",
    (node "" "formal_parameters" (mark "" "(" :: (typedParameters names ++ [mark "" ")"]))).labelled "parameters",
    (node " " "statement_block" [mark "" "\x7b", mark "" "\x7d"]).labelled "body"]

def classDeclaration (className : String) (names : List String) : Doc :=
  (node " " "class_declaration" [
    mark "" "class",
    (token " " "type_identifier" className).labelled "name",
    (node " " "class_body" [mark "" "\x7b", constructorMethod names, mark "\n" "\x7d"]).labelled "body"]).labelled
      "declaration"

def exportedClass (className : String) (names : List String) : Doc :=
  node "" "export_statement" [mark "" "export", classDeclaration className names]

theorem typedParameter_text (gap name : String) : (typedParameter gap name).text = (gap ++ parameter name).toList := by
  simp [typedParameter, Doc.textAll, mark, parameter]

theorem typedParameters_text (names : List String) :
    Doc.textAll (typedParameters names) = (", ".intercalate (names.map parameter)).toList := by
  have hnext (name : String) : Doc.textAll (nextParameter name) = (", " ++ parameter name).toList := by
    simp [nextParameter, Doc.textAll, mark, typedParameter_text]
  cases names with
  | nil => rfl
  | cons name names =>
      have htext := argumentsText_cons (parameter name) (names.map parameter)
      rw [argumentsText, List.flatMap_map] at htext
      rw [List.map_cons, htext, typedParameters, Doc.textAll, textAll_flatMap hnext, typedParameter_text,
        String.empty_append]

theorem constructorMethod_text (names : List String) :
    (constructorMethod names).text =
      "\n  constructor(".toList ++ ((", ".intercalate (names.map parameter)).toList ++ ") \x7b\x7d".toList) := by
  simp [constructorMethod, Doc.textAll, Doc.textAll_append, mark, typedParameters_text]

theorem classText_eq (s : Scaffold) :
    s.classText.toList = (exportedClass s.className s.current).text ++ ['\n'] := by
  have htext : s.classText = "export class " ++ s.className ++ " \x7b\n  constructor(" ++
      ", ".intercalate (s.current.map parameter) ++ ") \x7b\x7d\n\x7d\n" := rfl
  have hopening : " \x7b\n  constructor(".toList = " \x7b".toList ++ "\n  constructor(".toList := by decide
  have hclosing : ") \x7b\x7d\n\x7d\n".toList = ") \x7b\x7d".toList ++ ("\n\x7d".toList ++ ['\n']) := by decide
  simp only [htext, exportedClass, classDeclaration, mark, Doc.labelled_text, Doc.node_text, Doc.token_text,
    Doc.textAll, constructorMethod_text, String.toList_append, hopening, hclosing, List.append_assoc, List.append_nil]
  rfl

end Pieces

/-- A name without blanks that starts with a small letter. -/
def isSmallName (name : String) : Bool :=
  match name.toList with
  | [] => false
  | c :: cs => c.isLower && cs.all (!Text.isBlank ·)

theorem isBlank_of_capital {c : Char} (h : c.isLower = true) : ∀ d ∈ Text.capital c, Text.isBlank d = false := by
  have hall : ∀ n < 123, (Char.ofNat n).isLower = true →
      (Text.capital (Char.ofNat n)).all (!Text.isBlank ·) = true := by decide +kernel
  have hlt : c.toNat < 123 := by
    have hle : c.val ≤ 122 := of_decide_eq_true (Bool.and_eq_true_iff.mp h).2
    exact Nat.lt_succ_of_le hle
  have hc := hall c.toNat hlt
  rw [Char.ofNat_toNat] at hc
  simpa using hc h

theorem isBlank_of_typeFor {name : String} (hname : isSmallName name = true) :
    ∀ d ∈ (typeFor name).toList, Text.isBlank d = false := by
  rw [isSmallName] at hname
  rw [typeFor, String.toList_ofList]
  split at hname
  · cases hname
  · next c cs hcs =>
      obtain ⟨hc, hrest⟩ := Bool.and_eq_true_iff.mp hname
      rw [hcs, Text.capitalize]
      intro d hd
      rcases List.mem_append.mp hd with hd | hd
      · exact isBlank_of_capital hc d hd
      · simpa using List.all_eq_true.mp hrest d hd

theorem trim_of_forall {cs : List Char} (h : ∀ c ∈ cs, Text.isBlank c = false) : Text.trim (' ' :: cs) = cs := by
  have hself {ds : List Char} (hd : ∀ d ∈ ds, Text.isBlank d = false) : ds.dropWhile Text.isBlank = ds := by
    cases ds with
    | nil => rfl
    | cons d ds => rw [List.dropWhile_cons_of_neg (by simp [hd d List.mem_cons_self])]
  rw [Text.trim, List.dropWhile_cons_of_pos (by decide), hself h, hself fun c hc => h c (List.mem_reverse.mp hc),
    List.reverse_reverse]

theorem annotatedType_eq {name : String} (hname : isSmallName name = true) :
    ClassSignature.annotatedType (": " ++ typeFor name) = typeFor name := by
  have htext : (": " ++ typeFor name).toList.dropWhile (· == ':') = ' ' :: (typeFor name).toList := by
    rw [String.toList_append]
    rfl
  rw [ClassSignature.annotatedType, htext, trim_of_forall (isBlank_of_typeFor hname), String.ofList_toList]

def dependency (name : String) : Dependency := ⟨name, some (typeFor name)⟩

section Nodes

variable {text className : String} {p : ParseTree} {i lead offset : Nat} {names : List String}

theorem dependency_eq {gap name : String} (hs : Shows text p i lead offset (typedParameter gap name))
    (hname : isSmallName name = true) :
    ClassSignature.dependency? (ofParse text p) i = some (dependency name) := by
  obtain ⟨pattern, rest, hchildren, hpattern, hrest⟩ := hs.children_cons rfl
  obtain ⟨type, _, rfl, htype, hrest⟩ := hrest.uncons
  obtain rfl := hrest.eq_nil
  have hfound : (ofParse text p).childByField? i "pattern" = some pattern := by
    rw [SyntaxTree.childByField?, hchildren, List.find?_cons_of_pos (by rw [hpattern.field]; rfl)]
  have hannotation : (ofParse text p).childByField? i "type" = some type := by
    simp only [SyntaxTree.childByField?, hchildren, List.find?_cons, hpattern.field, htype.field]
    rfl
  have hkind : ((ofParse text p).node pattern).kind = .identifier := hpattern.kind
  have hpatterntext : (ofParse text p).textOf pattern = name := by simp [hpattern.textOf]
  have htypetext : (ofParse text p).textOf type = ": " ++ typeFor name := by
    rw [htype.textOf, ← String.toList_inj]
    simp [Doc.textAll, mark]
  simp [ClassSignature.dependency?, hfound, hkind, hpatterntext, hannotation, htypetext, annotatedType_eq hname,
    dependency]

def dependencyAt? (t : SyntaxTree) (i : NodeId) : Option Dependency :=
  if (t.node i).kind == .formalParameter then ClassSignature.dependency? t i else none

theorem dependencyAt_eq {gap name : String} (hs : Shows text p i lead offset (typedParameter gap name))
    (hname : isSmallName name = true) : dependencyAt? (ofParse text p) i = some (dependency name) := by
  have hkind : ((ofParse text p).node i).kind = .formalParameter := hs.kind
  rw [dependencyAt?, hkind, if_pos (by rfl), dependency_eq hs hname]

theorem dependencyAt_mark {gap word : String} (hk : Kind.ofName word ≠ .formalParameter)
    (hs : Shows text p i lead offset (mark gap word)) : dependencyAt? (ofParse text p) i = none := by
  have hkind : ((ofParse text p).node i).kind = .ofName word := hs.kind
  rw [dependencyAt?, hkind, if_neg (by simpa using hk)]

theorem nextParameters_dependencies {cs : List NodeId}
    (hrow : ShowsRow text p offset (names.flatMap nextParameter) cs)
    (hnames : ∀ name ∈ names, isSmallName name = true) :
    cs.filterMap (dependencyAt? (ofParse text p)) = names.map dependency := by
  induction names generalizing offset cs with
  | nil =>
      obtain rfl := hrow.eq_nil
      rfl
  | cons name names ih =>
      obtain ⟨hname, hrest⟩ := List.forall_mem_cons.mp hnames
      obtain ⟨comma, _, rfl, hcomma, hrow⟩ := hrow.uncons
      obtain ⟨c, cs, rfl, hc, hrow⟩ := hrow.uncons
      rw [List.filterMap_cons_none (dependencyAt_mark (by decide) hcomma),
        List.filterMap_cons_some (dependencyAt_eq hc hname), ih hrow hrest, List.map_cons]

theorem parameters_dependencies {cs : List NodeId} (hrow : ShowsRow text p offset (typedParameters names) cs)
    (hnames : ∀ name ∈ names, isSmallName name = true) :
    cs.filterMap (dependencyAt? (ofParse text p)) = names.map dependency := by
  cases names with
  | nil =>
      obtain rfl := hrow.eq_nil
      rfl
  | cons name names =>
      obtain ⟨hname, hrest⟩ := List.forall_mem_cons.mp hnames
      obtain ⟨c, cs, rfl, hc, hrow⟩ := hrow.uncons
      rw [List.filterMap_cons_some (dependencyAt_eq hc hname), nextParameters_dependencies hrow hrest, List.map_cons]

theorem constructor_eq (hs : Shows text p i lead offset (classDeclaration className names)) :
    ∃ method o, ClassSignature.constructor? (ofParse text p) i = some method ∧
      Shows text p method o o (constructorMethod names) := by
  obtain ⟨keyword, rest, hchildren, hkeyword, hrest⟩ := hs.children_cons rfl
  obtain ⟨title, _, rfl, htitle, hrest⟩ := hrest.uncons
  obtain ⟨body, _, rfl, hbody, hrest⟩ := hrest.uncons
  obtain rfl := hrest.eq_nil
  obtain ⟨opening, inner, hinside, hopening, hinner⟩ := hbody.children_cons rfl
  obtain ⟨method, _, rfl, hmethod, hinner⟩ := hinner.uncons
  obtain ⟨name, parts, hparts, hname, _⟩ := hmethod.children_cons rfl
  have hfound : (ofParse text p).childByField? i "body" = some body := by
    simp only [SyntaxTree.childByField?, hchildren, List.find?_cons, hkeyword.field, htitle.field, hbody.field]
    rfl
  have hnamed : (ofParse text p).childByField? method "name" = some name := by
    rw [SyntaxTree.childByField?, hparts, List.find?_cons_of_pos (by rw [hname.field]; rfl)]
  have hnametext : (ofParse text p).textOf name = "constructor" := by simp [hname.textOf]
  have hopeningkind : ((ofParse text p).node opening).kind = .other "\x7b" := hopening.kind
  have hmethodkind : ((ofParse text p).node method).kind = .methodDefinition := hmethod.kind
  refine ⟨method, _, ?_, hmethod⟩
  simp [ClassSignature.constructor?, hfound, hinside, hopeningkind, hmethodkind, hnamed, hnametext]

theorem dependenciesOf_eq (hs : Shows text p i lead offset (classDeclaration className names))
    (hnames : ∀ name ∈ names, isSmallName name = true) :
    ClassSignature.dependenciesOf (ofParse text p) i = names.map dependency := by
  obtain ⟨method, o, hconstructor, hmethod⟩ := constructor_eq hs
  obtain ⟨name, rest, hparts, hname, hrest⟩ := hmethod.children_cons rfl
  obtain ⟨list, _, rfl, hlist, _⟩ := hrest.uncons
  obtain ⟨opening, inner, hinside, hopening, hinner⟩ := hlist.children_cons rfl
  obtain ⟨elements, _, rfl, helements, hinner⟩ := hinner.append
  obtain ⟨closing, _, rfl, hclosing, hinner⟩ := hinner.uncons
  obtain rfl := hinner.eq_nil
  have hfound : (ofParse text p).childByField? method "parameters" = some list := by
    simp only [SyntaxTree.childByField?, hparts, List.find?_cons, hname.field, hlist.field]
    rfl
  rw [ClassSignature.dependenciesOf, hconstructor, Option.bind_some, hfound]
  change ((ofParse text p).children list).filterMap (dependencyAt? (ofParse text p)) = _
  rw [hinside, List.filterMap_cons_none (dependencyAt_mark (by decide) hopening), List.filterMap_append,
    parameters_dependencies helements hnames, List.filterMap_cons_none (dependencyAt_mark (by decide) hclosing),
    List.filterMap_nil, List.append_nil]

end Nodes

/-- The tree of the class file of a scaffold. -/
def IsClassTree (className : String) (names : List String) (p : ParseTree) : Prop :=
  ∃ start stop, p.root = .node "program" none start stop [(exportedClass className names).place 0]

def classTree (s : Scaffold) : ParseTree where
  root := .node "program" none 0 s.classText.utf8ByteSize [(exportedClass s.className s.current).place 0]
  faulty := false

theorem exportedClass_plain (className : String) (names : List String) :
    (exportedClass className names).has Doc.isComment = false := by
  have hparameter (gap name : String) : (typedParameter gap name).has Doc.isComment = false := rfl
  have hparameters : Doc.hasAny Doc.isComment (typedParameters names) = false := by
    refine Doc.hasAny_eq_false fun d hd => ?_
    cases names with
    | nil => simp [typedParameters] at hd
    | cons name names =>
        rcases List.mem_cons.mp hd with rfl | hd
        · exact hparameter "" name
        · obtain ⟨next, _, hd⟩ := List.mem_flatMap.mp hd
          rcases List.mem_pair.mp hd with rfl | rfl
          · rfl
          · exact hparameter " " next
  simp only [exportedClass, classDeclaration, constructorMethod, Doc.node_has, Doc.labelled_has, Doc.node_parts,
    Doc.hasAny, Doc.hasAny_append, hparameters]
  rfl

theorem exists_exportedClass {s : Scaffold} {p : ParseTree} (hp : IsClassTree s.className s.current p) :
    ∃ c lead, (ofParse s.classText p).children SyntaxTree.root = [c] ∧
      ((ofParse s.classText p).node SyntaxTree.root).kind = .sourceFile ∧
      Shows s.classText p c lead 0 (exportedClass s.className s.current) := by
  obtain ⟨start, stop, hroot⟩ := hp
  have hspot := (rootSpot p).mem_all_self
  have hchildren : (ofParse s.classText p).children SyntaxTree.root = (rootSpot p).children.map Spot.id :=
    SyntaxTree.ofParse_children hspot
  have hkind : ((ofParse s.classText p).node SyntaxTree.root).kind = .ofName p.root.kind :=
    congrArg Node.kind (SyntaxTree.ofParse_node hspot)
  have hall : ∀ c ∈ (rootSpot p).children, c ∈ (rootSpot p).all := fun c hc => Spot.child_mem_all hspot hc
  have htree : (rootSpot p).tree = p.root := rfl
  simp only [Spot.children, htree, hroot, Parse.Tree.children, Spot.row, List.map_cons, List.map_nil,
    List.forall_mem_cons] at hchildren hall
  rw [hroot] at hkind
  refine ⟨_, _, hchildren, hkind, ⟨_, hall.1, rfl, rfl, rfl⟩, ?_, ?_, exportedClass_plain s.className s.current⟩
  · exact Nat.le_refl _
  · rw [classText_eq]
    exact ⟨[], ['\n'], rfl, rfl⟩

/-- The class of a scaffold is read with its name, and with all that its constructor takes. -/
theorem find_classText {s : Scaffold} {p : ParseTree} {className : Option String}
    (hp : IsClassTree s.className s.current p) (hclass : className.all (· == s.className) = true)
    (hnames : ∀ name ∈ s.current, isSmallName name = true) :
    ClassSignature.find? (ofParse s.classText p) className = some ⟨s.className, s.current.map dependency⟩ := by
  have h := ofParse_linked s.classText p
  obtain ⟨exported, lead, hroot, hrootkind, hexported⟩ := exists_exportedClass hp
  obtain ⟨keyword, rest, hchildren, hkeyword, hrest⟩ := hexported.children_cons rfl
  obtain ⟨declared, _, rfl, hdeclared, hrest⟩ := hrest.uncons
  obtain rfl := hrest.eq_nil
  obtain ⟨first, rest, hparts, hfirst, hrest⟩ := hdeclared.children_cons rfl
  obtain ⟨title, _, rfl, htitle, _⟩ := hrest.uncons
  have hnamed : (ofParse s.classText p).childByField? declared "name" = some title := by
    simp only [SyntaxTree.childByField?, hparts, List.find?_cons, hfirst.field, htitle.field]
    rfl
  have htitletext : (ofParse s.classText p).textOf title = s.className := by simp [htitle.textOf]
  have hexportedkind : ((ofParse s.classText p).node exported).kind = .exportStatement := hexported.kind
  have hkeywordkind : ((ofParse s.classText p).node keyword).kind = .other "export" := hkeyword.kind
  have hdeclaredkind : ((ofParse s.classText p).node declared).kind = .classDeclaration := hdeclared.kind
  -- The walk comes to the class after the file, the statement and its first word.
  have hwalk : ∃ rest, (ofParse s.classText p).descendants SyntaxTree.root =
      SyntaxTree.root :: exported :: keyword :: declared :: rest := by
    refine ⟨((ofParse s.classText p).children declared).flatMap (ofParse s.classText p).descendants, ?_⟩
    rw [h.descendants_eq SyntaxTree.root, hroot, List.flatMap_singleton, h.descendants_eq exported, hchildren,
      List.flatMap_cons, List.flatMap_singleton, h.descendants_eq keyword, hkeyword.children_nil rfl,
      h.descendants_eq declared]
    rfl
  obtain ⟨rest, hwalk⟩ := hwalk
  simp [ClassSignature.find?, hwalk, hrootkind, hexportedkind, hkeywordkind, hdeclaredkind, hnamed, htitletext, hclass,
    dependenciesOf_eq hdeclared hnames]

end Unwire.Scaffold
