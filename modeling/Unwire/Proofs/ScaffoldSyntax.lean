import Unwire.Proofs.ConcreteSyntax
import Unwire.Scaffold

namespace Unwire.Scaffold

open Syntax
open Unwire.Syntax.Doc (mark node token)

section Pieces

def parameters : Doc := (node "" "formal_parameters" [mark "" "(", mark "" ")"]).labelled "parameters"

def statement (keyword name : String) (rest : List Doc) : Doc :=
  node "\n  " "lexical_declaration" [
    (mark "" keyword).labelled "kind",
    node " " "variable_declarator" ((token "" "identifier" name).labelled "name" :: rest),
    mark "" ";"]

def declaration (name : String) : Doc :=
  statement "let" name
    [(node "" "type_annotation" [mark "" ":", token " " "type_identifier" (typeFor name)]).labelled "type"]

def entry (name : String) : List Doc := [token "\n    " "shorthand_property_identifier" name, mark "" ","]

def returning (gap : String) (value : Doc) : Doc :=
  node gap "return_statement" [mark "" "return", value, mark "" ";"]

def method (name : String) (value : Doc) : Doc :=
  node "\n    " "method_definition" [
    (token "" "property_identifier" name).labelled "name",
    parameters,
    (node " " "statement_block" [mark "" "\x7b", returning "\n      " value, mark "\n    " "\x7d"]).labelled "body"]

def nextArgument (name : String) : List Doc := [mark "" ",", token " " "identifier" name]

/-- Arguments with blanks before the first one. -/
def arguments (gap : String) : List String → List Doc
  | [] => []
  | name :: names => token gap "identifier" name :: names.flatMap nextArgument

def argumentList (gap : String) (names : List String) : Doc :=
  (node "" "arguments" (mark "" "(" :: (arguments gap names ++ [mark "" ")"]))).labelled "arguments"

def instantiation (gap className : String) (names : List String) : Doc :=
  node " " "new_expression" [
    mark "" "new",
    (token " " "identifier" className).labelled "constructor",
    argumentList gap names]

def members (gap className : String) (names : List String) : Doc :=
  (node " " "object" (mark "" "\x7b" :: (names.flatMap entry ++ [
    method "default" (token " " "identifier" "builder"),
    mark "" ",",
    method "build" (instantiation gap className names),
    mark "\n  " "\x7d"]))).labelled "value"

def builder (gap className : String) (names : List String) : Doc :=
  statement "const" "builder" [mark " " "=", members gap className names]

def setupBody (gap className : String) (names : List String) : Doc :=
  (node " " "statement_block" (mark "" "\x7b" :: (names.map declaration ++ [
    builder gap className names,
    returning "\n\n  " (token " " "identifier" "builder"),
    mark "\n" "\x7d"]))).labelled "body"

/-- The setup function of a scaffold, with blanks before the first argument of the class. -/
def setupFunction (gap className : String) (names : List String) : Doc :=
  node "" "function_declaration" [
    mark "" "function",
    (token " " "identifier" "setup").labelled "name",
    parameters,
    setupBody gap className names]

def quoted (gap word : String) : Doc :=
  node gap "string" [mark "" "'", token "" "string_fragment" word, mark "" "'"]

def call (gap : String) (callee : Doc) (passed : List Doc) : Doc :=
  node gap "call_expression" [
    callee.labelled "function",
    (node "" "arguments" (mark "" "(" :: (passed ++ [mark "" ")"]))).labelled "arguments"]

def callback (statements : List Doc) : Doc :=
  node " " "arrow_function" [
    parameters,
    mark " " "=>",
    (node " " "statement_block" (mark "" "\x7b" :: statements)).labelled "body"]

def declaring (pattern value : Doc) : Doc :=
  node "\n    " "lexical_declaration" [
    (mark "" "const").labelled "kind",
    node " " "variable_declarator" [pattern.labelled "name", mark " " "=", value.labelled "value"],
    mark "" ";"]

def member (object : Doc) (property : String) : Doc :=
  node "" "member_expression" [
    object.labelled "object",
    mark "" ".",
    (token "" "property_identifier" property).labelled "property"]

def importing (stem className : String) : Doc :=
  node "" "import_statement" [
    mark "" "import",
    node " " "import_clause" [node "" "named_imports" [
      mark "" "\x7b",
      node " " "import_specifier" [(token "" "identifier" className).labelled "name"],
      mark " " "\x7d"]],
    mark " " "from",
    (quoted " " ("./" ++ stem)).labelled "source",
    mark "" ";"]

def testStatements : List Doc := [
  token "\n    " "comment" "// arrange",
  declaring
    (node "" "object_pattern" [
      mark "" "\x7b",
      token " " "shorthand_property_identifier_pattern" "build",
      mark " " "\x7d"])
    (call " " (member (call "" (token "" "identifier" "setup") []) "default") []),
  token "\n    " "comment" "// act",
  declaring (token "" "identifier" "instance") (call " " (token "" "identifier" "build") []),
  token "\n    " "comment" "// assert",
  node "\n    " "expression_statement" [
    call "" (member (call "" (token "" "identifier" "expect") [token "" "identifier" "instance"]) "toBeTruthy") [],
    mark "" ";"],
  mark "\n  " "\x7d"]

def testCase : Doc :=
  node "\n  " "expression_statement" [
    call "" (token "" "identifier" "it") [
      quoted "" "when build is called it should construct",
      mark "" ",",
      callback testStatements],
    mark "" ";"]

def tests (className : String) : Doc :=
  node "\n\n" "expression_statement" [
    call "" (token "" "identifier" "describe") [
      quoted "" className,
      mark "" ",",
      callback [testCase, mark "\n" "\x7d"]],
    mark "" ";"]

end Pieces

section Texts

def specHeader (stem className : String) : String :=
  .join (((specLines stem className []).take 13).map (· ++ "\n"))

def openingText : List Char := "function setup() \x7b".toList

def declarationText (name : String) : List Char := ("\n  let " ++ parameter name ++ ";").toList

def builderText : List Char := "\n  const builder = \x7b".toList

def entryText (name : String) : List Char := ("\n    " ++ name ++ ",").toList

def methodsText (className : String) : List Char :=
  ("\n    default() \x7b\n      return builder;\n    \x7d,\n    build() \x7b\n      return new " ++ className ++
    "(").toList

def argumentsText (names : List String) : List Char := (", ".intercalate names).toList

def closingText : List Char := ");\n    \x7d\n  \x7d;\n\n  return builder;\n\x7d".toList

theorem importing_text (stem className : String) :
    (importing stem className).text =
      "import \x7b ".toList ++ (className.toList ++ (" \x7d from './".toList ++ (stem.toList ++ "';".toList))) := by
  simp [importing, quoted, mark, Doc.textAll]

theorem tests_text (className : String) :
    (tests className).text =
      "\n\ndescribe('".toList ++ (className.toList ++
        ("', () => \x7b".toList ++ (testCase.text ++ "\n\x7d);".toList))) := by
  simp [tests, call, quoted, callback, parameters, mark, Doc.textAll]

theorem specHeader_text (stem className : String) :
    (specHeader stem className).toList =
      (importing stem className).text ++ ((tests className).text ++ "\n\n".toList) := by
  have hbetween (rest : List Char) : "';".toList ++ ("\n".toList ++ ("".toList ++ ("\n".toList ++
      ("describe('".toList ++ rest)))) = "';".toList ++ ("\n\ndescribe('".toList ++ rest) := rfl
  rw [importing_text, tests_text, specHeader, String.toList_join]
  simp only [specLines, List.cons_append, List.take_succ_cons, List.take_zero, List.map_cons, List.map_nil,
    List.flatMap_cons, List.flatMap_nil, String.toList_append, List.append_assoc, List.append_nil, hbetween,
    List.append_right_inj]
  decide +kernel

theorem declaration_text (name : String) : (declaration name).text = declarationText name := by
  simp [declaration, statement, Doc.textAll, mark, declarationText, parameter]

theorem entry_text (name : String) : Doc.textAll (entry name) = entryText name := by
  simp [entry, Doc.textAll, mark, entryText]

theorem textAll_map {f : String → Doc} {g : String → List Char} (h : ∀ name, (f name).text = g name)
    (names : List String) : Doc.textAll (names.map f) = names.flatMap g := by
  induction names with
  | nil => rfl
  | cons name names ih => simp [Doc.textAll, h, ih]

theorem textAll_flatMap {f : String → List Doc} {g : String → List Char} (h : ∀ name, Doc.textAll (f name) = g name)
    (names : List String) : Doc.textAll (names.flatMap f) = names.flatMap g := by
  induction names with
  | nil => rfl
  | cons name names ih => simp [Doc.textAll_append, h, ih]

theorem argumentsText_singleton (name : String) : argumentsText [name] = name.toList := by simp [argumentsText]

theorem argumentsText_cons_cons (name next : String) (names : List String) :
    argumentsText (name :: next :: names) = name.toList ++ (", ".toList ++ argumentsText (next :: names)) := by
  simp only [argumentsText, String.toList_intercalate, List.map_cons, List.intercalate_cons_cons, List.append_assoc]

theorem argumentsText_cons (name : String) (names : List String) :
    argumentsText (name :: names) = name.toList ++ names.flatMap fun n => (", " ++ n).toList := by
  induction names generalizing name with
  | nil => simp [argumentsText_singleton]
  | cons n names ih =>
      rw [argumentsText_cons_cons, ih, List.flatMap_cons, String.toList_append, List.append_assoc]

theorem nextArgument_text (name : String) : Doc.textAll (nextArgument name) = (", " ++ name).toList := by
  simp [nextArgument, Doc.textAll, mark]

theorem arguments_text {gap : String} {names : List String} (hgap : names = [] → gap = "") :
    Doc.textAll (arguments gap names) = (gap ++ ", ".intercalate names).toList := by
  cases names with
  | nil =>
      rw [hgap rfl]
      rfl
  | cons name names =>
      have htext := argumentsText_cons name names
      rw [argumentsText] at htext
      rw [arguments, Doc.textAll, textAll_flatMap nextArgument_text, Doc.token_text, String.toList_append, htext,
        List.append_assoc]

theorem method_text (name : String) (value : Doc) :
    (method name value).text =
      ("\n    " ++ name ++ "() \x7b\n      return").toList ++ (value.text ++ ";\n    \x7d".toList) := by
  simp [method, parameters, returning, mark, Doc.textAll]

/-- The text of the setup function, cut where the names are. -/
theorem setupFunction_text {gap : String} {names : List String} (className : String) (hgap : names = [] → gap = "") :
    (setupFunction gap className names).text =
      openingText ++ (names.flatMap declarationText ++ (builderText ++ (names.flatMap entryText ++
        (methodsText className ++ ((gap ++ ", ".intercalate names).toList ++ closingText))))) := by
  have hinst : (instantiation gap className names).text =
      (" new " ++ className ++ "(").toList ++ ((gap ++ ", ".intercalate names).toList ++ ")".toList) := by
    simp [instantiation, argumentList, mark, Doc.textAll, Doc.textAll_append, arguments_text hgap]
  have hmembers : (members gap className names).text =
      " \x7b".toList ++ (names.flatMap entryText ++ (methodsText className ++
        ((gap ++ ", ".intercalate names).toList ++ ");\n    \x7d\n  \x7d".toList))) := by
    simp [members, mark, Doc.textAll, Doc.textAll_append, textAll_flatMap entry_text, method_text, hinst, methodsText]
  have hbuilder : ");\n    \x7d\n  \x7d".toList ++ (";".toList ++ ("\n\n  return builder;".toList ++ "\n\x7d".toList)) =
      closingText := by decide
  have hreturn : (returning "\n\n  " (token " " "identifier" "builder")).text = "\n\n  return builder;".toList := by
    decide
  simp only [setupFunction, setupBody, builder, statement, mark, Doc.labelled_text, Doc.node_text, Doc.token_text,
    Doc.textAll, Doc.textAll_append, textAll_map declaration_text, hmembers, hreturn, ← hbuilder, List.append_assoc,
    List.append_nil]
  rfl

theorem setupFunction_text_empty (className : String) (names : List String) :
    (setupFunction "" className names).text =
      openingText ++ (names.flatMap declarationText ++ (builderText ++ (names.flatMap entryText ++
        (methodsText className ++ (argumentsText names ++ closingText))))) := by
  rw [setupFunction_text className fun _ => rfl, String.empty_append]
  rfl

theorem flatMap_line_break (names : List String) (line : String → List Char) (rest : List Char) :
    '\n' :: (names.flatMap (fun name => line name ++ "\n".toList) ++ rest) =
      names.flatMap (fun name => '\n' :: line name) ++ '\n' :: rest := by
  induction names with
  | nil => rfl
  | cons name names ih =>
      rw [List.flatMap_cons, List.flatMap_cons, List.append_assoc, List.append_assoc, List.append_assoc, ← ih]
      rfl

theorem specLines_eq (stem className : String) (names : List String) :
    specLines stem className names =
      (specLines stem className []).take 13 ++ ("function setup() \x7b" :: (
        names.map (fun name => "  let " ++ parameter name ++ ";") ++ ("  const builder = \x7b" :: (
          names.map (fun name => "    " ++ name ++ ",") ++ [
            "    default() \x7b",
            "      return builder;",
            "    \x7d,",
            "    build() \x7b",
            "      return new " ++ className ++ "(" ++ ", ".intercalate names ++ ");",
            "    \x7d",
            "  \x7d;",
            "",
            "  return builder;",
            "\x7d"])))) := by
  simp [specLines]

theorem specFor_text (stem className : String) (names : List String) :
    (specFor stem className names).toList =
      (specHeader stem className).toList ++ ((setupFunction "" className names).text ++ ['\n']) := by
  rw [specFor, specLines_eq, specHeader, String.toList_join, String.toList_join, List.map_append, List.flatMap_append,
    setupFunction_text_empty]
  refine (List.append_right_inj _).mpr ?_
  simp only [List.map_cons, List.map_append, List.map_nil, List.map_map, List.flatMap_cons, List.flatMap_append,
    List.flatMap_map, List.flatMap_nil, List.append_nil, Function.comp_apply, String.toList_append]
  have hdeclarations := flatMap_line_break names fun name => "  let ".toList ++ (parameter name).toList ++ ";".toList
  have hentries := flatMap_line_break names fun name => "    ".toList ++ name.toList ++ ",".toList
  have hdeclaration : (fun name => '\n' :: ("  let ".toList ++ (parameter name).toList ++ ";".toList)) =
      declarationText := by
    funext name
    simp [declarationText]
  have hentry : (fun name : String => '\n' :: ("    ".toList ++ name.toList ++ ",".toList)) = entryText := by
    funext name
    simp [entryText]
  rw [hdeclaration] at hdeclarations
  rw [hentry] at hentries
  simp only [List.append_assoc] at hdeclarations hentries ⊢
  refine (List.append_right_inj openingText).mpr ((hdeclarations _).trans ((List.append_right_inj _).mpr ?_))
  refine (List.append_right_inj builderText).mpr ((hentries _).trans ((List.append_right_inj _).mpr ?_))
  rw [methodsText, String.toList_append, String.toList_append, List.append_assoc, List.append_assoc]
  rfl

end Texts

end Unwire.Scaffold
