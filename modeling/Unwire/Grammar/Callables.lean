import Unwire.Grammar.Rule

namespace Unwire.Grammar.TypeScript

def callables : List (String × Rule) := [
  ("class", prec "literal" (seq [
    field "decorator" (star "decorator"), t "class", field "name" (opt "_type_identifier"),
    field "type_parameters" (opt "type_parameters"), opt "class_heritage", field "body" "class_body"])),
  ("class_declaration", left "declaration" (seq [
    field "decorator" (star "decorator"), t "class", field "name" "_type_identifier",
    field "type_parameters" (opt "type_parameters"), opt "class_heritage", field "body" "class_body",
    opt (.lexeme .automaticSemicolon)])),
  ("class_heritage", oneOf [seq ["extends_clause", opt "implements_clause"], "implements_clause"]),
  ("function_expression", prec "literal" (seq [
    opt (t "async"), t "function", field "name" (opt "identifier"), "_call_signature",
    field "body" "statement_block"])),
  ("function_declaration", right "declaration" (seq [
    opt (t "async"), t "function", field "name" "identifier", "_call_signature",
    field "body" "statement_block", opt (.lexeme .automaticSemicolon)])),
  ("generator_function", prec "literal" (seq [
    opt (t "async"), t "function", t "*", field "name" (opt "identifier"), "_call_signature",
    field "body" "statement_block"])),
  ("generator_function_declaration", right "declaration" (seq [
    opt (t "async"), t "function", t "*", field "name" "identifier", "_call_signature",
    field "body" "statement_block", opt (.lexeme .automaticSemicolon)])),
  ("arrow_function", seq [
    opt (t "async"),
    oneOf [
      field "parameter" (oneOf [shown "identifier" "_reserved_identifier", "identifier"]),
      "_call_signature"],
    t "=>", field "body" (oneOf ["expression", "statement_block"])]),
  ("_call_signature", seq [
    field "type_parameters" (opt "type_parameters"), field "parameters" "formal_parameters",
    field "return_type" (opt (oneOf ["type_annotation", "asserts_annotation", "type_predicate_annotation"]))]),
  ("_formal_parameter", oneOf ["required_parameter", "optional_parameter"])]

end Unwire.Grammar.TypeScript
