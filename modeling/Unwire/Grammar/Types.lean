import Unwire.Grammar.Rule

namespace Unwire.Grammar.TypeScript

def types : List (String × Rule) := [
  ("omitting_type_annotation", seq [t "-?:", "type"]),
  ("adding_type_annotation", seq [t "+?:", "type"]),
  ("opting_type_annotation", seq [t "?:", "type"]),
  ("type_annotation", seq [t ":", "type"]),
  ("_type_query_member_expression_in_type_annotation", seq [
    field "object" (oneOf [
      "import", shown "member_expression" "_type_query_member_expression_in_type_annotation",
      shown "call_expression" "_type_query_call_expression_in_type_annotation"]),
    t ".",
    field "property" (oneOf ["private_property_identifier", shown "property_identifier" "identifier"])]),
  ("_type_query_call_expression_in_type_annotation", seq [
    field "function" (oneOf ["import", shown "member_expression" "_type_query_member_expression_in_type_annotation"]),
    field "arguments" "arguments"]),
  ("asserts", seq [t "asserts", oneOf ["type_predicate", "identifier", "this"]]),
  ("asserts_annotation", seq [t ":", "asserts"]),
  ("type", oneOf [
    "primary_type", "function_type", "readonly_type", "constructor_type", "infer_type",
    prec (.rank (-1)) (shown "member_expression" "_type_query_member_expression_in_type_annotation"),
    prec (.rank (-1)) (shown "call_expression" "_type_query_call_expression_in_type_annotation")]),
  ("tuple_parameter", seq [
    field "name" (oneOf ["identifier", "rest_pattern"]), field "type" "type_annotation"]),
  ("optional_tuple_parameter", seq [field "name" "identifier", t "?", field "type" "type_annotation"]),
  ("optional_type", seq ["type", t "?"]),
  ("rest_type", seq [t "...", "type"]),
  ("_tuple_type_member", oneOf [
    shown "required_parameter" "tuple_parameter", shown "optional_parameter" "optional_tuple_parameter",
    "optional_type", "rest_type", "type"]),
  ("constructor_type", left 0 (seq [
    opt (t "abstract"), t "new", field "type_parameters" (opt "type_parameters"),
    field "parameters" "formal_parameters", t "=>", field "type" "type"])),
  ("primary_type", oneOf [
    "parenthesized_type", "predefined_type", "_type_identifier", "nested_type_identifier", "generic_type",
    "object_type", "array_type", "tuple_type", "flow_maybe_type", "type_query", "index_type_query",
    shown "this_type" "this", "existential_type", "literal_type", "lookup_type", "conditional_type",
    "template_literal_type", "intersection_type", "union_type", t "const"]),
  ("template_type", seq [t "$\x7b", oneOf ["primary_type", "infer_type"], t "\x7d"]),
  ("template_literal_type", seq [
    t "`", star (oneOf [shown "string_fragment" (.lexeme .templateRun), "template_type"]), t "`"]),
  ("infer_type", right 0 (seq [t "infer", "_type_identifier", opt (seq [t "extends", "type"])])),
  ("conditional_type", right 0 (seq [
    field "left" "type", t "extends", field "right" "type", t "?", field "consequence" "type", t ":",
    field "alternative" "type"])),
  ("generic_type", prec "call" (seq [
    field "name" (oneOf ["_type_identifier", "nested_type_identifier"]),
    field "type_arguments" "type_arguments"])),
  ("type_predicate", seq [
    field "name" (oneOf ["identifier", "this", shown "identifier" "predefined_type"]), t "is",
    field "type" "type"]),
  ("type_predicate_annotation", seq [t ":", "type_predicate"]),
  ("_type_query_member_expression", seq [
    field "object" (oneOf [
      "identifier", "this", shown "subscript_expression" "_type_query_subscript_expression",
      shown "member_expression" "_type_query_member_expression",
      shown "call_expression" "_type_query_call_expression"]),
    oneOf [t ".", t "?."],
    field "property" (oneOf ["private_property_identifier", shown "property_identifier" "identifier"])]),
  ("_type_query_subscript_expression", seq [
    field "object" (oneOf [
      "identifier", "this", shown "subscript_expression" "_type_query_subscript_expression",
      shown "member_expression" "_type_query_member_expression",
      shown "call_expression" "_type_query_call_expression"]),
    opt (t "?."), t "[", field "index" (oneOf ["predefined_type", "string", "number"]), t "]"]),
  ("_type_query_call_expression", seq [
    field "function" (oneOf [
      "import", "identifier", shown "member_expression" "_type_query_member_expression",
      shown "subscript_expression" "_type_query_subscript_expression"]),
    field "arguments" "arguments"]),
  ("_type_query_instantiation_expression", seq [
    field "function" (oneOf [
      "import", "identifier", shown "member_expression" "_type_query_member_expression",
      shown "subscript_expression" "_type_query_subscript_expression"]),
    field "type_arguments" "type_arguments"]),
  ("type_query", right 0 (seq [
    t "typeof",
    oneOf [
      shown "subscript_expression" "_type_query_subscript_expression",
      shown "member_expression" "_type_query_member_expression",
      shown "call_expression" "_type_query_call_expression",
      shown "instantiation_expression" "_type_query_instantiation_expression", "identifier", "this"]])),
  ("index_type_query", seq [t "keyof", "primary_type"]),
  ("lookup_type", seq ["primary_type", t "[", "type", t "]"]),
  ("mapped_type_clause", seq [
    field "name" "_type_identifier", t "in", field "type" "type", opt (seq [t "as", field "alias" "type"])]),
  ("literal_type", oneOf [
    shown "unary_expression" "_number", "number", "string", "true", "false", "null", "undefined"]),
  ("_number", left 1 (seq [field "operator" (oneOf [t "-", t "+"]), field "argument" "number"])),
  ("existential_type", t "*"),
  ("flow_maybe_type", right 0 (seq [t "?", "primary_type"])),
  ("parenthesized_type", seq [t "(", "type", t ")"]),
  ("predefined_type", oneOf [
    t "any", t "number", t "boolean", t "string", t "symbol",
    shown "unique symbol" (seq [t "unique", t "symbol"]), t "void", t "unknown", t "string", t "never",
    t "object"]),
  ("type_arguments", seq [t "<", commaSep "type", opt (t ","), t ">"]),
  ("object_type", seq [
    oneOf [t "\x7b", t "\x7b|"],
    opt (seq [
      opt (oneOf [t ",", t ";"]),
      oneOf [
        "export_statement", "property_signature", "call_signature", "construct_signature",
        "index_signature", "method_signature"],
      star (seq [
        oneOf [t ",", "_semicolon"],
        oneOf [
          "export_statement", "property_signature", "call_signature", "construct_signature",
          "index_signature", "method_signature"]]),
      opt (oneOf [t ",", "_semicolon"])]),
    oneOf [t "\x7d", t "|\x7d"]]),
  ("call_signature", "_call_signature"),
  ("property_signature", seq [
    opt "accessibility_modifier", opt (t "static"), opt "override_modifier", opt (t "readonly"),
    field "name" "_property_name", opt (t "?"), field "type" (opt "type_annotation")]),
  ("type_parameters", seq [t "<", commaSep "type_parameter", opt (t ","), t ">"]),
  ("type_parameter", seq [
    opt (t "const"), field "name" "_type_identifier", field "constraint" (opt "constraint"),
    field "value" (opt "default_type")]),
  ("default_type", seq [t "=", "type"]),
  ("constraint", seq [oneOf [t "extends", t ":"], "type"]),
  ("construct_signature", seq [
    opt (t "abstract"), t "new", field "type_parameters" (opt "type_parameters"),
    field "parameters" "formal_parameters", field "type" (opt "type_annotation")]),
  ("index_signature", seq [
    opt (seq [field "sign" (opt (oneOf [t "-", t "+"])), t "readonly"]), t "[",
    oneOf [
      seq [
        field "name" (oneOf ["identifier", shown "identifier" "_reserved_identifier"]), t ":",
        field "index_type" "type"],
      "mapped_type_clause"],
    t "]",
    field "type" (oneOf ["type_annotation", "omitting_type_annotation", "adding_type_annotation", "opting_type_annotation"])]),
  ("array_type", seq ["primary_type", t "[", t "]"]),
  ("tuple_type", seq [t "[", opt (commaSep "_tuple_type_member"), opt (t ","), t "]"]),
  ("readonly_type", seq [t "readonly", "type"]),
  ("union_type", left 0 (seq [opt "type", t "|", "type"])),
  ("intersection_type", left 0 (seq [opt "type", t "&", "type"])),
  ("function_type", left 0 (seq [
    field "type_parameters" (opt "type_parameters"), field "parameters" "formal_parameters", t "=>",
    field "return_type" (oneOf ["type", "asserts", "type_predicate"])])),
  ("_type_identifier", shown "type_identifier" "identifier")]

end Unwire.Grammar.TypeScript
