import Unwire.Grammar.Rule

namespace Unwire.Grammar.TypeScript

/-- With `markup`, elements are expressions and a type in angle brackets is no assertion. -/
def expressions (markup : Bool) : List (String × Rule) := [
  ("parenthesized_expression", seq [
    t "(", oneOf [seq ["expression", field "type" (opt "type_annotation")], "sequence_expression"], t ")"]),
  ("_expressions", oneOf ["expression", "sequence_expression"]),
  ("expression", oneOf [
    "as_expression", "satisfies_expression", "instantiation_expression", "internal_module",
    if markup then oneOf ["primary_expression", "_jsx_element"] else oneOf ["type_assertion", "primary_expression"],
    "assignment_expression", "augmented_assignment_expression", "await_expression", "unary_expression",
    "binary_expression", "ternary_expression", "update_expression", "new_expression", "yield_expression"]),
  ("primary_expression", oneOf [
    "subscript_expression", "member_expression", "parenthesized_expression", "_identifier",
    shown "identifier" "_reserved_identifier", "this", "super", "number", "string", "template_string",
    "regex", "true", "false", "null", "object", "array", "function_expression", "arrow_function",
    "generator_function", "class", "meta_property", "call_expression", "non_null_expression"]),
  ("yield_expression", right 0 (seq [t "yield", opt (oneOf [seq [t "*", "expression"], "expression"])])),
  ("object", prec "object" (seq [
    t "\x7b",
    opt (commaSep (opt (oneOf [
      "pair", "spread_element", "method_definition",
      shown "shorthand_property_identifier" (oneOf ["identifier", "_reserved_identifier"])]))),
    t "\x7d"])),
  ("object_pattern", prec "object" (seq [
    t "\x7b",
    opt (commaSep (opt (oneOf [
      "pair_pattern", "rest_pattern", "object_assignment_pattern",
      shown "shorthand_property_identifier_pattern" (oneOf ["identifier", "_reserved_identifier"])]))),
    t "\x7d"])),
  ("assignment_pattern", seq [field "left" "pattern", t "=", field "right" "expression"]),
  ("object_assignment_pattern", seq [
    field "left" (oneOf [
      shown "shorthand_property_identifier_pattern" (oneOf ["_reserved_identifier", "identifier"]),
      "_destructuring_pattern"]),
    t "=", field "right" "expression"]),
  ("array", seq [t "[", opt (commaSep (opt (oneOf ["expression", "spread_element"]))), t "]"]),
  ("array_pattern", seq [t "[", opt (commaSep (opt (oneOf ["pattern", "assignment_pattern"]))), t "]"])]

end Unwire.Grammar.TypeScript
