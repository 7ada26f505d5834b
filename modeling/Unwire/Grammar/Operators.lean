import Unwire.Grammar.Rule

namespace Unwire.Grammar.TypeScript

def operators : List (String × Rule) := [
  ("optional_chain", t "?."),
  ("call_expression", oneOf [
    prec "call" (seq [
      field "function" (oneOf ["expression", "import"]), field "type_arguments" (opt "type_arguments"),
      field "arguments" "arguments"]),
    prec "template_call" (seq [
      field "function" (oneOf ["primary_expression", "new_expression"]),
      field "arguments" "template_string"]),
    prec "member" (seq [
      field "function" "primary_expression", t "?.", field "type_arguments" (opt "type_arguments"),
      field "arguments" "arguments"])]),
  ("new_expression", right "new" (seq [
    t "new", field "constructor" "primary_expression", field "type_arguments" (opt "type_arguments"),
    field "arguments" (opt "arguments")])),
  ("await_expression", prec "unary_void" (seq [t "await", "expression"])),
  ("member_expression", prec "member" (seq [
    field "object" (oneOf ["expression", "primary_expression", "import"]),
    oneOf [t ".", field "optional_chain" "optional_chain"],
    field "property" (oneOf ["private_property_identifier", shown "property_identifier" "identifier"])])),
  ("subscript_expression", right "member" (seq [
    field "object" (oneOf ["expression", "primary_expression"]),
    field "optional_chain" (opt "optional_chain"), t "[", field "index" "_expressions", t "]"])),
  ("_lhs_expression", oneOf [
    "member_expression", "subscript_expression", "_identifier", shown "identifier" "_reserved_identifier",
    "_destructuring_pattern", "non_null_expression"]),
  ("assignment_expression", right "assign" (seq [
    opt (t "using"), field "left" (oneOf ["parenthesized_expression", "_lhs_expression"]), t "=",
    field "right" "expression"])),
  ("_augmented_assignment_lhs", oneOf [
    "member_expression", "subscript_expression", shown "identifier" "_reserved_identifier", "identifier",
    "parenthesized_expression", "non_null_expression"]),
  ("augmented_assignment_expression", right "assign" (seq [
    field "left" "_augmented_assignment_lhs",
    field "operator" (oneOf [
      t "+=", t "-=", t "*=", t "/=", t "%=", t "^=", t "&=", t "|=", t ">>=", t ">>>=", t "<<=", t "**=",
      t "&&=", t "||=", t "??="]),
    field "right" "expression"])),
  ("_initializer", seq [t "=", field "value" "expression"]),
  ("_destructuring_pattern", oneOf ["object_pattern", "array_pattern"]),
  ("spread_element", seq [t "...", "expression"]),
  ("ternary_expression", right "ternary" (seq [
    field "condition" "expression", shown "?" (.lexeme .ternaryMark), field "consequence" "expression",
    t ":", field "alternative" "expression"])),
  ("binary_expression", oneOf [
    left "logical_and" (seq [field "left" "expression", field "operator" (t "&&"), field "right" "expression"]),
    left "logical_or" (seq [field "left" "expression", field "operator" (t "||"), field "right" "expression"]),
    left "binary_shift" (seq [field "left" "expression", field "operator" (t ">>"), field "right" "expression"]),
    left "binary_shift" (seq [field "left" "expression", field "operator" (t ">>>"), field "right" "expression"]),
    left "binary_shift" (seq [field "left" "expression", field "operator" (t "<<"), field "right" "expression"]),
    left "bitwise_and" (seq [field "left" "expression", field "operator" (t "&"), field "right" "expression"]),
    left "bitwise_xor" (seq [field "left" "expression", field "operator" (t "^"), field "right" "expression"]),
    left "bitwise_or" (seq [field "left" "expression", field "operator" (t "|"), field "right" "expression"]),
    left "binary_plus" (seq [field "left" "expression", field "operator" (t "+"), field "right" "expression"]),
    left "binary_plus" (seq [field "left" "expression", field "operator" (t "-"), field "right" "expression"]),
    left "binary_times" (seq [field "left" "expression", field "operator" (t "*"), field "right" "expression"]),
    left "binary_times" (seq [field "left" "expression", field "operator" (t "/"), field "right" "expression"]),
    left "binary_times" (seq [field "left" "expression", field "operator" (t "%"), field "right" "expression"]),
    right "binary_exp" (seq [field "left" "expression", field "operator" (t "**"), field "right" "expression"]),
    left "binary_relation" (seq [field "left" "expression", field "operator" (t "<"), field "right" "expression"]),
    left "binary_relation" (seq [field "left" "expression", field "operator" (t "<="), field "right" "expression"]),
    left "binary_equality" (seq [field "left" "expression", field "operator" (t "=="), field "right" "expression"]),
    left "binary_equality" (seq [field "left" "expression", field "operator" (t "==="), field "right" "expression"]),
    left "binary_equality" (seq [field "left" "expression", field "operator" (t "!="), field "right" "expression"]),
    left "binary_equality" (seq [field "left" "expression", field "operator" (t "!=="), field "right" "expression"]),
    left "binary_relation" (seq [field "left" "expression", field "operator" (t ">="), field "right" "expression"]),
    left "binary_relation" (seq [field "left" "expression", field "operator" (t ">"), field "right" "expression"]),
    left "ternary" (seq [field "left" "expression", field "operator" (t "??"), field "right" "expression"]),
    left "binary_relation" (seq [field "left" "expression", field "operator" (t "instanceof"), field "right" "expression"]),
    left "binary_relation" (seq [
      field "left" (oneOf ["expression", "private_property_identifier"]), field "operator" (t "in"),
      field "right" "expression"])]),
  ("unary_expression", left "unary_void" (seq [
    field "operator" (oneOf [t "!", t "~", t "-", t "+", t "typeof", t "void", t "delete"]),
    field "argument" "expression"])),
  ("update_expression", left 0 (oneOf [
    seq [field "argument" "expression", field "operator" (oneOf [t "++", t "--"])],
    seq [field "operator" (oneOf [t "++", t "--"]), field "argument" "expression"]])),
  ("sequence_expression", right 0 (commaSep "expression"))]

end Unwire.Grammar.TypeScript
