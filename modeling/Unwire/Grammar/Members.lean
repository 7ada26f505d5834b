import Unwire.Grammar.Rule

namespace Unwire.Grammar.TypeScript

def members : List (String × Rule) := [
  ("arguments", seq [t "(", opt (commaSep (opt (oneOf ["expression", "spread_element"]))), t ")"]),
  ("decorator", seq [
    t "@",
    oneOf [
      "identifier", shown "member_expression" "decorator_member_expression",
      shown "call_expression" "decorator_call_expression",
      shown "parenthesized_expression" "decorator_parenthesized_expression"]]),
  ("decorator_member_expression", prec "member" (seq [
    field "object" (oneOf ["identifier", shown "member_expression" "decorator_member_expression"]), t ".",
    field "property" (shown "property_identifier" "identifier")])),
  ("decorator_call_expression", prec "call" (seq [
    field "function" (oneOf ["identifier", shown "member_expression" "decorator_member_expression"]),
    field "type_arguments" (opt "type_arguments"), field "arguments" "arguments"])),
  ("class_body", seq [
    t "\x7b",
    star (oneOf [
      seq [field "decorator" (star "decorator"), "method_definition", opt "_semicolon"],
      seq ["method_signature", oneOf [.lexeme .signatureSemicolon, t ","]], "class_static_block",
      seq [
        oneOf ["abstract_method_signature", "index_signature", "method_signature", "public_field_definition"],
        oneOf ["_semicolon", t ","]],
      t ";"]),
    t "\x7d"]),
  ("field_definition", seq [
    field "decorator" (star "decorator"), opt (t "static"), field "property" "_property_name",
    opt "_initializer"]),
  ("formal_parameters", seq [t "(", opt (seq [commaSep "_formal_parameter", opt (t ",")]), t ")"]),
  ("class_static_block", seq [t "static", opt (.lexeme .automaticSemicolon), field "body" "statement_block"]),
  ("pattern", bonus (-1) (oneOf ["_lhs_expression", "rest_pattern"])),
  ("rest_pattern", right 0 (seq [t "...", "_lhs_expression"])),
  ("method_definition", left 0 (seq [
    opt "accessibility_modifier", opt (t "static"), opt "override_modifier", opt (t "readonly"),
    opt (t "async"), opt (oneOf [t "get", t "set", t "*"]), field "name" "_property_name", opt (t "?"),
    "_call_signature", field "body" "statement_block"])),
  ("pair", seq [field "key" "_property_name", t ":", field "value" "expression"]),
  ("pair_pattern", seq [
    field "key" "_property_name", t ":", field "value" (oneOf ["pattern", "assignment_pattern"])]),
  ("_property_name", oneOf [
    shown "property_identifier" (oneOf ["identifier", "_reserved_identifier"]),
    "private_property_identifier", "string", "number", "computed_property_name"]),
  ("computed_property_name", seq [t "[", "expression", t "]"]),
  ("_reserved_identifier", oneOf [
    t "declare", t "namespace", t "type", t "public", t "private", t "protected", t "override",
    t "readonly", t "module", t "any", t "number", t "boolean", t "string", t "symbol", t "export",
    t "object", t "new", t "readonly", t "get", t "set", t "async", t "static", t "export", t "let"]),
  ("_semicolon", oneOf [.lexeme .automaticSemicolon, t ";"]),
  ("public_field_definition", seq [
    field "decorator" (star "decorator"),
    opt (oneOf [seq [t "declare", opt "accessibility_modifier"], seq ["accessibility_modifier", opt (t "declare")]]),
    opt (oneOf [
      seq [opt (t "static"), opt "override_modifier", opt (t "readonly")],
      seq [opt (t "abstract"), opt (t "readonly")], seq [opt (t "readonly"), opt (t "abstract")],
      t "accessor"]),
    field "name" "_property_name", opt (oneOf [t "?", t "!"]), field "type" (opt "type_annotation"),
    opt "_initializer"])]

end Unwire.Grammar.TypeScript
