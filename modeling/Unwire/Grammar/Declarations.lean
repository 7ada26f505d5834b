import Unwire.Grammar.Rule

namespace Unwire.Grammar.TypeScript

def declarations : List (String × Rule) := [
  ("_jsx_start_opening_element", seq [
    t "<",
    opt (seq [
      oneOf [
        field "name" (oneOf ["_jsx_identifier", "jsx_namespace_name"]),
        seq [
          field "name" (oneOf ["identifier", shown "member_expression" "nested_identifier"]),
          field "type_arguments" (opt "type_arguments")]],
      field "attribute" (star "_jsx_attribute")])]),
  ("_import_identifier", oneOf ["identifier", shown "identifier" (t "type")]),
  ("non_null_expression", left "unary" (seq ["expression", t "!"])),
  ("method_signature", seq [
    opt "accessibility_modifier", opt (t "static"), opt "override_modifier", opt (t "readonly"),
    opt (t "async"), opt (oneOf [t "get", t "set", t "*"]), field "name" "_property_name", opt (t "?"),
    "_call_signature"]),
  ("abstract_method_signature", seq [
    opt "accessibility_modifier", t "abstract", opt "override_modifier",
    opt (oneOf [t "get", t "set", t "*"]), field "name" "_property_name", opt (t "?"), "_call_signature"]),
  ("function_signature", seq [
    opt (t "async"), t "function", field "name" "identifier", "_call_signature",
    oneOf ["_semicolon", .lexeme .signatureSemicolon]]),
  ("decorator_parenthesized_expression", seq [
    t "(",
    oneOf [
      "identifier", shown "member_expression" "decorator_member_expression",
      shown "call_expression" "decorator_call_expression"],
    t ")"]),
  ("type_assertion", left "unary" (seq ["type_arguments", "expression"])),
  ("as_expression", left "binary" (seq ["expression", t "as", oneOf [t "const", "type"]])),
  ("satisfies_expression", left "binary" (seq ["expression", t "satisfies", "type"])),
  ("instantiation_expression", prec "instantiation" (seq ["expression", field "type_arguments" "type_arguments"])),
  ("import_require_clause", seq ["identifier", t "=", t "require", t "(", field "source" "string", t ")"]),
  ("extends_clause", seq [t "extends", commaSep "_extends_clause_single"]),
  ("_extends_clause_single", prec "extends" (seq [
    field "value" "expression", field "type_arguments" (opt "type_arguments")])),
  ("implements_clause", seq [t "implements", commaSep "type"]),
  ("ambient_declaration", seq [
    t "declare",
    oneOf [
      "declaration", seq [t "global", "statement_block"],
      seq [t "module", t ".", shown "property_identifier" "identifier", t ":", "type", "_semicolon"]]]),
  ("abstract_class_declaration", prec "declaration" (seq [
    field "decorator" (star "decorator"), t "abstract", t "class", field "name" "_type_identifier",
    field "type_parameters" (opt "type_parameters"), opt "class_heritage", field "body" "class_body"])),
  ("module", seq [t "module", "_module"]),
  ("internal_module", seq [t "namespace", "_module"]),
  ("_module", right 0 (seq [
    field "name" (oneOf ["string", "identifier", "nested_identifier"]),
    field "body" (opt "statement_block")])),
  ("import_alias", seq [
    t "import", "identifier", t "=", oneOf ["identifier", "nested_identifier"], "_semicolon"]),
  ("nested_type_identifier", prec "member" (seq [
    field "module" (oneOf ["identifier", "nested_identifier"]), t ".", field "name" "_type_identifier"])),
  ("interface_declaration", seq [
    t "interface", field "name" "_type_identifier", field "type_parameters" (opt "type_parameters"),
    opt "extends_type_clause", field "body" (shown "interface_body" "object_type")]),
  ("extends_type_clause", seq [
    t "extends",
    commaSep (field "type" (oneOf ["_type_identifier", "nested_type_identifier", "generic_type"]))]),
  ("enum_declaration", seq [opt (t "const"), t "enum", field "name" "identifier", field "body" "enum_body"]),
  ("enum_body", seq [
    t "\x7b", opt (seq [commaSep (oneOf [field "name" "_property_name", "enum_assignment"]), opt (t ",")]),
    t "\x7d"]),
  ("enum_assignment", seq [field "name" "_property_name", "_initializer"]),
  ("type_alias_declaration", seq [
    t "type", field "name" "_type_identifier", field "type_parameters" (opt "type_parameters"), t "=",
    field "value" "type", "_semicolon"]),
  ("accessibility_modifier", oneOf [t "public", t "private", t "protected"]),
  ("override_modifier", t "override"),
  ("required_parameter", seq ["_parameter_name", field "type" (opt "type_annotation"), opt "_initializer"]),
  ("optional_parameter", seq [
    "_parameter_name", t "?", field "type" (opt "type_annotation"), opt "_initializer"]),
  ("_parameter_name", seq [
    field "decorator" (star "decorator"), opt "accessibility_modifier", opt "override_modifier",
    opt (t "readonly"), field "pattern" (oneOf ["pattern", "this"])])]

end Unwire.Grammar.TypeScript
