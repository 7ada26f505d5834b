import Unwire.Grammar.Rule

namespace Unwire.Grammar.TypeScript

def moduleItems : List (String × Rule) := [
  ("program", seq [opt "hash_bang_line", star "statement"]),
  ("hash_bang_line", .lexeme .hashBang),
  ("export_statement", oneOf [
    seq [
      t "export",
      oneOf [
        seq [t "*", "_from_clause"], seq ["namespace_export", "_from_clause"],
        seq ["export_clause", "_from_clause"], "export_clause"],
      "_semicolon"],
    seq [
      field "decorator" (star "decorator"), t "export",
      oneOf [
        field "declaration" "declaration",
        seq [
          t "default",
          oneOf [field "declaration" "declaration", seq [field "value" "expression", "_semicolon"]]]]],
    seq [t "export", t "type", "export_clause", opt "_from_clause", "_semicolon"],
    seq [t "export", t "=", "expression", "_semicolon"],
    seq [t "export", t "as", t "namespace", "identifier", "_semicolon"]]),
  ("namespace_export", seq [t "*", t "as", "_module_export_name"]),
  ("export_clause", seq [t "\x7b", opt (commaSep "export_specifier"), opt (t ","), t "\x7d"]),
  ("export_specifier", seq [
    opt (oneOf [t "type", t "typeof"]), field "name" "_module_export_name",
    opt (seq [t "as", field "alias" "_module_export_name"])]),
  ("_module_export_name", oneOf ["identifier", "string"]),
  ("declaration", oneOf [
    "function_declaration", "generator_function_declaration", "class_declaration", "lexical_declaration",
    "variable_declaration", "function_signature", "abstract_class_declaration", "module",
    prec "declaration" "internal_module", "type_alias_declaration", "enum_declaration",
    "interface_declaration", "import_alias", "ambient_declaration"]),
  ("import", t "import"),
  ("import_statement", seq [
    t "import", opt (oneOf [t "type", t "typeof"]),
    oneOf [seq ["import_clause", "_from_clause"], "import_require_clause", field "source" "string"],
    opt "import_attribute", "_semicolon"]),
  ("import_clause", oneOf [
    "namespace_import", "named_imports",
    seq ["_import_identifier", opt (seq [t ",", oneOf ["namespace_import", "named_imports"]])]]),
  ("_from_clause", seq [t "from", field "source" "string"]),
  ("namespace_import", seq [t "*", t "as", "identifier"]),
  ("named_imports", seq [t "\x7b", opt (commaSep "import_specifier"), opt (t ","), t "\x7d"]),
  ("import_specifier", seq [
    opt (oneOf [t "type", t "typeof"]),
    oneOf [
      field "name" "_import_identifier",
      seq [
        field "name" (oneOf ["_module_export_name", shown "identifier" (t "type")]), t "as",
        field "alias" "_import_identifier"]]]),
  ("import_attribute", seq [oneOf [t "with", t "assert"], "object"])]

end Unwire.Grammar.TypeScript
