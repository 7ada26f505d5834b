import Unwire.Grammar.Rule

namespace Unwire.Grammar.TypeScript

def statements : List (String × Rule) := [
  ("statement", oneOf [
    "export_statement", "import_statement", "debugger_statement", "expression_statement", "declaration",
    "statement_block", "if_statement", "switch_statement", "for_statement", "for_in_statement",
    "while_statement", "do_statement", "try_statement", "with_statement", "break_statement",
    "continue_statement", "return_statement", "throw_statement", "empty_statement", "labeled_statement"]),
  ("expression_statement", seq ["_expressions", "_semicolon"]),
  ("variable_declaration", seq [t "var", commaSep "variable_declarator", "_semicolon"]),
  ("lexical_declaration", seq [
    field "kind" (oneOf [t "let", t "const"]), commaSep "variable_declarator", "_semicolon"]),
  ("variable_declarator", oneOf [
    seq [
      field "name" (oneOf ["identifier", "_destructuring_pattern"]), field "type" (opt "type_annotation"),
      opt "_initializer"],
    prec "declaration" (seq [field "name" "identifier", t "!", field "type" "type_annotation"])]),
  ("statement_block", right 0 (seq [t "\x7b", star "statement", t "\x7d", opt (.lexeme .automaticSemicolon)])),
  ("else_clause", seq [t "else", "statement"]),
  ("if_statement", right 0 (seq [
    t "if", field "condition" "parenthesized_expression", field "consequence" "statement",
    field "alternative" (opt "else_clause")])),
  ("switch_statement", seq [
    t "switch", field "value" "parenthesized_expression", field "body" "switch_body"]),
  ("for_statement", seq [
    t "for", t "(",
    oneOf [
      field "initializer" (oneOf ["lexical_declaration", "variable_declaration"]),
      seq [field "initializer" "_expressions", t ";"], field "initializer" "empty_statement"],
    field "condition" (oneOf [seq ["_expressions", t ";"], "empty_statement"]),
    field "increment" (opt "_expressions"), t ")", field "body" "statement"]),
  ("for_in_statement", seq [t "for", opt (t "await"), "_for_header", field "body" "statement"]),
  ("_for_header", seq [
    t "(",
    oneOf [
      field "left" (oneOf ["_lhs_expression", "parenthesized_expression"]),
      seq [
        field "kind" (t "var"), field "left" (oneOf ["identifier", "_destructuring_pattern"]),
        opt "_initializer"],
      seq [
        field "kind" (oneOf [t "let", t "const"]),
        field "left" (oneOf ["identifier", "_destructuring_pattern"]), opt (.lexeme .automaticSemicolon)]],
    field "operator" (oneOf [t "in", t "of"]), field "right" "_expressions", t ")"]),
  ("while_statement", seq [
    t "while", field "condition" "parenthesized_expression", field "body" "statement"]),
  ("do_statement", right 0 (seq [
    t "do", field "body" "statement", t "while", field "condition" "parenthesized_expression",
    opt "_semicolon"])),
  ("try_statement", seq [
    t "try", field "body" "statement_block", field "handler" (opt "catch_clause"),
    field "finalizer" (opt "finally_clause")]),
  ("with_statement", seq [t "with", field "object" "parenthesized_expression", field "body" "statement"]),
  ("break_statement", seq [
    t "break", field "label" (opt (shown "statement_identifier" "identifier")), "_semicolon"]),
  ("continue_statement", seq [
    t "continue", field "label" (opt (shown "statement_identifier" "identifier")), "_semicolon"]),
  ("debugger_statement", seq [t "debugger", "_semicolon"]),
  ("return_statement", seq [t "return", opt "_expressions", "_semicolon"]),
  ("throw_statement", seq [t "throw", "_expressions", "_semicolon"]),
  ("empty_statement", t ";"),
  ("labeled_statement", bonus (-1) (seq [
    field "label" (shown "statement_identifier" (oneOf ["identifier", "_reserved_identifier"])), t ":",
    field "body" "statement"])),
  ("switch_body", seq [t "\x7b", star (oneOf ["switch_case", "switch_default"]), t "\x7d"]),
  ("switch_case", seq [t "case", field "value" "_expressions", t ":", field "body" (star "statement")]),
  ("switch_default", seq [t "default", t ":", field "body" (star "statement")]),
  ("catch_clause", seq [
    t "catch",
    opt (seq [
      t "(", field "parameter" (oneOf ["identifier", "_destructuring_pattern"]),
      field "type" (opt "type_annotation"), t ")"]),
    field "body" "statement_block"]),
  ("finally_clause", seq [t "finally", field "body" "statement_block"])]

end Unwire.Grammar.TypeScript
