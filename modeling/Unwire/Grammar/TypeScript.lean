import Unwire.Grammar.Modules
import Unwire.Grammar.Statements
import Unwire.Grammar.Expressions
import Unwire.Grammar.Markup
import Unwire.Grammar.Callables
import Unwire.Grammar.Operators
import Unwire.Grammar.Literals
import Unwire.Grammar.Members
import Unwire.Grammar.Declarations
import Unwire.Grammar.Types

namespace Unwire.Grammar

namespace TypeScript

def levelOrders : List (List Ranked) := [
  [.level "member", .level "template_call", .level "call", .rule "update_expression", .level "unary_void",
   .level "binary_exp", .level "binary_times", .level "binary_plus", .level "binary_shift",
   .level "binary_compare", .level "binary_relation", .level "binary_equality", .level "bitwise_and",
   .level "bitwise_xor", .level "bitwise_or", .level "logical_and", .level "logical_or", .level "ternary",
   .rule "sequence_expression", .rule "arrow_function"],
  [.level "assign", .rule "primary_expression"],
  [.level "member", .level "template_call", .level "new", .level "call", .rule "expression"],
  [.level "declaration", .level "literal"],
  [.rule "primary_expression", .rule "statement_block", .level "object"],
  [.rule "meta_property", .rule "import"],
  [.rule "import_statement", .rule "import"],
  [.rule "export_statement", .rule "primary_expression"],
  [.rule "lexical_declaration", .rule "primary_expression"],
  [.level "call", .level "instantiation", .level "unary", .level "binary", .rule "await_expression",
   .rule "arrow_function"],
  [.level "extends", .level "instantiation"],
  [.rule "intersection_type", .rule "union_type", .rule "conditional_type", .rule "function_type",
   .level "binary", .rule "type_predicate", .rule "readonly_type"],
  [.rule "mapped_type_clause", .rule "primary_expression"],
  [.rule "accessibility_modifier", .rule "primary_expression"],
  [.level "unary_void", .rule "expression"],
  [.rule "extends_clause", .rule "primary_expression"],
  [.level "unary", .level "assign"],
  [.level "declaration", .rule "expression"],
  [.rule "predefined_type", .rule "unary_expression"],
  [.rule "type", .rule "flow_maybe_type"],
  [.rule "tuple_type", .rule "array_type", .rule "pattern", .rule "type"],
  [.rule "readonly_type", .rule "pattern"],
  [.rule "readonly_type", .rule "primary_expression"],
  [.rule "type_query", .rule "subscript_expression", .rule "expression"],
  [.rule "type_query", .rule "_type_query_subscript_expression"],
  [.rule "nested_type_identifier", .rule "generic_type", .rule "primary_type", .rule "lookup_type",
   .rule "index_type_query", .rule "type"],
  [.rule "as_expression", .rule "satisfies_expression", .rule "primary_type"],
  [.rule "_type_query_member_expression", .rule "member_expression"],
  [.rule "member_expression", .rule "_type_query_member_expression_in_type_annotation"],
  [.rule "_type_query_member_expression", .rule "primary_expression"],
  [.rule "_type_query_subscript_expression", .rule "subscript_expression"],
  [.rule "_type_query_subscript_expression", .rule "primary_expression"],
  [.rule "_type_query_call_expression", .rule "primary_expression"],
  [.rule "_type_query_instantiation_expression", .rule "primary_expression"],
  [.rule "type_query", .rule "primary_expression"],
  [.rule "override_modifier", .rule "primary_expression"],
  [.rule "decorator_call_expression", .rule "decorator"],
  [.rule "literal_type", .rule "pattern"],
  [.rule "predefined_type", .rule "pattern"],
  [.rule "call_expression", .rule "_type_query_call_expression"],
  [.rule "call_expression", .rule "_type_query_call_expression_in_type_annotation"],
  [.rule "new_expression", .rule "primary_expression"],
  [.rule "meta_property", .rule "primary_expression"],
  [.rule "construct_signature", .rule "_property_name"]]

def hiddenRules : List String :=
  ["statement", "declaration", "expression", "primary_expression", "pattern", "type", "primary_type"]

def inlinedRules : List String :=
  ["_expressions", "_semicolon", "_identifier", "_reserved_identifier", "_jsx_attribute",
   "_jsx_element_name", "_jsx_child", "_jsx_element", "_jsx_attribute_name", "_jsx_attribute_value",
   "_jsx_identifier", "_lhs_expression", "_type_identifier", "_jsx_start_opening_element"]

end TypeScript

open TypeScript in
def typeScript (markup : Bool) : Grammar where
  rules := moduleItems ++ statements ++ expressions markup ++ TypeScript.markup ++ callables ++ operators ++
    literals ++ members ++ declarations ++ types
  hidden := hiddenRules
  inlined := inlinedRules
  unboundedWords := ["in", "instanceof", "as", "satisfies", "implements"]
  orders := levelOrders

end Unwire.Grammar
