import Unwire.Grammar.Rule

namespace Unwire.Grammar.TypeScript

def markup : List (String × Rule) := [
  ("_jsx_element", oneOf ["jsx_element", "jsx_self_closing_element"]),
  ("jsx_element", seq [
    field "open_tag" "jsx_opening_element", star "_jsx_child", field "close_tag" "jsx_closing_element"]),
  ("html_character_reference", .lexeme .characterReference),
  ("jsx_expression", seq [
    t "\x7b", opt (oneOf ["expression", "sequence_expression", "spread_element"]), t "\x7d"]),
  ("_jsx_child", oneOf [.lexeme .markupText, "html_character_reference", "_jsx_element", "jsx_expression"]),
  ("jsx_opening_element", bonus (-1) (seq ["_jsx_start_opening_element", t ">"])),
  ("jsx_identifier", .lexeme .markupName),
  ("_jsx_identifier", oneOf [shown "identifier" "jsx_identifier", "identifier"]),
  ("nested_identifier", prec "member" (seq [
    field "object" (oneOf ["identifier", shown "member_expression" "nested_identifier"]), t ".",
    field "property" (shown "property_identifier" "identifier")])),
  ("jsx_namespace_name", seq ["_jsx_identifier", t ":", "_jsx_identifier"]),
  ("_jsx_element_name", oneOf [
    "_jsx_identifier", shown "member_expression" "nested_identifier", "jsx_namespace_name"]),
  ("jsx_closing_element", seq [t "</", field "name" (opt "_jsx_element_name"), t ">"]),
  ("jsx_self_closing_element", bonus (-1) (seq ["_jsx_start_opening_element", t "/>"])),
  ("_jsx_attribute", oneOf ["jsx_attribute", "jsx_expression"]),
  ("_jsx_attribute_name", oneOf [shown "property_identifier" "_jsx_identifier", "jsx_namespace_name"]),
  ("jsx_attribute", seq ["_jsx_attribute_name", opt (seq [t "=", "_jsx_attribute_value"])]),
  ("_jsx_string", oneOf [
    seq [
      t "\"",
      star (oneOf [shown "string_fragment" "unescaped_double_jsx_string_fragment", "html_character_reference"]),
      t "\""],
    seq [
      t "'",
      star (oneOf [shown "string_fragment" "unescaped_single_jsx_string_fragment", "html_character_reference"]),
      t "'"]]),
  ("unescaped_double_jsx_string_fragment", .lexeme .doubleMarkupRun),
  ("unescaped_single_jsx_string_fragment", .lexeme .singleMarkupRun),
  ("_jsx_attribute_value", oneOf [shown "string" "_jsx_string", "jsx_expression", "_jsx_element"])]

end Unwire.Grammar.TypeScript
