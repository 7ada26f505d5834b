import Unwire.Grammar.Rule

namespace Unwire.Grammar.TypeScript

def literals : List (String × Rule) := [
  ("string", oneOf [
    seq [
      t "\"", star (oneOf [shown "string_fragment" "unescaped_double_string_fragment", "escape_sequence"]),
      t "\""],
    seq [
      t "'", star (oneOf [shown "string_fragment" "unescaped_single_string_fragment", "escape_sequence"]),
      t "'"]]),
  ("unescaped_double_string_fragment", .lexeme .doubleRun),
  ("unescaped_single_string_fragment", .lexeme .singleRun),
  ("escape_sequence", .lexeme .escape),
  ("comment", .lexeme .comment),
  ("template_string", seq [
    t "`",
    star (oneOf [shown "string_fragment" (.lexeme .templateRun), "escape_sequence", "template_substitution"]),
    t "`"]),
  ("template_substitution", seq [t "$\x7b", "_expressions", t "\x7d"]),
  ("regex", seq [
    t "/", field "pattern" "regex_pattern", .lexeme .regexEnd, opt (field "flags" "regex_flags")]),
  ("regex_pattern", .lexeme .regexBody),
  ("regex_flags", .lexeme .regexFlags),
  ("number", .lexeme .number),
  ("_identifier", oneOf ["undefined", "identifier"]),
  ("identifier", .lexeme .identifier),
  ("private_property_identifier", .lexeme .privateName),
  ("meta_property", oneOf [seq [t "new", t ".", t "target"], seq [t "import", t ".", t "meta"]]),
  ("this", t "this"),
  ("super", t "super"),
  ("true", t "true"),
  ("false", t "false"),
  ("null", t "null"),
  ("undefined", t "undefined")]

end Unwire.Grammar.TypeScript
