namespace Unwire.Grammar

inductive Lexeme where
  | hashBang
  | identifier
  | privateName
  | comment
  | number
  | escape
  | doubleRun
  | singleRun
  | doubleMarkupRun
  | singleMarkupRun
  | markupName
  | characterReference
  | regexBody
  | regexEnd
  | regexFlags
  | automaticSemicolon
  | templateRun
  | ternaryMark
  | markupComment
  | markupText
  | signatureSemicolon
  deriving DecidableEq, Hashable, Repr

namespace Lexeme

def kind : Lexeme → String
  | hashBang => "hash_bang_line"
  | identifier => "identifier"
  | privateName => "private_property_identifier"
  | comment => "comment"
  | number => "number"
  | escape => "escape_sequence"
  | doubleRun => "unescaped_double_string_fragment"
  | singleRun => "unescaped_single_string_fragment"
  | doubleMarkupRun => "unescaped_double_jsx_string_fragment"
  | singleMarkupRun => "unescaped_single_jsx_string_fragment"
  | markupName => "jsx_identifier"
  | characterReference => "html_character_reference"
  | regexBody => "regex_pattern"
  | regexEnd => "/"
  | regexFlags => "regex_flags"
  | automaticSemicolon => "_automatic_semicolon"
  | templateRun => "_template_chars"
  | ternaryMark => "_ternary_qmark"
  | markupComment => "html_comment"
  | markupText => "jsx_text"
  | signatureSemicolon => "_function_signature_automatic_semicolon"

/-- Tokens whose extent depends on more than their own characters, in the order in which they are numbered. -/
def contextual : List Lexeme :=
  [automaticSemicolon, templateRun, ternaryMark, markupComment, markupText, signatureSemicolon]

def immediate : Lexeme → Bool
  | escape | doubleRun | singleRun | doubleMarkupRun | singleMarkupRun | regexBody | regexEnd | regexFlags => true
  | _ => false

/-- Of two tokens that fit, the one of higher rank is taken, however long the other is. -/
def rank : Lexeme → Int
  | doubleRun | singleRun | doubleMarkupRun | singleMarkupRun | regexEnd => 1
  | regexBody => -1
  | _ => 0

def extra : Lexeme → Bool
  | comment | markupComment => true
  | _ => false

end Lexeme

end Unwire.Grammar
