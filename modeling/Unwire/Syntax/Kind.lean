import Unwire.Text.Quoted

namespace Unwire.Syntax

inductive Kind where
  | sourceFile
  | exportStatement
  | functionDeclaration
  | classDeclaration
  | methodDefinition
  | formalParameter
  | variableStatement
  | variableDeclarator
  | newExpression
  | callExpression
  | argumentList
  | objectLiteral
  | arrayLiteral
  /-- A name in the place of a value, also a property that is written as its name alone. -/
  | identifier
  | propertyName
  | typeName
  | comma
  | comment
  | error
  | other (name : String)
  deriving DecidableEq, Repr, Inhabited

namespace Kind

def ofName : String → Kind
  | "program" => sourceFile
  | "export_statement" => exportStatement
  | "function_declaration" | "generator_function_declaration" => functionDeclaration
  | "class_declaration" | "abstract_class_declaration" => classDeclaration
  | "method_definition" => methodDefinition
  | "required_parameter" | "optional_parameter" => formalParameter
  | "lexical_declaration" | "variable_declaration" => variableStatement
  | "variable_declarator" => variableDeclarator
  | "new_expression" => newExpression
  | "call_expression" => callExpression
  | "arguments" => argumentList
  | "object" => objectLiteral
  | "array" => arrayLiteral
  | "identifier" | "shorthand_property_identifier" => identifier
  | "property_identifier" => propertyName
  | "type_identifier" => typeName
  | "," => comma
  | "comment" => comment
  | "ERROR" => error
  | name => other name

def isList : Kind → Bool
  | argumentList | objectLiteral | arrayLiteral => true
  | _ => false

def isTrivia : Kind → Bool
  | comment => true
  | _ => false

def isClosingBracket : Kind → Bool
  | other name => name == ")" || name == "]" || name == "\x7d"
  | _ => false

def title : Kind → String
  | sourceFile => "SourceFile"
  | exportStatement => "ExportStatement"
  | functionDeclaration => "FunctionDeclaration"
  | classDeclaration => "ClassDeclaration"
  | methodDefinition => "MethodDefinition"
  | formalParameter => "FormalParameter"
  | variableStatement => "VariableStatement"
  | variableDeclarator => "VariableDeclarator"
  | newExpression => "NewExpression"
  | callExpression => "CallExpression"
  | argumentList => "ArgumentList"
  | objectLiteral => "ObjectLiteral"
  | arrayLiteral => "ArrayLiteral"
  | identifier => "Identifier"
  | propertyName => "PropertyName"
  | typeName => "TypeName"
  | comma => "Comma"
  | comment => "Comment"
  | error => "Error"
  | other name => "Other(" ++ Text.quoted name ++ ")"

end Kind

end Unwire.Syntax
