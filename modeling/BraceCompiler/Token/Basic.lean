import BraceCompiler.Position

/-! Tokens: the units that a source text is cut into. -/

namespace BraceCompiler

inductive TokenKind where
  | keyword
  | dataType
  | identifier
  | number
  | float
  | text
  | boolean
  | arrayStart
  | arrayEnd
  | tupleStart
  | tupleEnd
  | colon
  | comma
  | operator
  | assignment
  | delimiter
  | comment
  | blank
  | mismatch
  deriving DecidableEq, Repr

namespace TokenKind

def name : TokenKind → String
  | .keyword => "KEYWORD"
  | .dataType => "DATA_TYPE"
  | .identifier => "IDENTIFIER"
  | .number => "NUMBER"
  | .float => "FLOAT"
  | .text => "STRING"
  | .boolean => "BOOLEAN"
  | .arrayStart => "ARRAY_START"
  | .arrayEnd => "ARRAY_END"
  | .tupleStart => "TUPLE_START"
  | .tupleEnd => "TUPLE_END"
  | .colon => "COLON"
  | .comma => "COMMA"
  | .operator => "OPERATOR"
  | .assignment => "ASSIGNMENT"
  | .delimiter => "DELIMITER"
  | .comment => "COMMENT"
  | .blank => "WHITESPACE"
  | .mismatch => "MISMATCH"

/-- Every kind. -/
def all : List TokenKind := [
  .keyword, .dataType, .identifier, .number, .float, .text, .boolean,
  .arrayStart, .arrayEnd, .tupleStart, .tupleEnd, .colon, .comma, .operator,
  .assignment, .delimiter, .comment, .blank, .mismatch]

/-- Kinds that are recognised in a source text but stand for no token of the result. -/
def isDropped : TokenKind → Bool
  | .comment | .blank | .mismatch => true
  | _ => false

end TokenKind

structure Token where
  kind : TokenKind
  lexeme : String
  position : Position
  deriving DecidableEq, Repr

namespace Token

def is (token : Token) (kind : TokenKind) (lexeme : String) : Bool :=
  token.kind == kind && token.lexeme == lexeme

def describe (token : Token) : String :=
  token.kind.name ++ " '" ++ token.lexeme ++ "' at " ++ token.position.describe

end Token

end BraceCompiler
