import BraceCompiler.Token.Basic

/-! Faults: what stops the work. A fault is a cause; its code, text, place and advice are worked out
from it. -/

namespace BraceCompiler

/-- What a reader of tokens was looking for, and where. -/
inductive Wanted where
  /-- A token with this spelling. -/
  | lexeme (text place : String)
  /-- A token of this kind. -/
  | ofKind (kind : TokenKind) (place : String)
  /-- Anything that fits the place. -/
  | fitting (place : String)
  deriving DecidableEq, Repr

def Wanted.describe : Wanted → String
  | .lexeme text place => "(expected '" ++ text ++ "' " ++ place ++ ")"
  | .ofKind kind place => "(expected " ++ kind.name ++ " " ++ place ++ ")"
  | .fitting place => place

/-- Why tokens do not form a program. -/
inductive SyntaxFault where
  /-- The next token, or the end of the tokens, is not what was wanted. -/
  | unexpected (found : Option Token) (wanted : Wanted)
  | nestedTooDeeply
  | integerOutOfRange (token : Token)
  | invalidFloat (token : Token)
  deriving DecidableEq, Repr

/-- How many expressions, operators and blocks may stand inside one another. -/
def nestingLimit : Nat := 200

def SyntaxFault.message : SyntaxFault → String
  | .unexpected (some token) wanted =>
    "Unexpected token " ++ token.kind.name ++ " '" ++ token.lexeme ++ "' " ++ wanted.describe
  | .unexpected none wanted => "Unexpected end of input " ++ wanted.describe
  | .nestedTooDeeply =>
    "Expression or block nested too deeply (limit " ++ toString nestingLimit ++ ")"
  | .integerOutOfRange token => "Integer literal '" ++ token.lexeme ++ "' is out of range"
  | .invalidFloat token => "Invalid float literal '" ++ token.lexeme ++ "'"

inductive Fault where
  | syntactic (cause : SyntaxFault) (place : Position)
  /-- An assignment to a name that is not in scope. -/
  | undeclared (name : String)
  /-- An assignment whose value does not start with the declared type of its target. -/
  | typeMismatch (name expected actual : String)
  /-- A node that cannot stand where it was found. -/
  | unknownNode (kind : String)
  /-- A node that is no expression. -/
  | notAnExpression (kind : String)
  /-- A file that could not be read or written. -/
  | file (path reason : String)
  | deniedWarnings (count : Nat)
  deriving DecidableEq, Repr

/-- A fault made ready to be shown. -/
structure Complaint where
  code : String
  message : String
  position : Option Position
  help : Option String
  deriving DecidableEq, Repr

namespace Complaint

def syntactic (message : String) (place : Position) : Complaint :=
  ⟨"E_SYNTAX", message, some place, none⟩

def withHelp (complaint : Complaint) (help : String) : Complaint :=
  { complaint with help := some help }

/-- Code and message. -/
def headline (complaint : Complaint) : String :=
  "error[" ++ complaint.code ++ "]: " ++ complaint.message

/-- One line that also tells the place, if there is one. -/
def describe (complaint : Complaint) : String :=
  match complaint.position with
  | some place => complaint.headline ++ " (" ++ place.describe ++ ")"
  | none => complaint.headline

end Complaint

def Fault.complaint : Fault → Complaint
  | .syntactic cause place => .syntactic cause.message place
  | .undeclared name =>
    ⟨"E_SCOPE", "Variable '" ++ name ++ "' not declared in current scope", none, none⟩
  | .typeMismatch name expected actual =>
    ⟨"E_TYPE",
      "Type mismatch for '" ++ name ++ "': expected '" ++ expected ++ "', got '" ++ actual ++ "'",
      none, none⟩
  | .unknownNode kind => ⟨"E_UNKNOWN_NODE", "Unknown node type: " ++ kind, none, none⟩
  | .notAnExpression kind =>
    ⟨"E_UNKNOWN_NODE", "Unsupported expression type: " ++ kind, none, none⟩
  | .file path reason => ⟨"E_IO", path ++ ": " ++ reason, none, none⟩
  | .deniedWarnings count =>
    ⟨"E_DIAGNOSTICS", toString count ++ " warning(s) treated as errors", none, none⟩

end BraceCompiler
