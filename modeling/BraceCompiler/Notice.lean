import BraceCompiler.Position

/-! Notices: what is reported beside a result without stopping the work. -/

namespace BraceCompiler

inductive Severity where
  | warning
  | note
  deriving DecidableEq, Repr

def Severity.name : Severity → String
  | .warning => "warning"
  | .note => "note"

structure Notice where
  severity : Severity
  code : String
  message : String
  position : Option Position
  deriving DecidableEq, Repr

namespace Notice

def warning (code message : String) (place : Position) : Notice :=
  ⟨.warning, code, message, some place⟩

def note (code message : String) : Notice := ⟨.note, code, message, none⟩

/-- A text literal without its closing quote was given one. -/
def unclosedText (place : Position) : Notice :=
  warning "W_UNCLOSED_STRING" "Unclosed string literal; closing it automatically" place

/-- A character that starts no token, right after a name, was read as the operator `inserted`. -/
def missingOperator (found inserted : String) (place : Position) : Notice :=
  warning "W_MISSING_OPERATOR"
    ("Missing operator before '" ++ found ++ "'; inserting '" ++ inserted ++ "'") place

/-- A character that starts no token was dropped; `shown` is its name in the message. -/
def invalidCharacter (shown : String) (place : Position) : Notice :=
  warning "W_INVALID_CHARACTER" ("Skipping invalid character '" ++ shown ++ "'") place

def scopeEntered (scope : String) : Notice :=
  note "N_SCOPE_ENTER" ("Entering function scope: " ++ scope)

def scopeLeft (scope : String) : Notice :=
  note "N_SCOPE_EXIT" ("Exiting function scope: " ++ scope)

def variableDeclared (name scope : String) : Notice :=
  note "N_SCOPE_DECLARE" ("Added variable '" ++ name ++ "' to scope '" ++ scope ++ "'")

def functionEntered (name : String) (parameters : Nat) : Notice :=
  note "N_FUNCTION_SCOPE"
    ("Entering function '" ++ name ++ "': scope replaced with " ++ toString parameters ++
      " parameter(s)")

def isWarning (notice : Notice) : Bool := notice.severity == .warning

/-- Severity, code and message. -/
def headline (notice : Notice) : String :=
  notice.severity.name ++ "[" ++ notice.code ++ "]: " ++ notice.message

/-- One line that also tells the place, if there is one. -/
def describe (notice : Notice) : String :=
  match notice.position with
  | some place => notice.headline ++ " (" ++ place.describe ++ ")"
  | none => notice.headline

end Notice

/-- Notices in the order in which they arose. -/
abbrev Notices := List Notice

namespace Notices

def warnings (notices : Notices) : Notices := notices.filter Notice.isWarning

def hasWarnings (notices : Notices) : Bool := notices.any Notice.isWarning

def withCode (notices : Notices) (code : String) : Notices :=
  notices.filter fun notice => notice.code == code

end Notices

end BraceCompiler
