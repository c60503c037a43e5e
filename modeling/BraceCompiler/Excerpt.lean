import BraceCompiler.Fault
import BraceCompiler.Notice
import BraceCompiler.Text.Basic

/-! Reports for readers: a headline, the place, and the line of the source with a mark under the
place. -/

namespace BraceCompiler

/-- A source text and the name it goes by. -/
structure Excerpt where
  file : String
  source : String

namespace Excerpt

/-- The line with this number, counted from one (zero counts as one); empty past the last line. -/
def line (excerpt : Excerpt) (number : Nat) : List Char :=
  ((Text.lines excerpt.source.toList)[number - 1]?).getD []

/-- Blanks for the first `width` columns of a line; a tab stands where the line has one. -/
def padding : (line : List Char) → (width : Nat) → List Char
  | _, 0 => []
  | [], width + 1 => ' ' :: padding [] width
  | c :: rest, width + 1 => (if c = '\t' then '\t' else ' ') :: padding rest width

def padLeft (width : Nat) (text : String) : String :=
  String.ofList (List.replicate (width - text.length) ' ') ++ text

/-- The place, its line, and a mark under its column. -/
def location (excerpt : Excerpt) (place : Position) : String :=
  let line := excerpt.line place.line
  "\n  --> " ++ excerpt.file ++ ":" ++ toString place.line ++ ":" ++ toString place.column ++
    "\n   |\n" ++ padLeft 3 (toString place.line) ++ " | " ++ String.ofList line ++
    "\n   | " ++ String.ofList (padding line (place.column - 1)) ++ "^"

/-- A headline with its location, if there is one. -/
def withLocation (excerpt : Excerpt) (headline : String) (place : Option Position) : String :=
  match place with
  | some place => headline ++ excerpt.location place
  | none => headline

def renderNotice (excerpt : Excerpt) (notice : Notice) : String :=
  excerpt.withLocation notice.headline notice.position

/-- Advice comes last, in a line of its own. -/
def renderComplaint (excerpt : Excerpt) (complaint : Complaint) : String :=
  let shown := excerpt.withLocation complaint.headline complaint.position
  match complaint.help with
  | some help => shown ++ "\nhelp: " ++ help
  | none => shown

end Excerpt

end BraceCompiler
