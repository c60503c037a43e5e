import BraceCompiler.Notice
import BraceCompiler.Target.Bindings
import BraceCompiler.Target.Step
import BraceCompiler.Text.Basic

/-! Carrying out the steps of writing. A writer is kept over several programs: the lines of a
program are added only if all its steps succeed, but the bindings and notes of a failed one stay. -/

namespace BraceCompiler

/-- An assignment needs a bound target. If the target has a declared type, the first word of the
value has to be that type. -/
def checkAssignment (bindings : Bindings) (name : String) (value : Except Fault String) :
    Except Fault Bindings := do
  match bindings.get? name with
  | none => .error (.undeclared name)
  | some type =>
    let text ← value
    match type with
    | none => return bindings.bind name none
    | some expected =>
      let actual := Text.firstWord text
      if expected = actual then return bindings.bind name (some expected)
      else .error (.typeMismatch name expected actual)

/-- What carrying out steps leaves behind. -/
structure Outcome where
  lines : List String
  bindings : Bindings
  notes : Notices
  fault : Option Fault

namespace Step

/-- Carries out the steps in order, up to the first that fails. -/
def runAll : List Step → Bindings → Outcome
  | [], bindings => ⟨[], bindings, [], none⟩
  | .write (.ok line) :: rest, bindings =>
    let later := runAll rest bindings
    { later with lines := line :: later.lines }
  | .write (.error fault) :: _, bindings => ⟨[], bindings, [], some fault⟩
  | .enter function parameters :: rest, _ =>
    let later := runAll rest (.ofParameters parameters)
    { later with notes := .functionEntered function parameters.length :: later.notes }
  | .assign name value :: rest, bindings =>
    match checkAssignment bindings name value with
    | .ok bindings => runAll rest bindings
    | .error fault => ⟨[], bindings, [], some fault⟩

end Step

structure Writer where
  lines : List String
  bindings : Bindings
  notices : Notices

namespace Writer

def initial : Writer := ⟨[], .empty, []⟩

/-- Writes one more program; the fault, if there is one. -/
def write (writer : Writer) (node : Node) : Option Fault × Writer :=
  let outcome := Step.runAll node.steps writer.bindings
  let lines :=
    match outcome.fault with
    | none => writer.lines ++ outcome.lines
    | some _ => writer.lines
  (outcome.fault, ⟨lines, outcome.bindings, writer.notices ++ outcome.notes⟩)

/-- Hands over the notices held and keeps none. -/
def takeNotices (writer : Writer) : Notices × Writer :=
  (writer.notices, { writer with notices := [] })

/-- All lines as one text. -/
def output (writer : Writer) : String := "\n".intercalate writer.lines

end Writer

/-- The lines of one program. -/
def generate (node : Node) : Except Fault (List String) :=
  match Writer.initial.write node with
  | (none, writer) => .ok writer.lines
  | (some fault, _) => .error fault

end BraceCompiler
