import BraceCompiler.Command.Settings
import BraceCompiler.Compilation
import BraceCompiler.Excerpt
import BraceCompiler.Json.Encode

/-! What a run does with its source once that has been read: the messages it gives and the text it
produces. -/

namespace BraceCompiler.Command

/-- The result of a stage, and the notes that making it gave. -/
def Stage.text (stage : Stage) (source : String) : Except Fault (String × Notices) :=
  match stage with
  | .tokens => .ok ((Json.list ((tokensOf source).map Token.toJson)).pretty 0, [])
  | .tree => do
    let program ← parse (tokensOf source)
    return ((program.toJson Literal.toJson).pretty 0, [])
  | .code => do
    let program ← parse (tokensOf source)
    match Writer.initial.write program with
    | (some fault, _) => .error fault
    | (none, writer) => return (writer.output, writer.notices)

/-- The notices of a run: the warnings about the source and, if the stage was reached, its notes. -/
def Settings.notices (settings : Settings) (source : String) : Notices :=
  match settings.emit.text source with
  | .ok (_, notes) => warningsOf source ++ notes
  | .error _ => warningsOf source

def deniedComplaint (count : Nat) : Complaint :=
  (Fault.deniedWarnings count).complaint.withHelp "fix the input or drop --deny-warnings"

/-- The text that a run produces, or why it produces none. -/
def Settings.product (settings : Settings) (source : String) : Except Complaint String :=
  match settings.emit.text source with
  | .error fault => .error fault.complaint
  | .ok (text, _) =>
    let notices := settings.notices source
    if settings.denyWarnings && notices.hasWarnings then
      .error (deniedComplaint notices.warnings.length)
    else .ok text

/-- Messages end with a line feed each. -/
def message (text : String) : String := text ++ "\n"

/-- The notices as shown: people see the warnings, programs see all. -/
def Settings.shownNotices (settings : Settings) (source : String) : String :=
  if settings.quiet then ""
  else
    let notices := settings.notices source
    match settings.format with
    | .human => String.join (notices.warnings.map fun notice =>
        message (Excerpt.renderNotice ⟨settings.input, source⟩ notice))
    | .json => message (Json.list (notices.map Notice.toJson)).compact

/-- The messages of a run, before anything is written. -/
def Settings.messages (settings : Settings) (source : String) : String :=
  settings.shownNotices source ++
    match settings.product source with
    | .ok _ => ""
    | .error complaint => message (Excerpt.renderComplaint ⟨settings.input, source⟩ complaint)

/-- The message about an input that could not be read. -/
def Settings.unreadable (settings : Settings) (reason : String) : String :=
  message (Fault.file settings.input reason).complaint.describe

/-- The message about an output that could not be written. -/
def Settings.unwritable (settings : Settings) (source path reason : String) : String :=
  message (Excerpt.renderComplaint ⟨settings.input, source⟩ (Fault.file path reason).complaint)

/-- What is written of a product. -/
def written (product : String) : String := product ++ "\n"

def versionText : String := "xec 0.1.0\n"

def usageText : String :=
  "Compile XEC source to brace-block target text\n\n" ++
  "Usage: xec [OPTIONS] <INPUT>\n\n" ++
  "Options:\n" ++
  "      --emit <EMIT>                code, tokens or ast\n" ++
  "  -o, --output <OUTPUT>            Write output here instead of stdout\n" ++
  "      --deny-warnings              Fail when the source gives any warning\n" ++
  "  -q, --quiet                      Do not print diagnostics\n" ++
  "      --diagnostics <DIAGNOSTICS>  human or json\n" ++
  "  -h, --help                       Print help\n" ++
  "  -V, --version                    Print version\n"

end BraceCompiler.Command
