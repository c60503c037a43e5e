import BraceCompiler.Command.Plan

/-! A whole run of the command, on any system of files. -/

namespace BraceCompiler.Command

/-- Why a file cannot be read or written. -/
inductive FileProblem where
  | notFound
  | isFolder
  | throughFile
  | nameTooLong
  | denied
  | notText
  | other (reason : String)
  deriving DecidableEq, Repr

def FileProblem.reason : FileProblem → String
  | .notFound => "No such file or directory (os error 2)"
  | .isFolder => "Is a directory (os error 21)"
  | .throughFile => "Not a directory (os error 20)"
  | .nameTooLong => "File name too long (os error 36)"
  | .denied => "Permission denied (os error 13)"
  | .notText => "stream did not contain valid UTF-8"
  | .other reason => reason

/-- What a run needs of the system around it. Printing and complaining are taken to succeed: a run whose output or
whose messages nobody can receive is left out. -/
structure Host (m : Type → Type) where
  read : (path : String) → m (Except FileProblem String)
  write : (path text : String) → m (Except FileProblem Unit)
  print : (text : String) → m Unit
  complain : (text : String) → m Unit

variable {m : Type → Type} [Monad m]

/-- Writes a product where the settings want it, and gives the exit code. -/
def Host.deliver (host : Host m) (settings : Settings) (source product : String) : m Nat := do
  match settings.output with
  | none =>
    host.print (written product)
    return 0
  | some path =>
    match ← host.write path (written product) with
    | .ok () => return 0
    | .error problem =>
      host.complain (settings.unwritable source path problem.reason)
      return 1

/-- A run with settings; gives the exit code. -/
def Host.execute (host : Host m) (settings : Settings) : m Nat := do
  match ← host.read settings.input with
  | .error problem =>
    host.complain (settings.unreadable problem.reason)
    return 1
  | .ok source =>
    host.complain (settings.messages source)
    match settings.product source with
    | .error _ => return 1
    | .ok product => host.deliver settings source product

/-- A run from its arguments; gives the exit code. -/
def Host.run (host : Host m) (arguments : List String) : m Nat := do
  match Settings.ofArguments arguments with
  | .ok settings => host.execute settings
  | .error .versionAsked =>
    host.print versionText
    return 0
  | .error .helpAsked =>
    host.print usageText
    return 0
  | .error _ =>
    host.complain usageText
    return 2

end BraceCompiler.Command
