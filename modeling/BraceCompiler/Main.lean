import BraceCompiler.Command.Run

/-! The command itself. -/

namespace BraceCompiler.Command

/-- The number that the system gives an error; some calls report it with its sign turned. -/
def errorNumber (code : UInt32) : UInt32 := if code < 0x80000000 then code else 0 - code

def problemOf (error : IO.Error) : FileProblem :=
  match error with
  | .noFileOrDirectory .. => .notFound
  | .inappropriateType _ code _ => if errorNumber code = 20 then .throughFile else .isFolder
  | .invalidArgument _ code _ =>
    if errorNumber code = 36 then .nameTooLong else .other (toString error)
  | .permissionDenied _ code _ =>
    if errorNumber code = 13 then .denied else .other (toString error)
  | _ => .other (toString error)

def systemHost : Host IO where
  read path := do
    try
      match String.fromUTF8? (← IO.FS.readBinFile path) with
      | some text => return .ok text
      | none => return .error .notText
    catch error => return .error (problemOf error)
  write path text := do
    try
      IO.FS.writeFile path text
      return .ok ()
    catch error => return .error (problemOf error)
  print text := IO.print text
  complain text := IO.eprint text

end BraceCompiler.Command

def main (arguments : List String) : IO UInt32 := do
  return (← BraceCompiler.Command.systemHost.run arguments).toUInt32
