import BraceCompiler.Reading.Cursor
import BraceCompiler.Target.Writer
import BraceCompiler.Token.Piece

/-! From source text to program text. -/

namespace BraceCompiler

structure Compilation where
  tokens : List Token
  program : Node
  lines : List String
  /-- The warnings about the source, then the notes of the writer. -/
  notices : Notices

def Compilation.output (compilation : Compilation) : String := "\n".intercalate compilation.lines

/-- Cuts, parses and writes a source text. The first fault ends the work, and warnings never do. -/
def compile (source : String) : Except Fault Compilation := do
  let program ← parse (tokensOf source)
  match Writer.initial.write program with
  | (some fault, _) => .error fault
  | (none, writer) =>
    return ⟨tokensOf source, program, writer.lines, warningsOf source ++ writer.notices⟩

end BraceCompiler
