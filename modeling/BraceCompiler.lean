import BraceCompiler.Command.Directory
import BraceCompiler.Command.Path
import BraceCompiler.Command.Plan
import BraceCompiler.Command.Run
import BraceCompiler.Command.Settings
import BraceCompiler.Compilation
import BraceCompiler.Excerpt
import BraceCompiler.Fault
import BraceCompiler.Json.Basic
import BraceCompiler.Json.Encode
import BraceCompiler.Main
import BraceCompiler.Node.Basic
import BraceCompiler.Notice
import BraceCompiler.Number.Binary64
import BraceCompiler.Number.Integer
import BraceCompiler.Number.Layout
import BraceCompiler.Number.Shortest
import BraceCompiler.Position
import BraceCompiler.Reading.Basic
import BraceCompiler.Reading.Cursor
import BraceCompiler.Reading.Expression
import BraceCompiler.Reading.Statement
import BraceCompiler.Scanner
import BraceCompiler.Scopes
import BraceCompiler.Table
import BraceCompiler.Target.Bindings
import BraceCompiler.Target.Expression
import BraceCompiler.Target.Step
import BraceCompiler.Target.Writer
import BraceCompiler.Text.Alphabetic
import BraceCompiler.Text.Basic
import BraceCompiler.Text.Category
import BraceCompiler.Text.Word
import BraceCompiler.Token.Basic
import BraceCompiler.Token.Piece
import BraceCompiler.Token.Rule
import BraceCompiler.Token.Words
import BraceCompiler.Proofs.Reading.Phrase
import BraceCompiler.Proofs.Reading.Sequence
import BraceCompiler.Proofs.Reading.Built
import BraceCompiler.Proofs.Reading.Grammar
import BraceCompiler.Proofs.Reading.Expressions
import BraceCompiler.Proofs.Reading.Statements
import BraceCompiler.Proofs.Token.Scan
import BraceCompiler.Proofs.Reading.Programs
import BraceCompiler.Proofs.Token.Account
import BraceCompiler.Proofs.Token.Places
import BraceCompiler.Proofs.Reading.Room
import BraceCompiler.Proofs.Token.Clean
import BraceCompiler.Proofs.Token.Spelling
import BraceCompiler.Proofs.Target.Expressions
import BraceCompiler.Proofs.Target.Lines
import BraceCompiler.Proofs.Target.Statements
import BraceCompiler.Proofs.Recompilation
import BraceCompiler.Proofs.Table
import BraceCompiler.Proofs.Target.Entries
import BraceCompiler.Proofs.Reading.Orderly
import BraceCompiler.Proofs.Reading.Respelling
import BraceCompiler.Proofs.Reading.Shapes
import BraceCompiler.Proofs.Faults
import BraceCompiler.Proofs.Reading.Heights
import BraceCompiler.Proofs.Reading.Completion
import BraceCompiler.Proofs.Target.Visit
import BraceCompiler.Proofs.Target.Text
import BraceCompiler.Proofs.Reading.Concatenation
import BraceCompiler.Proofs.Token.Declarator
import BraceCompiler.Proofs.Token.Seam
import BraceCompiler.Proofs.Token.Respacing
import BraceCompiler.Proofs.Token.Pattern
import BraceCompiler.Proofs.Token.Lexicon
import BraceCompiler.Proofs.Scanner
import BraceCompiler.Proofs.Json.Reader
import BraceCompiler.Proofs.Command.Files
import BraceCompiler.Proofs.Command.Agreement
import BraceCompiler.Proofs.Command.Artifact
import BraceCompiler.Proofs.Target.Rereading
import BraceCompiler.Proofs.Target.Landmarks
import BraceCompiler.Proofs.Typing
import BraceCompiler.Proofs.Token.Lexemes
import BraceCompiler.Proofs.Reading.Numerals
import BraceCompiler.Proofs.Token.Unclosed
import BraceCompiler.Proofs.Token.Reserved
import BraceCompiler.Proofs.Token.Lookahead
import BraceCompiler.Proofs.Token.Boundary
import BraceCompiler.Proofs.Token.Gaps
import BraceCompiler.Proofs.Excerpt
import BraceCompiler.Proofs.Json.Tree
import BraceCompiler.Proofs.Target.Brackets
import BraceCompiler.Proofs.Scopes
import BraceCompiler.Proofs.Reading.Routine
import BraceCompiler.Proofs.Reading.Follows
import BraceCompiler.Proofs.Reading.Discipline
