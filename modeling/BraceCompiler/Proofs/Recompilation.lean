import BraceCompiler.Compilation
import BraceCompiler.Proofs.Reading.Programs
import BraceCompiler.Proofs.Reading.Room
import BraceCompiler.Proofs.Target.Statements

/-! What is written can be compiled again, and gives itself. -/

namespace BraceCompiler

open Grammar

/-- The writer takes all steps of the program. -/
def Writes (program : Node) : Prop := (Step.runAll program.steps .empty).fault = none

theorem compile_of_parse {source : String} {program : Node} (parsed : parse (tokensOf source) = .ok program)
    (writes : Writes program) :
    compile source = .ok ⟨tokensOf source, program, Step.linesOf program.steps,
      warningsOf source ++ (Step.runAll program.steps .empty).notes⟩ := by
  have written : Writer.initial.write program = (none, ⟨Step.linesOf program.steps,
      (Step.runAll program.steps .empty).bindings, (Step.runAll program.steps .empty).notes⟩) := by
    rw [← Step.runAll_lines writes, Writer.write]
    simp only [Writer.initial, List.nil_append]
    rw [writes]
  rw [compile, parsed]
  simp only [bind, Except.bind]
  rw [written]
  rfl

theorem compile_eq_ok {source : String} {compilation : Compilation}
    (compiled : compile source = .ok compilation) :
    parse (tokensOf source) = .ok compilation.program ∧ Writes compilation.program ∧
      compilation.tokens = tokensOf source ∧ compilation.lines = Step.linesOf compilation.program.steps := by
  cases parsed : parse (tokensOf source) with
  | error fault =>
      rw [compile, parsed] at compiled
      cases compiled
  | ok program =>
      cases finished : (Step.runAll program.steps .empty).fault with
      | none =>
          rw [compile_of_parse parsed finished] at compiled
          cases compiled
          exact ⟨rfl, finished, rfl, rfl⟩
      | some fault =>
          have stopped : (Writer.initial.write program).1 = some fault := finished
          rw [compile, parsed] at compiled
          simp only [bind, Except.bind] at compiled
          split at compiled
          · cases compiled
          · rename_i written
            rw [written] at stopped
            cases stopped

/-- The tokens of the source can all be written again: no text literal, no fraction, no declarator. -/
def PlainTokens (tokens : List Token) : Prop :=
  ∀ token ∈ tokens, token.kind ≠ .text ∧ token.kind ≠ .float ∧ token.lexeme ≠ Words.declarator

instance (tokens : List Token) : Decidable (PlainTokens tokens) :=
  inferInstanceAs (Decidable (∀ token ∈ tokens,
    token.kind ≠ .text ∧ token.kind ≠ .float ∧ token.lexeme ≠ Words.declarator))

theorem plainWord_of_clean {source : String} (clean : warningsOf source = [])
    (plain : PlainTokens (tokensOf source)) : PlainWord ((tokensOf source).map Token.symbol) := by
  have kinds : ∀ symbol ∈ (tokensOf source).map Token.symbol, symbol.kind ≠ .text ∧ symbol.kind ≠ .float := by
    intro symbol listed
    obtain ⟨token, member, rfl⟩ := List.mem_map.mp listed
    exact ⟨(plain token member).1, (plain token member).2.1⟩
  have names := (lexes_of_clean clean).names nofun
  intro symbol listed
  obtain ⟨token, member, rfl⟩ := List.mem_map.mp listed
  refine ⟨kinds _ listed, language_of_symbol listed, fun kind => ?_⟩
  exact (names _ listed kind).resolve_left (plain token member).2.2

/-- Compiling the output again gives the same lines and no warning, and the same program but for its empty
`else` blocks. -/
def Reproduces (compilation : Compilation) : Prop := ∃ again, compile compilation.output = .ok again ∧
  again.lines = compilation.lines ∧ again.notices.hasWarnings = false ∧
  again.program = compilation.program.withoutEmptyElse

section

variable {source : String} {compilation : Compilation}

theorem output_derives (compiled : compile source = .ok compilation) (clean : warningsOf source = [])
    (plain : PlainTokens (tokensOf source)) {limit : Nat} (more : nestingLimit ≤ limit)
    (fits : Fits limit (compilation.program.values 0)) :
    warningsOf compilation.output = [] ∧ ∃ body, compilation.program.withoutEmptyElse = .program body ∧
      Statements limit 0 ((tokensOf compilation.output).map Token.symbol) body := by
  obtain ⟨parsed, -, -, lines⟩ := compile_eq_ok compiled
  obtain ⟨body, same, statements⟩ := (parse_eq_ok_iff (spelled_tokensOf source)).mp parsed
  rw [same] at fits lines
  obtain ⟨symbols, stand, derived⟩ := statements.printed more (plainWord_of_clean clean plain) fits
  have written : Lines compilation.lines symbols := by
    rw [lines]
    exact stand
  obtain ⟨cut, noWarning⟩ := written.lexes.tokensOf
  refine ⟨noWarning, _, by rw [same, Node.withoutEmptyElse], ?_⟩
  rw [Compilation.output, cut]
  exact derived

theorem reproduces_of_parse (compiled : compile source = .ok compilation)
    (noWarning : warningsOf compilation.output = [])
    (parsed : parse (tokensOf compilation.output) = .ok compilation.program.withoutEmptyElse) :
    Reproduces compilation := by
  obtain ⟨-, writes, -, lines⟩ := compile_eq_ok compiled
  have steps := compilation.program.steps_withoutEmptyElse
  have writesAgain : Writes compilation.program.withoutEmptyElse := by
    rw [Writes, steps]
    exact writes
  refine ⟨_, compile_of_parse parsed writesAgain, ?_, ?_, rfl⟩
  · rw [lines, steps]
  · rw [noWarning, List.nil_append]
    exact Step.runAll_notes _ _

/-- Any expressions fit below some limit. -/
theorem exists_fits (values : List (Nat × Node)) : ∃ limit, nestingLimit ≤ limit ∧ Fits limit values := by
  induction values with
  | nil => exact ⟨nestingLimit, Nat.le_refl _, nofun⟩
  | cons value values ih =>
      obtain ⟨limit, less, fits⟩ := ih
      refine ⟨max limit (value.1 + 2 * value.2.height), by omega, fun other member => ?_⟩
      rcases List.mem_cons.mp member with rfl | member
      · omega
      · have := fits other member
        omega

/-- With less room the program is read as with more, or it is nested too deeply. -/
theorem parse_of_more_room {tokens : List Token} {node : Node} {rest : List Token} {limit : Nat}
    (more : nestingLimit ≤ limit) (read : Reader.program limit tokens = .ok (node, rest)) :
    parse tokens = .ok node ∨ ∃ place, parse tokens = .error (.syntactic .nestedTooDeeply place) := by
  rw [parse]
  rcases (Reader.program_built more).lags tokens with same | ⟨left, unfinished, stopped⟩
  · rw [same, read]
    exact .inl rfl
  · rw [stopped]
    exact .inr ⟨_, rfl⟩

/-- What is written is a program that is written as itself: compiling it again gives the same lines without
a warning, unless its parentheses go beyond the nesting limit. They stay within it if no expression of
height `h` inside `d` blocks has `d + 2 * h` above 201. -/
theorem output_reproduces (compiled : compile source = .ok compilation) (clean : warningsOf source = [])
    (plain : PlainTokens (tokensOf source)) :
    ((∃ place, compile compilation.output = .error (.syntactic .nestedTooDeeply place)) ∨
      Reproduces compilation) ∧
    ((∀ value ∈ compilation.program.values 0, value.1 + 2 * value.2.height ≤ 201) →
      Reproduces compilation) := by
  refine ⟨?_, fun fits => ?_⟩
  · obtain ⟨limit, more, fits⟩ := exists_fits (compilation.program.values 0)
    obtain ⟨noWarning, derived⟩ := output_derives compiled clean plain more fits
    have read := (Reader.program_eq_ok_iff (Nat.zero_add limit) (spelled_tokensOf compilation.output)).mpr
      ⟨rfl, derived⟩
    rcases parse_of_more_room more read with parsed | ⟨place, stopped⟩
    · exact .inr (reproduces_of_parse compiled noWarning parsed)
    · refine .inl ⟨place, ?_⟩
      rw [compile, stopped]
      rfl
  · obtain ⟨noWarning, derived⟩ := output_derives compiled clean plain (Nat.le_refl _) fits
    exact reproduces_of_parse compiled noWarning ((parse_eq_ok_iff (spelled_tokensOf _)).mpr derived)

end

/-- A source with a chain of operators and an `else` block that holds nothing. -/
def chainSource : String := "if (a) \x7b return a + 1 * 2; \x7d else \x7b \x7d"

def chainProgram : Node := .program [.conditional (.identifier "a")
  [.returning (.binary (.binary (.identifier "a") "+" (.literal (.integer 1))) "*" (.literal (.integer 2)))]
  (some [])]

theorem tokensOf_chainSource : tokensOf chainSource = [
    ⟨.keyword, "if", ⟨1, 1⟩⟩, ⟨.tupleStart, "(", ⟨1, 4⟩⟩, ⟨.identifier, "a", ⟨1, 5⟩⟩,
    ⟨.tupleEnd, ")", ⟨1, 6⟩⟩, ⟨.delimiter, "\x7b", ⟨1, 8⟩⟩, ⟨.keyword, "return", ⟨1, 10⟩⟩,
    ⟨.identifier, "a", ⟨1, 17⟩⟩, ⟨.operator, "+", ⟨1, 19⟩⟩, ⟨.number, "1", ⟨1, 21⟩⟩,
    ⟨.operator, "*", ⟨1, 23⟩⟩, ⟨.number, "2", ⟨1, 25⟩⟩, ⟨.delimiter, ";", ⟨1, 26⟩⟩,
    ⟨.delimiter, "\x7d", ⟨1, 28⟩⟩, ⟨.keyword, "else", ⟨1, 30⟩⟩,
    ⟨.delimiter, "\x7b", ⟨1, 35⟩⟩, ⟨.delimiter, "\x7d", ⟨1, 37⟩⟩] := by decide +kernel

def chainCompilation : Compilation :=
  ⟨tokensOf chainSource, chainProgram, ["if (a) \x7b", "return ((a + 1) * 2);", "\x7d"], []⟩

theorem compile_chainSource : compile chainSource = .ok chainCompilation := by
  have parsed : parse (tokensOf chainSource) = .ok chainProgram := by
    rw [tokensOf_chainSource]
    rfl
  have clean : warningsOf chainSource = [] := by decide +kernel
  have writes : Writes chainProgram := rfl
  rw [compile_of_parse parsed writes, clean]
  rfl

/-- The parentheses that are written for the chain, and the `else` block that is not, come back as such. -/
theorem output_reproduces_chain :
    compile chainSource = .ok chainCompilation ∧ warningsOf chainSource = [] ∧
      PlainTokens (tokensOf chainSource) ∧
      (∀ value ∈ chainProgram.values 0, value.1 + 2 * value.2.height ≤ 201) ∧
      Reproduces chainCompilation := by
  have clean : warningsOf chainSource = [] := by decide +kernel
  have plain : PlainTokens (tokensOf chainSource) := by decide +kernel
  have fits : ∀ value ∈ chainProgram.values 0, value.1 + 2 * value.2.height ≤ 201 := by decide
  exact ⟨compile_chainSource, clean, plain, fits, (output_reproduces compile_chainSource clean plain).2 fits⟩

end BraceCompiler
