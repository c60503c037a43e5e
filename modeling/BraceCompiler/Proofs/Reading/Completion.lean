import BraceCompiler.Proofs.Reading.Orderly
import BraceCompiler.Proofs.Reading.Programs

/-! Where a program stops fitting the grammar. What was read before can be completed, though not always within the
limit of the reader: with no level left, what was begun may need one level more. -/

namespace BraceCompiler

open Grammar

def Symbol.token (symbol : Symbol) : Token := ⟨symbol.kind, symbol.lexeme, .origin⟩

theorem Symbol.map_token (word : List Symbol) : (word.map Symbol.token).map Token.symbol = word := by
  rw [List.map_map]
  exact List.map_id word

/-- The symbols stand for these statements in the grammar without a limit: some limit is high enough. -/
def DerivesFreely (word : List Symbol) (body : List Node) : Prop := ∃ limit, Statements limit 0 word body

theorem Cursor.run_start_error {α : Type} {reader : Reader α} {tokens : List Token} {cause : SyntaxFault}
    {place : Position} {cursor : Cursor}
    (stopped : (Cursor.start tokens).run reader = (.error (.syntactic cause place), cursor)) :
    ∃ stop, reader tokens = .error stop ∧ stop.cause = cause ∧
      cursor.position = tokens.length - stop.rest.length := by
  have whole : (Cursor.start tokens).rest = tokens := rfl
  rw [Cursor.run, whole] at stopped
  cases outcome : reader tokens with
  | ok read => rw [outcome] at stopped; cases stopped
  | error stop =>
      rw [outcome] at stopped
      cases stopped
      exact ⟨stop, rfl, rfl, Nat.zero_add _⟩

theorem parse_ne_ok {tokens : List Token} {stop : Stop}
    (failed : Reader.program nestingLimit tokens = .error stop) (node : Node) : parse tokens ≠ .ok node := by
  rw [parse, failed]
  intro parsed
  cases parsed

/-- A program that stops at a token stops at the first that does not fit. Whatever comes after this token, no
program is read; without it, what comes before can be completed. -/
theorem stops_at_first_misfit {tokens : List Token} {found : Option Token} {wanted : Wanted} {place : Position}
    {cursor : Cursor}
    (stopped : (Cursor.start tokens).run (Reader.program (Cursor.start tokens).room) =
      (.error (.syntactic (.unexpected found wanted) place), cursor)) :
    (cursor.position < tokens.length →
      ∀ others node, tokens.take (cursor.position + 1) <+: others → parse others ≠ .ok node) ∧
    (Spelled tokens → found = tokens[cursor.position]? ∧
      ∃ more body, DerivesFreely ((tokens.take cursor.position ++ more).map Token.symbol) body) := by
  obtain ⟨stop, failed, cause, position⟩ := Cursor.run_start_error stopped
  have orderly := (Reader.program_built (Nat.le_refl nestingLimit)).orderly
  obtain ⟨used, rfl⟩ := (orderly.error failed).1
  have reached : cursor.position = used.length := by
    rw [position, List.length_append, Nat.add_sub_cancel]
  rw [reached]
  refine ⟨fun before others node shared => ?_, fun spelled => ?_⟩
  · cases left : stop.rest with
    | nil => simp [left] at before
    | cons token tail =>
        have front : (used ++ [token] ++ tail).take (used.length + 1) = used ++ [token] :=
          List.take_left' List.length_append
        rw [left, List.append_cons, front] at shared
        obtain ⟨other, rfl⟩ := shared
        -- The token at the cursor is shared too, and the program did not look beyond it.
        rw [left, List.append_cons] at failed
        obtain ⟨otherStop, failedOther⟩ := orderly.errorAlike other failed
          (by rw [left]; exact Nat.lt_succ_self _)
        exact parse_ne_ok failedOther node
  · obtain ⟨named, begun, same, word, node, body, stand, -⟩ :=
      (Reader.program_reads (Nat.zero_add nestingLimit)).stops spelled failed cause
    cases List.append_cancel_right same
    refine ⟨?_, word.map Symbol.token, body, nestingLimit + 1, ?_⟩
    · rw [named, List.getElem?_append_right (Nat.le_refl _), Nat.sub_self, List.head?_eq_getElem?]
    · rw [List.take_left, List.map_append, Symbol.map_token]
      exact stand

/-- The tokens of `xec y = (1, ;`. -/
def openTokens : List Token := [
  ⟨.identifier, "xec", ⟨1, 1⟩⟩, ⟨.identifier, "y", ⟨1, 5⟩⟩, ⟨.assignment, "=", ⟨1, 7⟩⟩,
  ⟨.tupleStart, "(", ⟨1, 9⟩⟩, ⟨.number, "1", ⟨1, 10⟩⟩, ⟨.comma, ",", ⟨1, 11⟩⟩, ⟨.delimiter, ";", ⟨1, 13⟩⟩]

/-- After the comma another element has to come, and any would do. -/
theorem stops_at_first_misfit_open :
    (Cursor.start openTokens).run (Reader.program (Cursor.start openTokens).room) =
      (.error (.syntactic (.unexpected (some ⟨.delimiter, ";", ⟨1, 13⟩⟩) (.fitting "in expression")) ⟨1, 13⟩),
        ⟨openTokens, 6, 0⟩) ∧
    Spelled openTokens ∧
    (∀ node, parse (openTokens ++ [⟨.tupleEnd, ")", ⟨1, 14⟩⟩]) ≠ .ok node) ∧
    ∃ more body, DerivesFreely ((openTokens.take 6 ++ more).map Token.symbol) body := by
  have stopped : (Cursor.start openTokens).run (Reader.program (Cursor.start openTokens).room) =
      (.error (.syntactic (.unexpected (some ⟨.delimiter, ";", ⟨1, 13⟩⟩) (.fitting "in expression")) ⟨1, 13⟩),
        ⟨openTokens, 6, 0⟩) := rfl
  have spelled : Spelled openTokens := by decide
  obtain ⟨never, begins⟩ := stops_at_first_misfit stopped
  exact ⟨stopped, spelled, fun node => never (by decide) _ node ⟨[_], rfl⟩, (begins spelled).2⟩

end BraceCompiler
