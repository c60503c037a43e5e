import BraceCompiler.Proofs.Reading.Statements
import BraceCompiler.Proofs.Token.Scan

/-! Parsing a whole list of tokens is deriving it in the grammar. -/

namespace BraceCompiler

open Grammar

namespace Reader

variable {limit depth room : Nat}

/-- Up to the end of the tokens, statements are read. -/
theorem allStatements_read (levels : depth + room = limit) :
    Reads (repeated List.isEmpty (statement room)) (Statements · depth) limit (· = []) := by
  refine (Reads.repeated (statement_reads levels) ?_ ?_ ?_ ?_ ?_).congr (fun _ _ _ _ => repeated_iff_statements)
  · exact fun _ _ statement => statement.ne_nil
  · intro used node rest statement
    obtain ⟨symbol, tail, starts, -⟩ := statement.starts
    obtain ⟨first, others, rfl, -⟩ := List.map_eq_cons_iff.mp starts
    rfl
  · exact fun _ _ _ statement => statement.ends
  · exact fun ended => List.isEmpty_iff.mpr (List.map_eq_nil_iff.mp ended)
  · rintro _ rfl _ ⟨⟩

theorem program_reads (levels : depth + room = limit) :
    Reads (program room) (fun more word node => ∃ body, Statements more depth word body ∧ node = .program body) limit
      (· = []) := (allStatements_read levels).map

theorem program_eq_ok_iff (levels : depth + room = limit) {tokens rest : List Token} {node : Node}
    (spelled : Spelled tokens) : program room tokens = .ok (node, rest) ↔
      rest = [] ∧ ∃ body, node = .program body ∧ Statements limit depth (tokens.map Token.symbol) body := by
  have reads := allStatements_read levels
  constructor
  · intro read
    obtain ⟨body, left, readBody, made⟩ := bind_eq_ok_iff.mp read
    cases made
    have ended := Reads.repeatedUpTo_done (statement_reads levels) (fun _ _ statement => statement.ne_nil)
      rfl spelled (Nat.le_refl _) readBody
    obtain ⟨used, rfl, statements⟩ := reads.sound (Nat.le_refl limit) spelled readBody
    cases List.isEmpty_iff.mp ended
    exact ⟨rfl, body, rfl, by rwa [List.append_nil]⟩
  · rintro ⟨rfl, body, rfl, statements⟩
    have readBody := reads.complete [] statements rfl
    rw [List.append_nil] at readBody
    exact bind_eq_ok_iff.mpr ⟨body, [], readBody, rfl⟩

end Reader

theorem parse_eq_ok_iff {tokens : List Token} {node : Node} (spelled : Spelled tokens) :
    parse tokens = .ok node ↔
      ∃ body, node = .program body ∧ Statements nestingLimit 0 (tokens.map Token.symbol) body := by
  have levels : 0 + nestingLimit = nestingLimit := Nat.zero_add _
  rw [parse]
  constructor
  · intro parsed
    split at parsed
    · rename_i read
      cases parsed
      exact ((Reader.program_eq_ok_iff levels spelled).mp read).2
    · cases parsed
  · intro derived
    rw [(Reader.program_eq_ok_iff levels spelled).mpr ⟨rfl, derived⟩]

/-- The language of a kind of punctuation has its one lexeme only. -/
theorem TokenKind.Language.spelled {kind : TokenKind} {text lexeme : String}
    (belongs : kind.Language text.toList) (spelling : lexeme ∈ kind.spelling?) : text = lexeme := by
  rw [← String.ofList_toList (s := text)]
  cases kind <;> cases spelling <;> exact congrArg String.ofList belongs

/-- Every list of tokens that comes from a source is spelled. -/
theorem spelled_tokensOf (source : String) : Spelled (tokensOf source) :=
  fun _ member _ spelling => (tokensOf_language member).2.spelled spelling

/-- Parsing finds exactly the derivations of the grammar, and a list of tokens has one derived body at
most. -/
theorem parse_iff_derives :
    (∀ source, Spelled (tokensOf source)) ∧ ∀ tokens, Spelled tokens →
      (∀ node, parse tokens = .ok node ↔
        ∃ body, node = .program body ∧ Statements nestingLimit 0 (tokens.map Token.symbol) body) ∧
      (∀ body other, Statements nestingLimit 0 (tokens.map Token.symbol) body →
        Statements nestingLimit 0 (tokens.map Token.symbol) other → body = other) := by
  refine ⟨spelled_tokensOf, fun tokens spelled => ⟨fun node => parse_eq_ok_iff spelled, ?_⟩⟩
  intro body other derived derivedOther
  have parsed := (parse_eq_ok_iff spelled).mpr ⟨body, rfl, derived⟩
  have parsedOther := (parse_eq_ok_iff spelled).mpr ⟨other, rfl, derivedOther⟩
  cases parsed.symm.trans parsedOther
  rfl

/-- The tokens of `x = a - b * c;`. -/
def chainTokens : List Token := [
  ⟨.identifier, "x", ⟨1, 1⟩⟩, ⟨.assignment, "=", ⟨1, 3⟩⟩, ⟨.identifier, "a", ⟨1, 5⟩⟩,
  ⟨.operator, "-", ⟨1, 7⟩⟩, ⟨.identifier, "b", ⟨1, 9⟩⟩, ⟨.operator, "*", ⟨1, 11⟩⟩,
  ⟨.identifier, "c", ⟨1, 13⟩⟩, ⟨.delimiter, ";", ⟨1, 14⟩⟩]

/-- Operators have one strength, so the difference is taken first. -/
theorem parse_iff_derives_chain :
    Spelled chainTokens ∧ Statements nestingLimit 0 (chainTokens.map Token.symbol) [.assignment "x"
      (.binary (.binary (.identifier "a") "-" (.identifier "b")) "*" (.identifier "c"))] := by
  have spelled : Spelled chainTokens := by decide
  have parsed : parse chainTokens = .ok (.program [.assignment "x"
      (.binary (.binary (.identifier "a") "-" (.identifier "b")) "*" (.identifier "c"))]) := rfl
  obtain ⟨body, same, derived⟩ := ((parse_iff_derives.2 _ spelled).1 _).mp parsed
  cases same
  exact ⟨spelled, derived⟩

end BraceCompiler
