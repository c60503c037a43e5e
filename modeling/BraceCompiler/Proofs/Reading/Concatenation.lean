import BraceCompiler.Proofs.Reading.Respelling
import BraceCompiler.Proofs.Reading.Statements

/-! One program after another. A reader that leaves nothing has looked at the end of the tokens: an operator, a
semicolon or an `else` there would have been read too. No statement begins with one of these, so a program is
read alike whether it ends there or another program follows it. -/

namespace BraceCompiler

open Grammar

variable {α β : Type}

/-- A reader that leaves tokens has not looked beyond them. -/
theorem Orderly.ok_append {reader : Reader α} (orderly : Orderly reader) {tokens rest : List Token} {value : α}
    (other : List Token) (read : reader tokens = .ok (value, rest)) (more : rest ≠ []) :
    reader (tokens ++ other) = .ok (value, rest ++ other) := by
  rw [← List.append_nil tokens] at read
  obtain ⟨left, split, readOther⟩ := orderly.okAlike other read (List.length_pos_iff.mpr more)
  rw [List.append_nil] at split
  rw [split]
  exact readOther

/-- Where the reader leaves nothing, it reads the same in front of tokens that cannot belong to a statement. -/
structure Extends (reader : Reader α) : Prop where
  ok : ∀ {tokens value} other, reader tokens = .ok (value, []) → Ends (other.map Token.symbol) →
    reader (tokens ++ other) = .ok (value, other)

namespace Extends

variable {reader yes no : Reader α}

theorem pure (value : α) : Extends (pure value) where
  ok := by
    intro tokens value other read _
    cases read
    rfl

theorem of_error (stops : ∀ tokens, ∃ stop, reader tokens = .error stop) : Extends reader where
  ok := by
    intro tokens value other read _
    obtain ⟨stop, failed⟩ := stops tokens
    cases failed.symm.trans read

theorem ite {condition : Prop} [Decidable condition] (extendsYes : Extends yes) (extendsNo : Extends no) :
    Extends (if condition then yes else no) := by
  split
  · exact extendsYes
  · exact extendsNo

theorem bind {next : α → Reader β} (orderly : Orderly reader) (first : Extends reader)
    (second : ∀ value, Extends (next value)) : Extends (reader >>= next) where
  ok := by
    intro tokens value other read ends
    obtain ⟨middle, left, readFirst, readNext⟩ := Reader.bind_eq_ok_iff.mp read
    have readOn := (second middle).ok other readNext ends
    by_cases rest : left = []
    · subst rest
      exact (Reader.bind_of_ok (first.ok other readFirst ends)).trans readOn
    · exact (Reader.bind_of_ok (orderly.ok_append other readFirst rest)).trans readOn

/-- In front of a reader that needs a token, nothing is asked of the first one: it leaves that token. -/
theorem before {next : α → Reader β} (orderly : Orderly reader) (second : ∀ value, Extends (next value))
    (consumes : ∀ value, Consumes (next value)) : Extends (reader >>= next) where
  ok := by
    intro tokens value other read ends
    obtain ⟨middle, left, readFirst, readNext⟩ := Reader.bind_eq_ok_iff.mp read
    have more : left ≠ [] := by
      rintro rfl
      obtain ⟨stop, failed⟩ := (consumes middle).empty
      cases failed.symm.trans readNext
    rw [Reader.bind_of_ok (orderly.ok_append other readFirst more)]
    exact (second middle).ok other readNext ends

/-- There is no operator at the end, and none before what follows a statement. -/
theorem checkOperator : Extends (Reader.check .operator) where
  ok := by
    intro tokens found other read ends
    cases read
    cases other with
    | nil => rfl
    | cons token rest =>
        have differs : token.kind ≠ .operator := ends.notOperator token.symbol rfl
        simp only [Reader.check, List.nil_append, List.head?_cons, List.head?_nil, Option.any_some, Option.any_none,
          beq_eq_false_iff_ne.mpr differs]

/-- What would still belong to a statement is not what follows one. -/
theorem declined {declines : Bool} {decision : Reader Bool} (known : Reader.Decision declines decision)
    (yes : declines = true) {other : List Token} (ends : Ends (other.map Token.symbol)) :
    decision other = .ok (false, other) := by
  cases known with
  | kind => cases yes
  | @symbol kind lexeme =>
      refine (Accepts.acceptLexeme kind lexeme).leaves fun symbol first => ?_
      obtain ⟨-, noSemicolon, noElse⟩ := ends symbol first
      simp only [Reader.continues, Bool.or_eq_true, Bool.and_eq_true, beq_iff_eq] at yes
      rcases yes with ⟨rfl, rfl⟩ | ⟨rfl, rfl⟩
      · exact noSemicolon
      · exact noElse

theorem decision {decision : Reader Bool} (known : Reader.Decision true decision) : Extends decision where
  ok := by
    intro tokens taken other read ends
    cases tokens with
    | nil =>
        cases known.decides.empty.symm.trans read
        exact declined known rfl ends
    | cons token rest =>
        rcases known.decides.first token with takes | leaves
        · cases (takes rest).symm.trans read
          exact takes other
        · cases (leaves rest).symm.trans read

/-- At the end of the tokens the answer is no, and then a token is missing. -/
theorem choice {decision : Reader Bool} (decides : Reader.Decides decision) (extendsYes : Extends yes)
    (extendsNo : Extends no) (consumes : Consumes no) :
    Extends (decision >>= fun taken => if taken = true then yes else no) where
  ok := by
    intro tokens value other read ends
    cases tokens with
    | nil =>
        obtain ⟨stop, failed⟩ := consumes.empty
        rw [Reader.bind_of_ok decides.empty, if_neg Bool.false_ne_true, failed] at read
        cases read
    | cons token rest =>
        rw [List.cons_append]
        rcases decides.first token with takes | leaves
        · rw [Reader.bind_of_ok (takes _), if_pos rfl] at read ⊢
          exact extendsYes.ok other read ends
        · rw [Reader.bind_of_ok (leaves _), if_neg Bool.false_ne_true] at read ⊢
          exact extendsNo.ok other read ends

/-- A reader that goes by its first token, which it takes, or stops. -/
theorem of_first (empty : ∃ stop, reader [] = .error stop)
    (first : ∀ token : Token, (∃ inside, Extends inside ∧ ∀ rest, reader (token :: rest) = inside rest) ∨
      ∀ rest, ∃ stop, reader (token :: rest) = .error stop) : Extends reader where
  ok := by
    intro tokens value other read ends
    cases tokens with
    | nil =>
        obtain ⟨stop, failed⟩ := empty
        cases failed.symm.trans read
    | cons token rest =>
        rcases first token with ⟨inside, extendsInside, goes⟩ | stops
        · rw [List.cons_append, goes]
          rw [goes] at read
          exact extendsInside.ok other read ends
        · obtain ⟨stop, failed⟩ := stops rest
          cases failed.symm.trans read

theorem expect (kind : TokenKind) (lexeme place : String) : Extends (Reader.expect kind lexeme place) :=
  choice (Reader.acceptLexeme_decides kind lexeme) (pure ()) (of_error fun _ => ⟨_, rfl⟩)
    (.of_error fun _ => ⟨_, rfl⟩)

theorem expectKind (kind : TokenKind) (place : String) : Extends (Reader.expectKind kind place) := by
  refine of_first ⟨_, rfl⟩ fun token => ?_
  by_cases same : token.kind = kind
  · exact .inl ⟨Pure.pure token.lexeme, pure _, fun rest => if_pos same⟩
  · exact .inr fun rest => ⟨_, if_neg same⟩

theorem inBlock (extending : Extends reader) : Extends (Reader.inBlock reader) where
  ok other read ends :=
    Reader.inBlock_eq_ok_iff.mpr (extending.ok other (Reader.inBlock_eq_ok_iff.mp read) ends)

theorem term {nested : Reader Node} (array : Extends (Reader.arrayTail nested))
    (tuple : Extends (Reader.tupleTail nested)) : Extends (Reader.term nested) := by
  refine of_first ⟨_, rfl⟩ fun token => ?_
  cases Reader.termStart token with
  | leaf _ taken => exact .inl ⟨Pure.pure _, pure _, taken nested⟩
  | array opens => exact .inl ⟨_, array, Reader.term_arrayStart opens⟩
  | tuple opens => exact .inl ⟨_, tuple, Reader.term_tupleStart opens⟩
  | oversize _ _ stops | unreadable _ _ stops | misfit stops => exact .inr fun rest => ⟨_, stops nested rest⟩

theorem named {place : String} {next : String → Reader α} (extendsNext : ∀ name, Extends (next name))
    (extendsNo : Extends no) (consumes : Consumes no) : Extends (Reader.named place next no) where
  ok := by
    intro tokens value other read ends
    cases tokens with
    | nil =>
        obtain ⟨stop, failed⟩ := consumes.empty
        cases failed.symm.trans read
    | cons first rest =>
        rw [List.cons_append]
        by_cases name : first.kind = .identifier
        · rw [Reader.named_of_name _ name] at read ⊢
          exact (extendsNext _).ok other read ends
        · rw [Reader.named_of_other _ name] at read ⊢
          exact extendsNo.ok other read ends

theorem declared {place : String} {next : String → Reader α} (extendsNext : ∀ name, Extends (next name))
    (consumesNext : ∀ name, Consumes (next name)) (extendsNo : Extends no) (consumes : Consumes no) :
    Extends (Reader.skipDeclarator >>= fun _ => Reader.named place next no) where
  ok := by
    intro tokens value other read ends
    have extending : Extends (Reader.named place next no) := named extendsNext extendsNo consumes
    rw [Reader.declared_eq] at read ⊢
    rcases tokens with _ | ⟨first, _ | ⟨second, rest⟩⟩
    · obtain ⟨stop, failed⟩ := consumes.empty
      cases failed.symm.trans read
    · by_cases declarator : first.symbol = ⟨.identifier, Words.declarator⟩
      · -- A declarator that has no token after it is not passed over, and is no statement either.
        have alone : Reader.named place next no [first] = next first.lexeme [] :=
          Reader.named_of_name [] (Token.symbol_eq_iff.mp declarator).1
        obtain ⟨stop, failed⟩ := (consumesNext first.lexeme).empty
        cases (alone.trans failed).symm.trans read
      · rw [List.singleton_append, Reader.afterDeclarator_of_other declarator]
        exact extending.ok other read ends
    · rw [Reader.afterDeclarator_append]
      exact extending.ok other read ends

end Extends

/-- What settles extends. Where the first of two readers does not, the second consumes a token. -/
theorem Built.extending {takes settles : Bool} {reader other : Reader α} (built : Built takes settles reader other) :
    settles = true → Extends reader := by
  induction built with
  | pure value => exact fun _ => .pure value
  | unexpected wanted => exact fun _ => .of_error fun tokens => ⟨_, rfl⟩
  | tooDeep _ => exact fun _ => .of_error fun tokens => ⟨_, rfl⟩
  | bind built builtNext first next =>
      intro settles
      obtain ⟨settlesNext, either⟩ := Bool.and_eq_true_iff.mp settles
      rcases Bool.or_eq_true_iff.mp either with settles | takes
      · exact .bind built.orderly (first settles) fun value => next value settlesNext
      · subst takes
        exact .before built.orderly (fun value => next value settlesNext) fun value => (builtNext value).consumes
  | ite _ _ yes no =>
      intro settles
      obtain ⟨settlesYes, settlesNo⟩ := Bool.and_eq_true_iff.mp settles
      exact .ite (yes settlesYes) (no settlesNo)
  | check kind =>
      intro settles
      rw [beq_iff_eq.mp settles]
      exact .checkOperator
  | atEnd => exact nofun
  | decision known =>
      rintro rfl
      exact .decision known
  | choice known _ builtNo yes no =>
      intro settles
      obtain ⟨both, either⟩ := Bool.and_eq_true_iff.mp settles
      obtain ⟨settlesYes, settlesNo⟩ := Bool.and_eq_true_iff.mp both
      rcases Bool.or_eq_true_iff.mp either with takes | declines
      · subst takes
        exact .choice known.decides (yes settlesYes) (no settlesNo) builtNo.consumes
      · subst declines
        exact .bind (.decision known.decides) (.decision known) fun _ => .ite (yes settlesYes) (no settlesNo)
  | expect place => exact fun _ => .expect _ _ place
  | expectKind place => exact fun _ => .expectKind _ place
  | separated => exact nofun
  | repeated => exact nofun
  | inBlock _ inside => exact fun settles => (inside settles).inBlock
  | term _ _ array tuple => exact fun _ => .term (array rfl) (tuple rfl)
  | declared builtNext builtNo next no =>
      exact fun _ => .declared (fun name => next name rfl) (fun name => (builtNext name).consumes) (no rfl)
        builtNo.consumes

namespace Reader

/-- No statement begins with what an open end before it would take. Respelling changes nothing about that. -/
theorem statement_ends {room : Nat} {tokens rest : List Token} {node : Node}
    (read : statement room tokens = .ok (node, rest)) : Ends (tokens.map Token.symbol) := by
  have respelled := (statement_built (Nat.le_refl room)).indifferent.ok read
  obtain ⟨used, split, derived⟩ := (statement_reads (Nat.zero_add room)).sound (Nat.le_refl room)
    (spelled_respelled tokens) respelled
  have ends : Ends ((tokens.map Token.respelled).map Token.symbol) := by
    rw [split, List.map_append]
    exact derived.ends
  cases tokens with
  | nil => exact ends
  | cons token tokens =>
      obtain ⟨noOperator, noSemicolon, noElse⟩ := ends token.respelled.symbol rfl
      rintro _ ⟨⟩
      refine ⟨noOperator, fun semicolon => noSemicolon ?_, fun isElse => noElse ?_⟩
      · rwa [Token.respelled_eq_self (by rw [(Token.symbol_eq_iff.mp semicolon).1]; rfl)]
      · rwa [Token.respelled_eq_self (by rw [(Token.symbol_eq_iff.mp isElse).1]; rfl)]

variable {item : Reader α} {done : List Token → Bool}

theorem repeated_cons (consumes : Consumes item) (atEnd : done [] = true) {tokens left rest : List Token}
    {value : α} {values : List α} (goesOn : done tokens = false) (read : item tokens = .ok (value, left))
    (readOthers : repeated done item left = .ok (values, rest)) :
    repeated done item tokens = .ok (value :: values, rest) := by
  have shorter := consumes.length_lt read
  cases length : tokens.length with
  | zero => omega
  | succ limit =>
      have enough : left.length ≤ limit := by omega
      have gotten : (get : Reader (List Token)) tokens = .ok (tokens, tokens) := rfl
      have bounded := Orderly.repeatedUpTo_eq consumes atEnd (Nat.le_refl _) enough
      rw [repeated, bounded] at readOthers
      rw [repeated, length, repeatedUpTo, bind_of_ok gotten, if_neg (by rw [goesOn]; exact Bool.false_ne_true),
        bind_of_ok read, bind_of_ok readOthers]
      rfl

/-- A repetition up to the end reads nothing, or one item and then a repetition. -/
theorem repeated_eq_ok {tokens rest : List Token} {values : List α}
    (consumes : Consumes item) (read : repeated List.isEmpty item tokens = .ok (values, rest)) :
    tokens = [] ∧ values = [] ∧ rest = [] ∨ ∃ value left others, item tokens = .ok (value, left) ∧
      repeated List.isEmpty item left = .ok (others, rest) ∧ values = value :: others := by
  cases tokens with
  | nil =>
      cases read
      exact .inl ⟨rfl, rfl, rfl⟩
  | cons token tokens =>
      have gotten : (get : Reader (List Token)) (token :: tokens) = .ok (token :: tokens, token :: tokens) := rfl
      rw [repeated, List.length_cons, repeatedUpTo, bind_of_ok gotten, List.isEmpty_cons,
        if_neg Bool.false_ne_true] at read
      obtain ⟨value, left, readItem, readOthers⟩ := bind_eq_ok_iff.mp read
      obtain ⟨others, last, readMore, made⟩ := bind_eq_ok_iff.mp readOthers
      cases made
      have shorter := consumes.length_lt readItem
      rw [List.length_cons] at shorter
      have bounded := Orderly.repeatedUpTo_eq consumes (rfl : List.isEmpty [] = true)
        (Nat.le_of_lt_succ shorter) (Nat.le_refl _)
      exact .inr ⟨value, left, others, readItem, bounded.symm.trans readMore, rfl⟩

theorem repeated_rest (consumes : Consumes item) {tokens rest : List Token} {values : List α}
    (read : repeated List.isEmpty item tokens = .ok (values, rest)) : rest = [] := by
  induction length : tokens.length using Nat.strongRecOn generalizing tokens values with
  | ind size ih =>
      rcases repeated_eq_ok consumes read with ⟨-, -, ended⟩ | ⟨value, left, others, readItem, readOthers, -⟩
      · exact ended
      · have shorter := consumes.length_lt readItem
        exact ih _ (by omega) readOthers rfl

/-- Items up to the end, in front of further items. -/
theorem repeated_append (orderly : Orderly item) (consumes : Consumes item)
    (extending : Extends item) {tokens other : List Token} {values more : List α}
    (read : repeated List.isEmpty item tokens = .ok (values, []))
    (readOther : repeated List.isEmpty item other = .ok (more, []))
    (ends : Ends (other.map Token.symbol)) :
    repeated List.isEmpty item (tokens ++ other) = .ok (values ++ more, []) := by
  induction length : tokens.length using Nat.strongRecOn generalizing tokens values with
  | ind size ih =>
      rcases repeated_eq_ok consumes read with
        ⟨rfl, rfl, -⟩ | ⟨value, left, others, readItem, readOthers, rfl⟩
      · exact readOther
      · have shorter := consumes.length_lt readItem
        have later := ih _ (by omega) readOthers rfl
        have goesOn : (tokens ++ other).isEmpty = false := by
          cases tokens with
          | nil => exact absurd shorter (Nat.not_lt_zero _)
          | cons token tokens => rfl
        by_cases last : left = []
        · subst last
          exact repeated_cons consumes rfl goesOn (extending.ok other readItem ends) later
        · exact repeated_cons consumes rfl goesOn (orderly.ok_append other readItem last) later

end Reader

theorem parse_eq_ok {tokens : List Token} {body : List Node} : parse tokens = .ok (.program body) ↔
    Reader.repeated List.isEmpty (Reader.statement nestingLimit) tokens = .ok (body, []) := by
  rw [parse, Reader.program]
  constructor
  · intro parsed
    split at parsed
    · rename_i read
      cases parsed
      obtain ⟨nodes, left, readAll, made⟩ := Reader.bind_eq_ok_iff.mp read
      cases made
      rw [readAll, Reader.repeated_rest (Reader.statement_built (Nat.le_refl _)).consumes readAll]
    · cases parsed
  · intro read
    rw [Reader.bind_of_ok read]
    rfl

/-- The tokens of two programs, one after the other, are a program: the statements of the first and then those
of the second. -/
theorem parse_append {tokens others : List Token} {body more : List Node}
    (parsed : parse tokens = .ok (.program body)) (parsedOthers : parse others = .ok (.program more)) :
    parse (tokens ++ others) = .ok (.program (body ++ more)) := by
  rw [parse_eq_ok] at *
  have built := Reader.statement_built (Nat.le_refl nestingLimit)
  refine Reader.repeated_append built.orderly built.consumes (built.extending rfl) parsed parsedOthers ?_
  rcases Reader.repeated_eq_ok built.consumes parsedOthers with
    ⟨rfl, -, -⟩ | ⟨node, left, nodes, read, -, -⟩
  · intro symbol first
    cases first
  · exact Reader.statement_ends read

/-- The tokens of `x = a`, whose end is left open. -/
def assignmentTokens : List Token := [
  ⟨.identifier, "x", ⟨1, 1⟩⟩, ⟨.assignment, "=", ⟨1, 3⟩⟩, ⟨.identifier, "a", ⟨1, 5⟩⟩]

/-- The tokens of `xec y = [b, c]`. -/
def declarationTokens : List Token := [
  ⟨.identifier, "xec", ⟨2, 1⟩⟩, ⟨.identifier, "y", ⟨2, 5⟩⟩, ⟨.assignment, "=", ⟨2, 7⟩⟩,
  ⟨.arrayStart, "[", ⟨2, 9⟩⟩, ⟨.identifier, "b", ⟨2, 10⟩⟩, ⟨.comma, ",", ⟨2, 11⟩⟩,
  ⟨.identifier, "c", ⟨2, 13⟩⟩, ⟨.arrayEnd, "]", ⟨2, 14⟩⟩]

/-- The value of the first program ends where the declarator comes, and the declarator is passed over. -/
theorem parse_append_declaration :
    parse assignmentTokens = .ok (.program [.assignment "x" (.identifier "a")]) ∧
      parse declarationTokens = .ok (.program [.assignment "y" (.array [.identifier "b", .identifier "c"])]) ∧
      parse (assignmentTokens ++ declarationTokens) = .ok (.program ([.assignment "x" (.identifier "a")] ++
        [.assignment "y" (.array [.identifier "b", .identifier "c"])])) := by
  have first : parse assignmentTokens = .ok (.program [.assignment "x" (.identifier "a")]) := rfl
  have second : parse declarationTokens =
      .ok (.program [.assignment "y" (.array [.identifier "b", .identifier "c"])]) := rfl
  exact ⟨first, second, parse_append first second⟩

end BraceCompiler
