import BraceCompiler.Proofs.Reading.Built

/-! Orderly readers. Whatever tokens it is given, an orderly reader consumes a front part of them and looks no further
than the token that it stops before. -/

namespace BraceCompiler

/-- The token that a fault is about, if it is not the next one. -/
def SyntaxFault.token? : SyntaxFault → Option Token
  | .integerOutOfRange token | .invalidFloat token => some token
  | .unexpected .. | .nestedTooDeeply => none

variable {α β : Type}

/-- The last two fields compare two runs. Their tokens begin alike, with `shared`. If the first run leaves
more than its own `tail`, it has looked at shared tokens only, and the second run goes the same way. -/
structure Orderly (reader : Reader α) : Prop where
  ok : ∀ {tokens value rest}, reader tokens = .ok (value, rest) → rest <:+ tokens
  error : ∀ {tokens stop}, reader tokens = .error stop →
    stop.rest <:+ tokens ∧ ∀ token ∈ stop.cause.token?, token ∈ tokens
  okAlike : ∀ {shared tail value rest} other, reader (shared ++ tail) = .ok (value, rest) →
    tail.length < rest.length →
    ∃ left, rest = left ++ tail ∧ reader (shared ++ other) = .ok (value, left ++ other)
  errorAlike : ∀ {shared tail stop} other, reader (shared ++ tail) = .error stop →
    tail.length < stop.rest.length → ∃ otherStop, reader (shared ++ other) = .error otherStop

/-- A success consumes a token. -/
structure Consumes (reader : Reader α) : Prop where
  length_lt : ∀ {tokens value rest}, reader tokens = .ok (value, rest) → rest.length < tokens.length

namespace Orderly

variable {reader yes no : Reader α}

theorem length_le (orderly : Orderly reader) {tokens rest : List Token} {value : α}
    (read : reader tokens = .ok (value, rest)) : rest.length ≤ tokens.length := (orderly.ok read).length_le

theorem error_length_le (orderly : Orderly reader) {tokens : List Token} {stop : Stop}
    (failed : reader tokens = .error stop) : stop.rest.length ≤ tokens.length :=
  (orderly.error failed).1.length_le

theorem pure (value : α) : Orderly (pure value) where
  ok := by
    intro tokens value rest read
    cases read
    exact List.suffix_rfl
  error := by
    intro tokens stop failed
    cases failed
  okAlike := by
    intro shared tail value rest other read _
    cases read
    exact ⟨shared, rfl, rfl⟩
  errorAlike := by
    intro shared tail stop other failed
    cases failed

/-- A reader that fails at once, on whatever comes. -/
theorem of_error (stops : ∀ tokens, ∃ stop, reader tokens = .error stop ∧ stop.rest = tokens ∧
    stop.cause.token? = none) : Orderly reader where
  ok := by
    intro tokens value rest read
    obtain ⟨stop, failed, -⟩ := stops tokens
    rw [failed] at read
    cases read
  error := by
    intro tokens stop failed
    obtain ⟨same, failedSame, left, unnamed⟩ := stops tokens
    cases failedSame.symm.trans failed
    rw [left, unnamed]
    exact ⟨List.suffix_rfl, nofun⟩
  okAlike := by
    intro shared tail value rest other read
    obtain ⟨stop, failed, -⟩ := stops (shared ++ tail)
    rw [failed] at read
    cases read
  errorAlike := by
    intro shared tail stop other _ _
    obtain ⟨stop, failed, -⟩ := stops (shared ++ other)
    exact ⟨stop, failed⟩

theorem unexpected (wanted : Wanted) : Orderly (Reader.unexpected wanted : Reader α) :=
  of_error fun tokens => ⟨⟨.unexpected tokens.head? wanted, tokens, 0⟩, rfl, rfl, rfl⟩

theorem tooDeep : Orderly (Reader.fail .nestedTooDeeply : Reader α) :=
  of_error fun tokens => ⟨⟨.nestedTooDeeply, tokens, 0⟩, rfl, rfl, rfl⟩

theorem bind {next : α → Reader β} (orderly : Orderly reader) (orderlyNext : ∀ value, Orderly (next value)) :
    Orderly (reader >>= next) where
  ok := by
    intro tokens value rest read
    obtain ⟨middle, left, readFirst, readNext⟩ := Reader.bind_eq_ok_iff.mp read
    exact ((orderlyNext middle).ok readNext).trans (orderly.ok readFirst)
  error := by
    intro tokens stop failed
    rcases Reader.bind_eq_error_iff.mp failed with failed | ⟨middle, left, readFirst, failed⟩
    · exact orderly.error failed
    · have suffix := orderly.ok readFirst
      obtain ⟨suffixNext, named⟩ := (orderlyNext middle).error failed
      exact ⟨suffixNext.trans suffix, fun token about => suffix.subset (named token about)⟩
  okAlike := by
    intro shared tail value rest other read more
    obtain ⟨middle, unread, readFirst, readNext⟩ := Reader.bind_eq_ok_iff.mp read
    have shorter := (orderlyNext middle).length_le readNext
    obtain ⟨between, rfl, readOther⟩ := orderly.okAlike other readFirst (by omega)
    obtain ⟨left, split, readLast⟩ := (orderlyNext middle).okAlike other readNext more
    exact ⟨left, split, (Reader.bind_of_ok readOther).trans readLast⟩
  errorAlike := by
    intro shared tail stop other failed more
    rcases Reader.bind_eq_error_iff.mp failed with failed | ⟨middle, unread, readFirst, failed⟩
    · obtain ⟨otherStop, failedOther⟩ := orderly.errorAlike other failed more
      exact ⟨otherStop, Reader.bind_of_error failedOther⟩
    · have shorter := (orderlyNext middle).error_length_le failed
      obtain ⟨between, rfl, readOther⟩ := orderly.okAlike other readFirst (by omega)
      obtain ⟨otherStop, failedLast⟩ := (orderlyNext middle).errorAlike other failed more
      exact ⟨otherStop, (Reader.bind_of_ok readOther).trans failedLast⟩

theorem ite {condition : Prop} [Decidable condition] (orderly : Orderly yes) (orderlyOther : Orderly no) :
    Orderly (if condition then yes else no) := by
  split
  · exact orderly
  · exact orderlyOther

theorem inBlock (orderly : Orderly reader) : Orderly (Reader.inBlock reader) where
  ok read := orderly.ok (Reader.inBlock_eq_ok_iff.mp read)
  error := by
    intro tokens stop failed
    obtain ⟨inner, failed, cause, left⟩ := Reader.inBlock_eq_error failed
    rw [← cause, ← left]
    exact orderly.error failed
  okAlike := by
    intro shared tail value rest other read more
    obtain ⟨left, split, readOther⟩ := orderly.okAlike other (Reader.inBlock_eq_ok_iff.mp read) more
    exact ⟨left, split, Reader.inBlock_eq_ok_iff.mpr readOther⟩
  errorAlike := by
    intro shared tail stop other failed more
    obtain ⟨inner, failed, -, left⟩ := Reader.inBlock_eq_error failed
    obtain ⟨otherStop, failedOther⟩ := orderly.errorAlike other failed (by rwa [left])
    exact ⟨{ otherStop with unfinished := otherStop.unfinished + 1 }, by rw [Reader.inBlock, failedOther]; rfl⟩

/-- A reader that goes by the first token: it takes the token and goes on, or leaves all as it is, or
stops. -/
theorem of_first
    (empty : (∃ value, reader [] = .ok (value, [])) ∨
      ∃ stop, reader [] = .error stop ∧ stop.rest = [] ∧ stop.cause.token? = none)
    (first : ∀ token : Token,
      (∃ inside, Orderly inside ∧ ∀ rest, reader (token :: rest) = inside rest) ∨
      (∃ value, ∀ rest, reader (token :: rest) = .ok (value, token :: rest)) ∨
      (∀ rest, ∃ stop, reader (token :: rest) = .error stop ∧ stop.rest <:+ token :: rest ∧
        ∀ about ∈ stop.cause.token?, about = token)) : Orderly reader := by
  have ok : ∀ {tokens value rest}, reader tokens = .ok (value, rest) → rest <:+ tokens := by
    intro tokens value rest read
    cases tokens with
    | nil =>
        rcases empty with ⟨same, readSame⟩ | ⟨stop, failed, -⟩
        · cases readSame.symm.trans read
          exact List.suffix_rfl
        · cases failed.symm.trans read
    | cons token tokens =>
        rcases first token with ⟨inside, orderly, goes⟩ | ⟨same, leaves⟩ | stops
        · exact (orderly.ok ((goes tokens).symm.trans read)).trans (List.suffix_cons token tokens)
        · cases (leaves tokens).symm.trans read
          exact List.suffix_rfl
        · obtain ⟨stop, failed, -⟩ := stops tokens
          cases failed.symm.trans read
  have error : ∀ {tokens stop}, reader tokens = .error stop →
      stop.rest <:+ tokens ∧ ∀ token ∈ stop.cause.token?, token ∈ tokens := by
    intro tokens stop failed
    cases tokens with
    | nil =>
        rcases empty with ⟨same, readSame⟩ | ⟨same, failedSame, left, unnamed⟩
        · cases readSame.symm.trans failed
        · cases failedSame.symm.trans failed
          rw [left, unnamed]
          exact ⟨List.suffix_rfl, nofun⟩
    | cons token tokens =>
        rcases first token with ⟨inside, orderly, goes⟩ | ⟨same, leaves⟩ | stops
        · obtain ⟨suffix, named⟩ := orderly.error ((goes tokens).symm.trans failed)
          exact ⟨suffix.trans (List.suffix_cons token tokens),
            fun about member => List.mem_cons_of_mem token (named about member)⟩
        · cases (leaves tokens).symm.trans failed
        · obtain ⟨same, failedSame, suffix, named⟩ := stops tokens
          cases failedSame.symm.trans failed
          exact ⟨suffix, fun about member => named about member ▸ List.mem_cons_self⟩
  -- If nothing is shared, more than everything would have to be left.
  refine ⟨ok, error, ?_, ?_⟩
  · intro shared tail value rest other read more
    cases shared with
    | nil => exact absurd (ok read).length_le (Nat.not_le.mpr more)
    | cons token shared =>
        rcases first token with ⟨inside, orderly, goes⟩ | ⟨same, leaves⟩ | stops
        · obtain ⟨left, split, readOther⟩ :=
            orderly.okAlike other ((goes (shared ++ tail)).symm.trans read) more
          exact ⟨left, split, (goes (shared ++ other)).trans readOther⟩
        · cases (leaves (shared ++ tail)).symm.trans read
          exact ⟨token :: shared, rfl, leaves (shared ++ other)⟩
        · obtain ⟨stop, failed, -⟩ := stops (shared ++ tail)
          cases failed.symm.trans read
  · intro shared tail stop other failed more
    cases shared with
    | nil => exact absurd (error failed).1.length_le (Nat.not_le.mpr more)
    | cons token shared =>
        rcases first token with ⟨inside, orderly, goes⟩ | ⟨same, leaves⟩ | stops
        · obtain ⟨otherStop, failedOther⟩ :=
            orderly.errorAlike other ((goes (shared ++ tail)).symm.trans failed) more
          exact ⟨otherStop, (goes (shared ++ other)).trans failedOther⟩
        · cases (leaves (shared ++ tail)).symm.trans failed
        · obtain ⟨otherStop, failedOther, -⟩ := stops (shared ++ other)
          exact ⟨otherStop, failedOther⟩

theorem check (kind : TokenKind) : Orderly (Reader.check kind) :=
  of_first (.inl ⟨_, rfl⟩) fun _ => .inr (.inl ⟨_, fun _ => rfl⟩)

theorem atEnd : Orderly Reader.atEnd := of_first (.inl ⟨_, rfl⟩) fun _ => .inr (.inl ⟨_, fun _ => rfl⟩)

theorem decision {decision : Reader Bool} (decides : Reader.Decides decision) : Orderly decision := by
  refine of_first (.inl ⟨_, decides.empty⟩) fun token => ?_
  rcases decides.first token with takes | leaves
  · exact .inl ⟨Pure.pure true, pure true, takes⟩
  · exact .inr (.inl ⟨false, leaves⟩)

theorem expect (kind : TokenKind) (lexeme place : String) : Orderly (Reader.expect kind lexeme place) :=
  (decision (Reader.acceptLexeme_decides kind lexeme)).bind fun _ => ite (pure ()) (unexpected _)

theorem expectKind (kind : TokenKind) (place : String) : Orderly (Reader.expectKind kind place) := by
  refine of_first (.inr ⟨_, rfl, rfl, rfl⟩) fun token => ?_
  by_cases same : token.kind = kind
  · exact .inl ⟨Pure.pure token.lexeme, pure _, fun rest => if_pos same⟩
  · exact .inr (.inr fun rest => ⟨_, if_neg same, List.suffix_rfl, nofun⟩)

/-- A reader that is as good as one with any bound that is high enough. The bound on the number of items depends on
the number of tokens, so two runs have different bounds, and neither is reached. -/
theorem of_bounded {bounded : Nat → Reader α} (orderly : ∀ limit, Orderly (bounded limit))
    (same : ∀ {limit tokens}, tokens.length ≤ limit → reader tokens = bounded limit tokens) : Orderly reader where
  ok read := (orderly _).ok ((same (Nat.le_refl _)).symm.trans read)
  error failed := (orderly _).error ((same (Nat.le_refl _)).symm.trans failed)
  okAlike := by
    intro shared tail value rest other read more
    rw [same (Nat.le_max_left _ (shared ++ other).length)] at read
    obtain ⟨left, split, readOther⟩ := (orderly _).okAlike other read more
    exact ⟨left, split, (same (Nat.le_max_right _ _)).trans readOther⟩
  errorAlike := by
    intro shared tail stop other failed more
    rw [same (Nat.le_max_left _ (shared ++ other).length)] at failed
    obtain ⟨otherStop, failedOther⟩ := (orderly _).errorAlike other failed more
    exact ⟨otherStop, (same (Nat.le_max_right _ _)).trans failedOther⟩

theorem decision_length {decision : Reader Bool} (decides : Reader.Decides decision) {tokens rest : List Token}
    (taken : decision tokens = .ok (true, rest)) : rest.length < tokens.length := by
  cases tokens with
  | nil => cases decides.empty.symm.trans taken
  | cons token tokens =>
      rcases decides.first token with takes | leaves
      · cases (takes tokens).symm.trans taken
        exact Nat.lt_succ_self _
      · cases (leaves tokens).symm.trans taken

theorem separatedUpTo_eq (orderly : Orderly reader) {limit more : Nat} {tokens : List Token}
    (enough : tokens.length < limit) (enoughMore : tokens.length < more) :
    Reader.separatedUpTo reader limit tokens = Reader.separatedUpTo reader more tokens := by
  induction limit generalizing more tokens with
  | zero => exact absurd enough (Nat.not_lt_zero _)
  | succ limit ih =>
      obtain _ | more := more
      · exact absurd enoughMore (Nat.not_lt_zero _)
      refine Reader.bind_congr rfl fun value left read => Reader.bind_congr rfl fun taken rest decided => ?_
      cases taken with
      | false => rfl
      | true =>
          have shorter := orderly.length_le read
          have shorterYet := decision_length (Reader.accept_decides .comma) decided
          exact Reader.bind_congr (ih (by omega) (by omega)) fun _ _ _ => rfl

theorem separatedUpTo (orderly : Orderly reader) (limit : Nat) : Orderly (Reader.separatedUpTo reader limit) := by
  induction limit with
  | zero => exact pure []
  | succ limit ih =>
      exact orderly.bind fun value => (decision (Reader.accept_decides .comma)).bind fun taken =>
        ite (ih.bind fun _ => pure _) (pure _)

theorem separated (orderly : Orderly reader) : Orderly (Reader.separated reader) :=
  of_bounded (fun limit => orderly.separatedUpTo (limit + 1))
    (fun enough => orderly.separatedUpTo_eq (Nat.lt_succ_self _) (Nat.lt_succ_of_le enough))

section

variable {done : List Token → Bool}

theorem repeatedUpTo_eq (consumes : Consumes reader) (atEnd : done [] = true) {limit more : Nat}
    {tokens : List Token} (enough : tokens.length ≤ limit) (enoughMore : tokens.length ≤ more) :
    Reader.repeatedUpTo done reader limit tokens = Reader.repeatedUpTo done reader more tokens := by
  -- Without tokens nothing is read, whatever the bound.
  have ended (limit : Nat) : Reader.repeatedUpTo done reader limit [] = .ok ([], []) := by
    cases limit with
    | zero => rfl
    | succ limit =>
        have gotten : (get : Reader (List Token)) [] = .ok ([], []) := rfl
        rw [Reader.repeatedUpTo, Reader.bind_of_ok gotten, if_pos atEnd]
        rfl
  induction limit generalizing more tokens with
  | zero =>
      rw [List.length_eq_zero_iff.mp (Nat.le_zero.mp enough), ended, ended]
  | succ limit ih =>
      obtain _ | more := more
      · rw [List.length_eq_zero_iff.mp (Nat.le_zero.mp enoughMore), ended, ended]
      refine Reader.bind_congr rfl fun seen left gotten => ?_
      cases gotten
      split
      · rfl
      · refine Reader.bind_congr rfl fun value rest read => ?_
        have shorter := consumes.length_lt read
        exact Reader.bind_congr (ih (by omega) (by omega)) fun _ _ _ => rfl

def look (done : List Token → Bool) : Reader Bool := fun tokens => .ok (done tokens, tokens)

theorem orderly_look (byFirst : ∀ token rest other, done (token :: rest) = done (token :: other)) :
    Orderly (look done) :=
  of_first (.inl ⟨_, rfl⟩) fun token =>
    .inr (.inl ⟨done [token], fun rest => by rw [look, byFirst token rest []]⟩)

theorem repeatedUpTo_succ (limit : Nat) : Reader.repeatedUpTo done reader (limit + 1) =
    look done >>= fun stops => if stops = true then Pure.pure [] else
      reader >>= fun value => Reader.repeatedUpTo done reader limit >>= fun values =>
        Pure.pure (value :: values) := rfl

theorem repeated (boundary : Reader.Boundary done) (orderly : Orderly reader) (consumes : Consumes reader) :
    Orderly (Reader.repeated done reader) := by
  refine of_bounded (fun limit => ?_)
    (fun enough => repeatedUpTo_eq consumes boundary.atEnd (Nat.le_refl _) enough)
  induction limit with
  | zero => exact pure []
  | succ limit ih =>
      rw [repeatedUpTo_succ]
      exact (orderly_look boundary.byFirst).bind fun stops => ite (pure [])
        (orderly.bind fun value => ih.bind fun values => pure _)

end

theorem term {nested : Reader Node} (array : Orderly (Reader.arrayTail nested))
    (tuple : Orderly (Reader.tupleTail nested)) : Orderly (Reader.term nested) := by
  refine of_first (.inr ⟨_, rfl, rfl, rfl⟩) fun token => ?_
  cases Reader.termStart token with
  | leaf _ taken => exact .inl ⟨Pure.pure _, pure _, taken nested⟩
  | array opens => exact .inl ⟨_, array, Reader.term_arrayStart opens⟩
  | tuple opens => exact .inl ⟨_, tuple, Reader.term_tupleStart opens⟩
  | oversize _ _ stops | unreadable _ _ stops =>
      exact .inr (.inr fun rest => ⟨_, stops nested rest, List.suffix_cons _ _,
        fun about same => (Option.some.inj same).symm⟩)
  | misfit stops => exact .inr (.inr fun rest => ⟨_, stops nested rest, List.suffix_rfl, nofun⟩)

theorem named {place : String} {next : String → Reader α} (orderlyNext : ∀ name, Orderly (next name))
    (orderly : Orderly no) : Orderly (Reader.named place next no) :=
  (check .identifier).bind fun _ => ite ((expectKind .identifier place).bind orderlyNext) orderly

end Orderly

namespace Consumes

variable {reader yes no : Reader α}

/-- The first step consumes a token, and no later one gives it back. -/
theorem bind {next : α → Reader β} (consumes : Consumes reader) (orderly : ∀ value, Orderly (next value)) :
    Consumes (reader >>= next) where
  length_lt read := by
    obtain ⟨middle, left, readFirst, readNext⟩ := Reader.bind_eq_ok_iff.mp read
    exact Nat.lt_of_le_of_lt ((orderly middle).length_le readNext) (consumes.length_lt readFirst)

theorem after {next : α → Reader β} (orderly : Orderly reader) (consumes : ∀ value, Consumes (next value)) :
    Consumes (reader >>= next) where
  length_lt read := by
    obtain ⟨middle, left, readFirst, readNext⟩ := Reader.bind_eq_ok_iff.mp read
    exact Nat.lt_of_lt_of_le ((consumes middle).length_lt readNext) (orderly.length_le readFirst)

theorem ite {condition : Prop} [Decidable condition] (consumes : Consumes yes) (consumesOther : Consumes no) :
    Consumes (if condition then yes else no) := by
  split
  · exact consumes
  · exact consumesOther

/-- At the end there is nothing to consume. -/
theorem empty (consumes : Consumes reader) : ∃ stop, reader [] = .error stop := by
  cases read : reader [] with
  | error stop => exact ⟨stop, rfl⟩
  | ok result => exact absurd (consumes.length_lt read) (Nat.not_lt_zero _)

theorem of_error (stops : ∀ tokens, ∃ stop, reader tokens = .error stop) : Consumes reader where
  length_lt := by
    intro tokens value rest read
    obtain ⟨stop, failed⟩ := stops tokens
    cases failed.symm.trans read

/-- A reader that takes the first token, or stops. -/
theorem of_first (empty : ∃ stop, reader [] = .error stop)
    (first : ∀ token : Token, (∃ inside, Orderly inside ∧ ∀ rest, reader (token :: rest) = inside rest) ∨
      ∀ rest, ∃ stop, reader (token :: rest) = .error stop) : Consumes reader where
  length_lt := by
    intro tokens value rest read
    cases tokens with
    | nil =>
        obtain ⟨stop, failed⟩ := empty
        cases failed.symm.trans read
    | cons token tokens =>
        rcases first token with ⟨inside, orderly, goes⟩ | stops
        · exact Nat.lt_succ_of_le (orderly.length_le ((goes tokens).symm.trans read))
        · obtain ⟨stop, failed⟩ := stops tokens
          cases failed.symm.trans read

theorem expect (kind : TokenKind) (lexeme place : String) : Consumes (Reader.expect kind lexeme place) where
  length_lt := by
    intro tokens value rest read
    obtain ⟨taken, left, decided, chosen⟩ := Reader.bind_eq_ok_iff.mp read
    cases taken with
    | false => cases chosen
    | true =>
        cases chosen
        exact Orderly.decision_length (Reader.acceptLexeme_decides kind lexeme) decided

theorem expectKind (kind : TokenKind) (place : String) : Consumes (Reader.expectKind kind place) := by
  refine of_first ⟨_, rfl⟩ fun token => ?_
  by_cases same : token.kind = kind
  · exact .inl ⟨Pure.pure token.lexeme, .pure _, fun rest => if_pos same⟩
  · exact .inr fun rest => ⟨_, if_neg same⟩

/-- Either side of a decision consumes a token: the one has it behind it, the other takes one of its own. -/
theorem choice {decision : Reader Bool} (decides : Reader.Decides decision)
    (orderly : Orderly yes) (consumes : Consumes no) :
    Consumes (decision >>= fun taken => if taken = true then yes else no) where
  length_lt := by
    intro tokens value rest read
    obtain ⟨taken, left, decided, chosen⟩ := Reader.bind_eq_ok_iff.mp read
    have shorter := (Orderly.decision decides).length_le decided
    cases taken with
    | false => exact Nat.lt_of_lt_of_le (consumes.length_lt chosen) shorter
    | true => exact Nat.lt_of_le_of_lt (orderly.length_le chosen) (Orderly.decision_length decides decided)

theorem separatedUpTo (consumes : Consumes reader) (orderly : Orderly reader) (limit : Nat) :
    Consumes (Reader.separatedUpTo reader (limit + 1)) :=
  consumes.bind fun _ => (Orderly.decision (Reader.accept_decides .comma)).bind fun _ =>
    .ite ((orderly.separatedUpTo limit).bind fun _ => .pure _) (.pure _)

theorem separated (consumes : Consumes reader) (orderly : Orderly reader) : Consumes (Reader.separated reader) where
  length_lt {tokens} _ _ read := (consumes.separatedUpTo orderly tokens.length).length_lt read

theorem inBlock (consumes : Consumes reader) : Consumes (Reader.inBlock reader) where
  length_lt read := consumes.length_lt (Reader.inBlock_eq_ok_iff.mp read)

theorem term {nested : Reader Node} (array : Orderly (Reader.arrayTail nested))
    (tuple : Orderly (Reader.tupleTail nested)) : Consumes (Reader.term nested) := by
  refine of_first ⟨_, rfl⟩ fun token => ?_
  cases Reader.termStart token with
  | leaf _ taken => exact .inl ⟨Pure.pure _, .pure _, taken nested⟩
  | array opens => exact .inl ⟨_, array, Reader.term_arrayStart opens⟩
  | tuple opens => exact .inl ⟨_, tuple, Reader.term_tupleStart opens⟩
  | oversize _ _ stops | unreadable _ _ stops | misfit stops => exact .inr fun rest => ⟨_, stops nested rest⟩

theorem named {place : String} {next : String → Reader α} (orderlyNext : ∀ name, Orderly (next name))
    (consumes : Consumes no) : Consumes (Reader.named place next no) :=
  .after (.check .identifier) fun _ => .ite ((expectKind .identifier place).bind orderlyNext) consumes

end Consumes

section Declared

variable {place : String} {next : String → Reader α} {no : Reader α}

theorem Consumes.declared (orderlyNext : ∀ name, Orderly (next name)) (consumes : Consumes no) :
    Consumes (Reader.skipDeclarator >>= fun _ => Reader.named place next no) where
  length_lt := by
    intro tokens value rest read
    rw [Reader.declared_eq] at read
    exact Nat.lt_of_lt_of_le ((Consumes.named orderlyNext consumes).length_lt read)
      (Reader.afterDeclarator_suffix tokens).length_le

theorem Orderly.declared (orderlyNext : ∀ name, Orderly (next name)) (orderlyNo : Orderly no)
    (consumes : Consumes no) : Orderly (Reader.skipDeclarator >>= fun _ => Reader.named place next no) := by
  have orderly : Orderly (Reader.named place next no) := .named orderlyNext orderlyNo
  refine ⟨?_, ?_, ?_, ?_⟩
  · intro tokens value rest read
    rw [Reader.declared_eq] at read
    exact (orderly.ok read).trans (Reader.afterDeclarator_suffix tokens)
  · intro tokens stop failed
    rw [Reader.declared_eq] at failed
    have suffix := Reader.afterDeclarator_suffix tokens
    obtain ⟨left, about⟩ := orderly.error failed
    exact ⟨left.trans suffix, fun token among => suffix.subset (about token among)⟩
  · intro shared tail value rest other read more
    have shorter := (Consumes.declared orderlyNext consumes).length_lt read
    rcases shared with _ | ⟨first, _ | ⟨second, shared⟩⟩
    · rw [List.nil_append] at shorter
      omega
    · rw [List.singleton_append, List.length_cons] at shorter
      omega
    · rw [Reader.declared_eq, Reader.afterDeclarator_append] at read ⊢
      exact orderly.okAlike other read more
  · intro shared tail stop other failed more
    rw [Reader.declared_eq] at failed ⊢
    rcases shared with _ | ⟨first, _ | ⟨second, shared⟩⟩
    · have shorter := Nat.le_trans (orderly.error_length_le failed) (Reader.afterDeclarator_suffix _).length_le
      rw [List.nil_append] at shorter
      omega
    · by_cases declarator : first.symbol = ⟨.identifier, Words.declarator⟩
      · -- Passed over or not, the declarator is gone, and nothing shared is left.
        rcases Reader.afterDeclarator_cases ([first] ++ tail) with same | ⟨_, second, rest, split, -, -, same⟩
        · rw [same, List.singleton_append, Reader.named_of_name _ (Token.symbol_eq_iff.mp declarator).1] at failed
          exact absurd ((orderlyNext _).error_length_le failed) (Nat.not_le.mpr more)
        · rw [same] at failed
          have shorter := orderly.error_length_le failed
          cases split
          omega
      · rw [List.singleton_append, Reader.afterDeclarator_of_other declarator] at failed ⊢
        rw [← List.singleton_append] at failed ⊢
        exact orderly.errorAlike other failed more
    · rw [Reader.afterDeclarator_append] at failed ⊢
      exact orderly.errorAlike other failed more

end Declared

/-- Both at once: where a repetition ends is well defined because its items consume. -/
theorem Built.orderly_consumes {takes settles : Bool} {reader other : Reader α}
    (built : Built takes settles reader other) : Orderly reader ∧ (takes = true → Consumes reader) := by
  induction built with
  | pure value => exact ⟨.pure value, nofun⟩
  | unexpected wanted => exact ⟨.unexpected wanted, fun _ => .of_error fun tokens => ⟨_, rfl⟩⟩
  | tooDeep _ => exact ⟨.tooDeep, fun _ => .of_error fun tokens => ⟨_, rfl⟩⟩
  | bind _ _ first next =>
      refine ⟨first.1.bind fun value => (next value).1, fun takes => ?_⟩
      rcases Bool.or_eq_true_iff.mp takes with takes | takes
      · exact (first.2 takes).bind fun value => (next value).1
      · exact .after first.1 fun value => (next value).2 takes
  | ite _ _ yes no =>
      refine ⟨.ite yes.1 no.1, fun takes => ?_⟩
      obtain ⟨takesYes, takesNo⟩ := Bool.and_eq_true_iff.mp takes
      exact .ite (yes.2 takesYes) (no.2 takesNo)
  | check kind => exact ⟨.check kind, nofun⟩
  | atEnd => exact ⟨.atEnd, nofun⟩
  | decision known => exact ⟨.decision known.decides, nofun⟩
  | choice known _ _ yes no =>
      exact ⟨(Orderly.decision known.decides).bind fun _ => .ite yes.1 no.1, fun takes =>
        .choice known.decides yes.1 (no.2 takes)⟩
  | expect place => exact ⟨.expect _ _ place, fun _ => .expect _ _ place⟩
  | expectKind place => exact ⟨.expectKind _ place, fun _ => .expectKind _ place⟩
  | separated _ item => exact ⟨item.1.separated, fun takes => (item.2 takes).separated item.1⟩
  | repeated boundary _ item => exact ⟨.repeated boundary item.1 (item.2 rfl), nofun⟩
  | inBlock _ inside => exact ⟨inside.1.inBlock, fun takes => (inside.2 takes).inBlock⟩
  | term _ _ array tuple => exact ⟨.term array.1 tuple.1, fun _ => .term array.1 tuple.1⟩
  | declared _ _ next no =>
      exact ⟨.declared (fun name => (next name).1) no.1 (no.2 rfl), fun _ =>
        .declared (fun name => (next name).1) (no.2 rfl)⟩

theorem Built.orderly {takes settles : Bool} {reader other : Reader α} (built : Built takes settles reader other) :
    Orderly reader := built.orderly_consumes.1

theorem Built.consumes {settles : Bool} {reader other : Reader α} (built : Built true settles reader other) :
    Consumes reader := built.orderly_consumes.2 rfl

end BraceCompiler
