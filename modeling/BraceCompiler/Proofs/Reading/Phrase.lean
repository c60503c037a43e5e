import BraceCompiler.Reading.Basic

/-! Readers against phrases. A phrase tells which runs of symbols stand for which values. A reader
reads a phrase if it takes no other runs, takes all of them where the symbol that follows allows it, and
stops at the first token that does not fit. The rules below build a reader's phrase along the reader's own
text. -/

namespace BraceCompiler

/-- A token without its place. -/
structure Symbol where
  kind : TokenKind
  lexeme : String
  deriving DecidableEq, Repr

def Token.symbol (token : Token) : Symbol := ⟨token.kind, token.lexeme⟩

theorem Token.symbol_eq_iff {token : Token} {kind : TokenKind} {lexeme : String} :
    token.symbol = ⟨kind, lexeme⟩ ↔ token.kind = kind ∧ token.lexeme = lexeme := by
  simp only [symbol, Symbol.mk.injEq]

theorem Token.symbol_of_kind {token : Token} {kind : TokenKind} (same : token.kind = kind) :
    token.symbol = ⟨kind, token.lexeme⟩ := symbol_eq_iff.mpr ⟨same, rfl⟩

theorem Token.is_iff {token : Token} {kind : TokenKind} {lexeme : String} :
    token.is kind lexeme = true ↔ token.symbol = ⟨kind, lexeme⟩ := by
  simp only [is, Bool.and_eq_true, beq_iff_eq, symbol_eq_iff]

/-- The one lexeme of a kind of punctuation. -/
def TokenKind.spelling? : TokenKind → Option String
  | .arrayStart => some "["
  | .arrayEnd => some "]"
  | .tupleStart => some "("
  | .tupleEnd => some ")"
  | .colon => some ":"
  | .comma => some ","
  | .assignment => some "="
  | _ => none

/-- Punctuation carries its own lexeme. -/
def Spelled (tokens : List Token) : Prop :=
  ∀ token ∈ tokens, ∀ lexeme ∈ token.kind.spelling?, token.lexeme = lexeme

instance (tokens : List Token) : Decidable (Spelled tokens) :=
  inferInstanceAs (Decidable (∀ token ∈ tokens, ∀ lexeme ∈ token.kind.spelling?, token.lexeme = lexeme))

theorem Spelled.symbol_eq {token : Token} {rest : List Token} {kind : TokenKind} {lexeme : String}
    (spelled : Spelled (token :: rest)) (same : token.kind = kind)
    (spelling : kind.spelling? = some lexeme) : token.symbol = ⟨kind, lexeme⟩ := by
  subst same
  exact Token.symbol_eq_iff.mpr ⟨rfl, spelled token List.mem_cons_self lexeme spelling⟩

theorem Spelled.of_append {used rest : List Token} (spelled : Spelled (used ++ rest)) : Spelled rest :=
  fun token member => spelled token (List.mem_append_right used member)

theorem Spelled.tail {token : Token} {rest : List Token} (spelled : Spelled (token :: rest)) :
    Spelled rest := fun other member => spelled other (List.mem_cons_of_mem token member)

/-- Which runs of symbols stand for which values. -/
abbrev Phrase (α : Type) := List Symbol → α → Prop

/-- The phrases of a language with a limit to its depth, for each limit. -/
abbrev Phrases (α : Type) := (limit : Nat) → Phrase α

/-- What the symbols after a phrase have to be like. -/
abbrev Follow := List Symbol → Prop

namespace Follow

def any : Follow := fun _ => True

/-- There is a next symbol, and it is of this kind. -/
def isKind (kind : TokenKind) : Follow := fun rest => ∃ symbol ∈ rest.head?, symbol.kind = kind

/-- The next symbol, if there is one, is not of this kind. -/
def notKind (kind : TokenKind) : Follow := fun rest => ∀ symbol ∈ rest.head?, symbol.kind ≠ kind

/-- The next symbol, if there is one, is not this one. -/
def notSymbol (other : Symbol) : Follow := fun rest => ∀ symbol ∈ rest.head?, symbol ≠ other

theorem notSymbol_cons {symbol other : Symbol} {tail rest : List Symbol} (differs : symbol ≠ other) :
    notSymbol other (symbol :: tail ++ rest) := by
  rintro _ ⟨⟩
  exact differs

theorem notKind_cons {symbol : Symbol} {kind : TokenKind} {tail rest : List Symbol}
    (differs : symbol.kind ≠ kind) : notKind kind (symbol :: tail ++ rest) := by
  rintro _ ⟨⟩
  exact differs

theorem notKind_of_isKind {kind other : TokenKind} {rest : List Symbol} (is : isKind kind rest)
    (differs : kind ≠ other) : notKind other rest := by
  obtain ⟨symbol, first, same⟩ := is
  intro next firstNext
  cases first.symm.trans firstNext
  rw [same]
  exact differs

end Follow

variable {α β : Type}

namespace Reader

theorem bind_eq_ok_iff {first : Reader α} {next : α → Reader β} {tokens rest : List Token} {value : β} :
    (first >>= next) tokens = .ok (value, rest) ↔
      ∃ middle left, first tokens = .ok (middle, left) ∧ next middle left = .ok (value, rest) := by
  change (first tokens >>= fun read => next read.1 read.2) = _ ↔ _
  cases first tokens with
  | error stop => simp [bind, Except.bind]
  | ok read =>
      constructor
      · intro readNext
        exact ⟨read.1, read.2, rfl, readNext⟩
      · rintro ⟨middle, left, same, readNext⟩
        cases same
        exact readNext

theorem bind_of_ok {first : Reader α} {next : α → Reader β} {tokens left : List Token} {middle : α}
    (read : first tokens = .ok (middle, left)) : (first >>= next) tokens = next middle left := by
  change (first tokens >>= fun read => next read.1 read.2) = _
  rw [read]
  rfl

theorem bind_eq_error_iff {first : Reader α} {next : α → Reader β} {tokens : List Token} {stop : Stop} :
    (first >>= next) tokens = .error stop ↔ first tokens = .error stop ∨
      ∃ middle left, first tokens = .ok (middle, left) ∧ next middle left = .error stop := by
  cases read : first tokens with
  | error other =>
      change (first tokens >>= fun read => next read.1 read.2) = _ ↔ _
      simp [read, bind, Except.bind]
  | ok result =>
      obtain ⟨middle, left⟩ := result
      rw [bind_of_ok read]
      constructor
      · intro failed
        exact .inr ⟨middle, left, rfl, failed⟩
      · rintro (failed | ⟨middle, left, same, failed⟩)
        · cases failed
        · cases same
          exact failed

theorem bind_of_error {first : Reader α} {next : α → Reader β} {tokens : List Token} {stop : Stop}
    (failed : first tokens = .error stop) : (first >>= next) tokens = .error stop :=
  bind_eq_error_iff.mpr (.inl failed)

theorem bind_congr {first other : Reader α} {next nextOther : α → Reader β} {tokens : List Token}
    (same : first tokens = other tokens)
    (sameNext : ∀ value left, other tokens = .ok (value, left) → next value left = nextOther value left) :
    (first >>= next) tokens = (other >>= nextOther) tokens := by
  cases read : other tokens with
  | error stop => rw [bind_of_error (same.trans read), bind_of_error read]
  | ok result =>
      obtain ⟨value, left⟩ := result
      rw [bind_of_ok (same.trans read), bind_of_ok read]
      exact sameNext value left read

theorem inBlock_eq_ok_iff {reader : Reader α} {tokens : List Token} {result : α × List Token} :
    inBlock reader tokens = .ok result ↔ reader tokens = .ok result := by
  rw [inBlock]
  cases reader tokens with
  | error stop =>
      constructor
      · intro read
        cases read
      · intro read
        cases read
  | ok read => exact Iff.rfl

/-- A failure inside a block differs only in how many blocks it leaves unfinished. -/
theorem inBlock_eq_error {reader : Reader α} {tokens : List Token} {stop : Stop}
    (failed : inBlock reader tokens = .error stop) :
    ∃ inner, reader tokens = .error inner ∧ inner.cause = stop.cause ∧ inner.rest = stop.rest := by
  rw [inBlock] at failed
  cases inside : reader tokens with
  | error inner =>
      rw [inside] at failed
      cases failed
      exact ⟨inner, rfl, rfl, rfl⟩
  | ok read =>
      rw [inside] at failed
      cases failed

/-- The reader takes the first token or leaves it, and tells which. -/
structure Decides (decision : Reader Bool) : Prop where
  empty : decision [] = .ok (false, [])
  first : ∀ token : Token, (∀ rest, decision (token :: rest) = .ok (true, rest)) ∨
    ∀ rest, decision (token :: rest) = .ok (false, token :: rest)

theorem accept_decides (kind : TokenKind) : Decides (accept kind) := by
  refine ⟨rfl, fun token => ?_⟩
  by_cases same : token.kind = kind
  · exact .inl fun rest => if_pos same
  · exact .inr fun rest => if_neg same

theorem acceptLexeme_decides (kind : TokenKind) (lexeme : String) : Decides (acceptLexeme kind lexeme) := by
  refine ⟨rfl, fun token => ?_⟩
  by_cases same : token.is kind lexeme = true
  · exact .inl fun rest => if_pos same
  · exact .inr fun rest => if_neg same

theorem Decides.answers {decision : Reader Bool} (decides : Decides decision) (tokens : List Token) :
    ∃ taken left, decision tokens = .ok (taken, left) := by
  cases tokens with
  | nil => exact ⟨_, _, decides.empty⟩
  | cons token rest =>
      rcases decides.first token with takes | leaves
      · exact ⟨_, _, takes rest⟩
      · exact ⟨_, _, leaves rest⟩

end Reader

/-- The reader takes the runs of symbols that the phrase allows and no others. If it stops at a token that it did not
expect, it names that token, and what it has taken begins what the phrase allows, perhaps only with one level more: a
reader that has no level left says what it wants before it finds that out. -/
structure Reads (reader : Reader α) (phrase : Phrases α) (limit : Nat) (follow : Follow) : Prop where
  sound : ∀ {more tokens rest value}, limit ≤ more → Spelled tokens → reader tokens = .ok (value, rest) →
    ∃ used, tokens = used ++ rest ∧ phrase more (used.map Token.symbol) value
  complete : ∀ {used value} rest, phrase limit (used.map Token.symbol) value →
    follow (rest.map Token.symbol) → reader (used ++ rest) = .ok (value, rest)
  live : ∃ word value, phrase (limit + 1) word value
  stops : ∀ {tokens stop found wanted}, Spelled tokens → reader tokens = .error stop →
    stop.cause = .unexpected found wanted → found = stop.rest.head? ∧
      ∃ used, tokens = used ++ stop.rest ∧ ∃ word value, phrase (limit + 1) (used.map Token.symbol ++ word) value

namespace Reads

variable {reader : Reader α} {phrase other : Phrases α} {limit : Nat} {follow : Follow}

/-- A phrase may be put in other words. -/
theorem congr (reads : Reads reader phrase limit follow)
    (same : ∀ more, limit ≤ more → ∀ word value, phrase more word value ↔ other more word value) :
    Reads reader other limit follow where
  sound less spelled read := by
    obtain ⟨used, split, stands⟩ := reads.sound less spelled read
    exact ⟨used, split, (same _ less _ _).mp stands⟩
  complete rest stands next := reads.complete rest ((same _ (Nat.le_refl _) _ _).mpr stands) next
  live := by
    obtain ⟨word, value, stands⟩ := reads.live
    exact ⟨word, value, (same _ (Nat.le_succ _) _ _).mp stands⟩
  stops spelled failed cause := by
    obtain ⟨named, used, split, word, value, stands⟩ := reads.stops spelled failed cause
    exact ⟨named, used, split, word, value, (same _ (Nat.le_succ _) _ _).mp stands⟩

/-- More may be asked of what follows. -/
theorem narrow {narrower : Follow} (reads : Reads reader phrase limit follow)
    (narrows : ∀ rest, narrower rest → follow rest) : Reads reader phrase limit narrower :=
  { reads with complete := fun rest stands next => reads.complete rest stands (narrows _ next) }

theorem anywhere (reads : Reads reader phrase limit .any) : Reads reader phrase limit follow :=
  reads.narrow fun _ _ => trivial

theorem pure (made : α) : Reads (pure made) (fun _ word value => word = [] ∧ value = made) limit follow where
  sound := by
    intro more tokens rest value _ _ read
    change Except.ok (made, tokens) = .ok (value, rest) at read
    cases read
    exact ⟨[], rfl, rfl, rfl⟩
  complete := by
    rintro used value rest ⟨empty, rfl⟩ _
    rw [List.map_eq_nil_iff.mp empty]
    rfl
  live := ⟨[], made, rfl, rfl⟩
  stops := by
    intro tokens stop found wanted _ failed
    cases failed

/-- A depth that is reached is no unexpected token. -/
theorem tooDeep (dead : ∀ word value, ¬phrase limit word value) (live : ∃ word value, phrase (limit + 1) word value) :
    Reads (Reader.fail .nestedTooDeeply) phrase limit follow where
  sound := by
    intro more tokens rest value _ _ read
    cases read
  complete := by
    intro used value rest stands
    exact absurd stands (dead _ value)
  live := live
  stops := by
    intro tokens stop found wanted _ failed cause
    cases failed
    cases cause

/-- One reader after another reads one phrase after the other. What follows the first phrase is the
second one, or what follows both if the second is empty. -/
theorem bind {first : Reader α} {next : α → Reader β} {left : Phrases α} {right : α → Phrases β}
    {between after : Follow} (reads : Reads first left limit between)
    (readsNext : ∀ middle, Reads (next middle) (right middle) limit after)
    (meets : ∀ middle word value rest, right middle limit word value → after rest → between (word ++ rest)) :
    Reads (first >>= next) (fun more word value => ∃ middle head tail,
      word = head ++ tail ∧ left more head middle ∧ right middle more tail value) limit after where
  sound := by
    intro more tokens rest value less spelled read
    obtain ⟨middle, unread, readFirst, readNext⟩ := Reader.bind_eq_ok_iff.mp read
    obtain ⟨head, rfl, standsFirst⟩ := reads.sound less spelled readFirst
    obtain ⟨tail, rfl, standsNext⟩ := (readsNext middle).sound less spelled.of_append readNext
    exact ⟨head ++ tail, (List.append_assoc ..).symm, middle, _, _, List.map_append, standsFirst, standsNext⟩
  complete := by
    rintro used value rest ⟨middle, head, tail, split, standsFirst, standsNext⟩ next
    obtain ⟨usedHead, usedTail, rfl, rfl, rfl⟩ := List.map_eq_append_iff.mp split
    have readFirst := reads.complete (usedTail ++ rest) standsFirst
      (by simpa only [List.map_append] using meets middle _ value _ standsNext next)
    rw [List.append_assoc, Reader.bind_of_ok readFirst]
    exact (readsNext middle).complete rest standsNext next
  live := by
    obtain ⟨head, middle, standsFirst⟩ := reads.live
    obtain ⟨tail, value, standsNext⟩ := (readsNext middle).live
    exact ⟨_, value, middle, head, tail, rfl, standsFirst, standsNext⟩
  stops := by
    intro tokens stop found wanted spelled failed cause
    rcases Reader.bind_eq_error_iff.mp failed with failedFirst | ⟨middle, unread, readFirst, failedNext⟩
    · -- What the first reader has begun is completed to some value, and the next one is live after it.
      obtain ⟨named, used, split, word, middle, standsFirst⟩ := reads.stops spelled failedFirst cause
      obtain ⟨tail, value, standsNext⟩ := (readsNext middle).live
      exact ⟨named, used, split, word ++ tail, value, middle, _, tail, (List.append_assoc ..).symm, standsFirst,
        standsNext⟩
    · obtain ⟨head, rfl, standsFirst⟩ := reads.sound (Nat.le_succ limit) spelled readFirst
      obtain ⟨named, used, rfl, word, value, standsNext⟩ :=
        (readsNext middle).stops spelled.of_append failedNext cause
      refine ⟨named, head ++ used, (List.append_assoc ..).symm, word, value, middle, _, _, ?_, standsFirst, standsNext⟩
      rw [List.map_append, List.append_assoc]

/-- A value made from the one that was read. -/
theorem map {made : α → β} (reads : Reads reader phrase limit follow) :
    Reads (reader >>= fun value => Pure.pure (made value))
      (fun more word value => ∃ read, phrase more word read ∧ value = made read) limit follow := by
  refine (bind reads (fun value => Reads.pure (made value)) ?_).congr ?_
  · rintro middle word value rest ⟨rfl, -⟩ next
    exact next
  · intro more _ word value
    constructor
    · rintro ⟨read, head, tail, rfl, stands, rfl, rfl⟩
      exact ⟨read, by simpa only [List.append_nil] using stands, rfl⟩
    · rintro ⟨read, stands, rfl⟩
      exact ⟨read, word, [], (List.append_nil word).symm, stands, rfl, rfl⟩

theorem expectKind (kind : TokenKind) (place : String) :
    Reads (Reader.expectKind kind place) (fun _ word lexeme => word = [⟨kind, lexeme⟩]) limit follow where
  sound := by
    intro more tokens rest lexeme _ _ read
    cases tokens with
    | nil => cases read
    | cons token tokens =>
        rw [Reader.expectKind] at read
        split at read
        · rename_i same
          cases read
          exact ⟨[token], rfl, by rw [← same]; rfl⟩
        · cases read
  complete := by
    intro used lexeme rest stands _
    obtain ⟨token, rfl, symbol⟩ := List.map_eq_singleton_iff.mp stands
    obtain ⟨same, rfl⟩ := Token.symbol_eq_iff.mp symbol
    exact if_pos same
  live := ⟨_, "", rfl⟩
  stops := by
    intro tokens stop found wanted _ failed cause
    have asked : stop = ⟨.unexpected tokens.head? (.ofKind kind place), tokens, 0⟩ := by
      cases tokens with
      | nil =>
          cases failed
          rfl
      | cons token tokens =>
          rw [Reader.expectKind] at failed
          split at failed
          · cases failed
          · cases failed
            rfl
    subst asked
    cases cause
    exact ⟨rfl, [], rfl, _, "", rfl⟩

end Reads

/-- A decision that consumes this symbol if it comes next, and otherwise leaves all as it is. -/
structure Accepts (decision : Reader Bool) (symbol : Symbol) (refused : Follow) : Prop extends
    Reader.Decides decision where
  sound : ∀ {tokens left taken}, Spelled tokens → decision tokens = .ok (taken, left) →
    (taken = true ∧ ∃ token, token.symbol = symbol ∧ tokens = token :: left) ∨
      (taken = false ∧ left = tokens)
  takes : ∀ {token} rest, token.symbol = symbol → decision (token :: rest) = .ok (true, rest)
  leaves : ∀ {tokens}, refused (tokens.map Token.symbol) → decision tokens = .ok (false, tokens)

namespace Accepts

theorem acceptLexeme (kind : TokenKind) (lexeme : String) :
    Accepts (Reader.acceptLexeme kind lexeme) ⟨kind, lexeme⟩ (.notSymbol ⟨kind, lexeme⟩) where
  toDecides := Reader.acceptLexeme_decides kind lexeme
  sound := by
    intro tokens left taken _ decided
    cases tokens with
    | nil => cases decided; exact .inr ⟨rfl, rfl⟩
    | cons token tokens =>
        rw [Reader.acceptLexeme] at decided
        split at decided
        · rename_i same
          cases decided
          exact .inl ⟨rfl, token, Token.is_iff.mp same, rfl⟩
        · cases decided; exact .inr ⟨rfl, rfl⟩
  takes _ same := if_pos (Token.is_iff.mpr same)
  leaves := by
    intro tokens absent
    cases tokens with
    | nil => rfl
    | cons token tokens => exact if_neg fun same => absent _ rfl (Token.is_iff.mp same)

theorem accept (kind : TokenKind) {lexeme : String} (spelling : kind.spelling? = some lexeme) :
    Accepts (Reader.accept kind) ⟨kind, lexeme⟩ (.notKind kind) where
  toDecides := Reader.accept_decides kind
  sound := by
    intro tokens left taken spelled decided
    cases tokens with
    | nil => cases decided; exact .inr ⟨rfl, rfl⟩
    | cons token tokens =>
        rw [Reader.accept] at decided
        split at decided
        · rename_i same
          have symbol := spelled.symbol_eq same spelling
          cases decided
          exact .inl ⟨rfl, token, symbol, rfl⟩
        · cases decided; exact .inr ⟨rfl, rfl⟩
  takes _ same := if_pos (Token.symbol_eq_iff.mp same).1
  leaves := by
    intro tokens absent
    cases tokens with
    | nil => rfl
    | cons token tokens => exact if_neg (absent _ rfl)

end Accepts

namespace Reads

variable {phrase other : Phrases α} {limit : Nat} {follow : Follow} {yes no : Reader α}

/-- A choice by the next symbol, which is consumed. -/
theorem choice {decision : Reader Bool} {symbol : Symbol} {refused : Follow}
    (accepts : Accepts decision symbol refused)
    (readsYes : Reads yes phrase limit follow) (readsNo : Reads no other limit follow)
    (apart : ∀ word value rest, other limit word value → follow rest → refused (word ++ rest)) :
    Reads (decision >>= fun taken => if taken = true then yes else no)
      (fun more word value => (∃ tail, word = symbol :: tail ∧ phrase more tail value) ∨ other more word value)
      limit follow where
  sound := by
    intro more tokens rest value less spelled read
    obtain ⟨taken, left, decided, chosen⟩ := Reader.bind_eq_ok_iff.mp read
    rcases accepts.sound spelled decided with ⟨rfl, token, rfl, rfl⟩ | ⟨rfl, rfl⟩
    · obtain ⟨used, rfl, stands⟩ := readsYes.sound less spelled.tail chosen
      exact ⟨token :: used, rfl, .inl ⟨_, rfl, stands⟩⟩
    · obtain ⟨used, split, stands⟩ := readsNo.sound less spelled chosen
      exact ⟨used, split, .inr stands⟩
  complete := by
    intro used value rest stands next
    rcases stands with ⟨tail, split, stands⟩ | stands
    · obtain ⟨token, usedTail, rfl, same, rfl⟩ := List.map_eq_cons_iff.mp split
      have taken := accepts.takes (usedTail ++ rest) same
      exact (Reader.bind_of_ok taken).trans (readsYes.complete rest stands next)
    · have absent := apart _ value _ stands next
      rw [← List.map_append] at absent
      exact (Reader.bind_of_ok (accepts.leaves absent)).trans (readsNo.complete rest stands next)
  live := by
    obtain ⟨word, value, stands⟩ := readsNo.live
    exact ⟨word, value, .inr stands⟩
  stops := by
    intro tokens stop found wanted spelled failed cause
    obtain ⟨taken, left, decided⟩ := accepts.answers tokens
    rw [Reader.bind_of_ok decided] at failed
    rcases accepts.sound spelled decided with ⟨rfl, token, rfl, rfl⟩ | ⟨rfl, rfl⟩
    · obtain ⟨named, used, rfl, word, value, stands⟩ := readsYes.stops spelled.tail failed cause
      exact ⟨named, token :: used, rfl, word, value, .inl ⟨_, rfl, stands⟩⟩
    · obtain ⟨named, used, split, word, value, stands⟩ := readsNo.stops spelled failed cause
      exact ⟨named, used, split, word, value, .inr stands⟩

/-- A choice of which only one side reads anything. The other stops before it has taken a token. -/
theorem choiceOnly {decision : Reader Bool} {symbol : Symbol} {refused : Follow} {wanted : Wanted}
    (accepts : Accepts decision symbol refused) (readsYes : Reads yes phrase limit follow) :
    Reads (decision >>= fun taken => if taken = true then yes else Reader.unexpected wanted)
      (fun more word value => ∃ tail, word = symbol :: tail ∧ phrase more tail value) limit follow where
  sound := by
    intro more tokens rest value less spelled read
    obtain ⟨taken, left, decided, chosen⟩ := Reader.bind_eq_ok_iff.mp read
    rcases accepts.sound spelled decided with ⟨rfl, token, rfl, rfl⟩ | ⟨rfl, -⟩
    · obtain ⟨used, rfl, stands⟩ := readsYes.sound less spelled.tail chosen
      exact ⟨token :: used, rfl, _, rfl, stands⟩
    · cases chosen
  complete := by
    rintro used value rest ⟨tail, split, stands⟩ next
    obtain ⟨token, usedTail, rfl, same, rfl⟩ := List.map_eq_cons_iff.mp split
    have taken := accepts.takes (usedTail ++ rest) same
    exact (Reader.bind_of_ok taken).trans (readsYes.complete rest stands next)
  live := by
    obtain ⟨word, value, stands⟩ := readsYes.live
    exact ⟨symbol :: word, value, word, rfl, stands⟩
  stops := by
    intro tokens stop found wanted spelled failed cause
    obtain ⟨taken, left, decided⟩ := accepts.answers tokens
    rw [Reader.bind_of_ok decided] at failed
    rcases accepts.sound spelled decided with ⟨rfl, token, rfl, rfl⟩ | ⟨rfl, rfl⟩
    · obtain ⟨named, used, rfl, word, value, stands⟩ := readsYes.stops spelled.tail failed cause
      exact ⟨named, token :: used, rfl, word, value, _, rfl, stands⟩
    · obtain ⟨word, value, stands⟩ := readsYes.live
      cases failed
      cases cause
      exact ⟨rfl, [], rfl, symbol :: word, value, word, rfl, stands⟩

/-- A choice by the kind of the next token, which is left in place. -/
theorem check {kind : TokenKind} (readsYes : Reads yes phrase limit follow) (readsNo : Reads no other limit follow)
    (begins : ∀ word value rest, phrase limit word value → follow rest → Follow.isKind kind (word ++ rest))
    (apart : ∀ word value rest, other limit word value → follow rest → Follow.notKind kind (word ++ rest)) :
    Reads (Reader.check kind >>= fun found => if found = true then yes else no)
      (fun more word value => phrase more word value ∨ other more word value) limit follow where
  sound := by
    intro more tokens rest value less spelled read
    obtain ⟨found, left, checked, chosen⟩ := Reader.bind_eq_ok_iff.mp read
    cases checked
    split at chosen
    · obtain ⟨used, split, stands⟩ := readsYes.sound less spelled chosen
      exact ⟨used, split, .inl stands⟩
    · obtain ⟨used, split, stands⟩ := readsNo.sound less spelled chosen
      exact ⟨used, split, .inr stands⟩
  complete := by
    intro used value rest stands next
    have checked : Reader.check kind (used ++ rest) =
        .ok ((used ++ rest).head?.any (·.kind == kind), used ++ rest) := rfl
    rw [Reader.bind_of_ok checked]
    rcases stands with stands | stands
    · obtain ⟨symbol, first, same⟩ := begins _ value _ stands next
      rw [← List.map_append, List.head?_map] at first
      obtain ⟨token, head, rfl⟩ := Option.map_eq_some_iff.mp first
      have found : (used ++ rest).head?.any (·.kind == kind) = true := by
        rw [head]
        exact beq_iff_eq.mpr same
      rw [if_pos found]
      exact readsYes.complete rest stands next
    · have absent := apart _ value _ stands next
      rw [← List.map_append] at absent
      have differs : ¬ (used ++ rest).head?.any (·.kind == kind) = true := by
        intro found
        obtain ⟨token, first, same⟩ := (Option.any_eq_true ..).mp found
        refine absent token.symbol ?_ (eq_of_beq same)
        rw [List.head?_map, first]
        rfl
      rw [if_neg differs]
      exact readsNo.complete rest stands next
  live := by
    obtain ⟨word, value, stands⟩ := readsNo.live
    exact ⟨word, value, .inr stands⟩
  stops := by
    intro tokens stop found wanted spelled failed cause
    have checked : Reader.check kind tokens = .ok (tokens.head?.any (·.kind == kind), tokens) := rfl
    rw [Reader.bind_of_ok checked] at failed
    split at failed
    · obtain ⟨named, used, split, word, value, stands⟩ := readsYes.stops spelled failed cause
      exact ⟨named, used, split, word, value, .inl stands⟩
    · obtain ⟨named, used, split, word, value, stands⟩ := readsNo.stops spelled failed cause
      exact ⟨named, used, split, word, value, .inr stands⟩

theorem expect (kind : TokenKind) (lexeme place : String) :
    Reads (Reader.expect kind lexeme place) (fun _ word _ => word = [⟨kind, lexeme⟩]) limit follow := by
  refine (choiceOnly (Accepts.acceptLexeme kind lexeme) (Reads.pure ())).congr ?_
  intro more _ word value
  constructor
  · rintro ⟨tail, rfl, rfl, -⟩
    rfl
  · rintro rfl
    exact ⟨[], rfl, rfl, rfl⟩

/-- Only failures tell whether a phrase stands in a block. -/
theorem inBlock {reader : Reader α} (reads : Reads reader phrase limit follow) :
    Reads (Reader.inBlock reader) phrase limit follow where
  sound less spelled read := reads.sound less spelled (Reader.inBlock_eq_ok_iff.mp read)
  complete rest stands next := Reader.inBlock_eq_ok_iff.mpr (reads.complete rest stands next)
  live := reads.live
  stops := by
    intro tokens stop found wanted spelled failed cause
    obtain ⟨inner, failed, sameCause, left⟩ := Reader.inBlock_eq_error failed
    rw [← left]
    exact reads.stops spelled failed (sameCause.trans cause)

/-- A symbol that is asked for, and then more. -/
theorem expectThen (kind : TokenKind) (lexeme place : String) {next : Reader α}
    (reads : Reads next phrase limit follow) :
    Reads (Reader.expect kind lexeme place >>= fun _ => next)
      (fun more word value => ∃ tail, word = ⟨kind, lexeme⟩ :: tail ∧ phrase more tail value) limit follow := by
  have asked : Reads (Reader.expect kind lexeme place) (fun _ word _ => word = [⟨kind, lexeme⟩]) limit .any :=
    expect kind lexeme place
  refine (bind asked (fun _ => reads) (fun _ _ _ _ _ _ => trivial)).congr ?_
  intro more _ word value
  constructor
  · rintro ⟨-, head, tail, rfl, rfl, stands⟩
    exact ⟨tail, rfl, stands⟩
  · rintro ⟨tail, rfl, stands⟩
    exact ⟨(), [_], tail, rfl, rfl, stands⟩

/-- A symbol that is asked for at the end. -/
theorem expectLast (kind : TokenKind) (lexeme place : String) (made : α) :
    Reads (Reader.expect kind lexeme place >>= fun _ => Pure.pure made)
      (fun _ word value => word = [⟨kind, lexeme⟩] ∧ value = made) limit follow := by
  refine (expectThen kind lexeme place (Reads.pure made)).congr ?_
  intro more _ word value
  constructor
  · rintro ⟨tail, rfl, rfl, rfl⟩
    exact ⟨rfl, rfl⟩
  · rintro ⟨rfl, rfl⟩
    exact ⟨[], rfl, rfl, rfl⟩

/-- A lexeme of a kind that is asked for, and then more. -/
theorem expectKindThen (kind : TokenKind) (place : String) {next : String → Reader α}
    {phrase : String → Phrases α} (reads : ∀ lexeme, Reads (next lexeme) (phrase lexeme) limit follow) :
    Reads (Reader.expectKind kind place >>= next)
      (fun more word value => ∃ lexeme tail, word = ⟨kind, lexeme⟩ :: tail ∧ phrase lexeme more tail value)
      limit follow := by
  have asked : Reads (Reader.expectKind kind place) (fun _ word lexeme => word = [⟨kind, lexeme⟩]) limit .any :=
    expectKind kind place
  refine (bind asked reads (fun _ _ _ _ _ _ => trivial)).congr ?_
  intro more _ word value
  constructor
  · rintro ⟨lexeme, head, tail, rfl, rfl, stands⟩
    exact ⟨lexeme, tail, rfl, stands⟩
  · rintro ⟨lexeme, tail, rfl, stands⟩
    exact ⟨lexeme, [_], tail, rfl, rfl, stands⟩

end Reads

end BraceCompiler
