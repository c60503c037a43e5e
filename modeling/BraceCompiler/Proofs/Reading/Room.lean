import BraceCompiler.Proofs.Reading.Built

/-! What room does to a reader: with less room it reads the same, unless it stops because something is
nested too deeply. -/

namespace BraceCompiler

/-- The reader does what the other does, or it runs out of levels. -/
def Lags {α : Type} (reader other : Reader α) : Prop := ∀ tokens,
  reader tokens = other tokens ∨
    ∃ rest unfinished, reader tokens = .error ⟨.nestedTooDeeply, rest, unfinished⟩

namespace Lags

variable {α β : Type} {reader other : Reader α}

theorem refl (reader : Reader α) : Lags reader reader := fun _ => .inl rfl

theorem fail (other : Reader α) : Lags (Reader.fail .nestedTooDeeply) other := fun _ => .inr ⟨_, _, rfl⟩

theorem bind {next nextOther : α → Reader β} (lags : Lags reader other)
    (lagsNext : ∀ value, Lags (next value) (nextOther value)) :
    Lags (reader >>= next) (other >>= nextOther) := by
  intro tokens
  change (reader tokens >>= fun read => next read.1 read.2) =
    (other tokens >>= fun read => nextOther read.1 read.2) ∨ ∃ rest unfinished,
      (reader tokens >>= fun read => next read.1 read.2) = .error ⟨.nestedTooDeeply, rest, unfinished⟩
  rcases lags tokens with same | ⟨rest, unfinished, stopped⟩
  · rw [same]
    cases other tokens with
    | error stop => exact .inl rfl
    | ok read => exact lagsNext read.1 read.2
  · rw [stopped]
    exact .inr ⟨rest, unfinished, rfl⟩

theorem ite {condition : Prop} [Decidable condition] {reader' other' : Reader α} (lags : Lags reader other)
    (lags' : Lags reader' other') :
    Lags (if condition then reader else reader') (if condition then other else other') := by
  split
  · exact lags
  · exact lags'

theorem inBlock (lags : Lags reader other) : Lags (Reader.inBlock reader) (Reader.inBlock other) := by
  intro tokens
  rcases lags tokens with same | ⟨rest, unfinished, stopped⟩
  · exact .inl (congrArg _ same)
  · exact .inr ⟨rest, unfinished + 1, by rw [Reader.inBlock, stopped]; rfl⟩

theorem separatedUpTo (lags : Lags reader other) (limit : Nat) :
    Lags (Reader.separatedUpTo reader limit) (Reader.separatedUpTo other limit) := by
  induction limit with
  | zero => exact refl _
  | succ limit ih => exact lags.bind fun _ => (refl _).bind fun _ => ite (ih.bind fun _ => refl _) (refl _)

theorem separated (lags : Lags reader other) : Lags (Reader.separated reader) (Reader.separated other) :=
  fun tokens => lags.separatedUpTo (tokens.length + 1) tokens

theorem repeatedUpTo (lags : Lags reader other) (done : List Token → Bool) (limit : Nat) :
    Lags (Reader.repeatedUpTo done reader limit) (Reader.repeatedUpTo done other limit) := by
  induction limit with
  | zero => exact refl _
  | succ limit ih =>
      exact (refl _).bind fun _ => ite (refl _) (lags.bind fun _ => ih.bind fun _ => refl _)

theorem repeated (lags : Lags reader other) (done : List Token → Bool) :
    Lags (Reader.repeated done reader) (Reader.repeated done other) :=
  fun tokens => lags.repeatedUpTo done tokens.length tokens

theorem term {nested nested' : Reader Node} (array : Lags (Reader.arrayTail nested) (Reader.arrayTail nested'))
    (tuple : Lags (Reader.tupleTail nested) (Reader.tupleTail nested')) :
    Lags (Reader.term nested) (Reader.term nested') := by
  intro tokens
  cases tokens with
  | nil => exact .inl rfl
  | cons token rest =>
      cases Reader.termStart token with
      | leaf _ taken => exact .inl ((taken nested rest).trans (taken nested' rest).symm)
      | array opens =>
          rw [Reader.term_arrayStart opens, Reader.term_arrayStart opens]
          exact array rest
      | tuple opens =>
          rw [Reader.term_tupleStart opens, Reader.term_tupleStart opens]
          exact tuple rest
      | oversize _ _ stops | unreadable _ _ stops | misfit stops =>
          exact .inl ((stops nested rest).trans (stops nested' rest).symm)

end Lags

theorem Built.lags {α : Type} {takes settles : Bool} {reader other : Reader α}
    (built : Built takes settles reader other) : Lags reader other := by
  induction built with
  | tooDeep other => exact .fail other
  | bind _ _ first next => exact first.bind next
  | ite _ _ yes no => exact .ite yes no
  | choice _ _ _ yes no => exact (Lags.refl _).bind fun _ => .ite yes no
  | separated _ item => exact item.separated
  | repeated _ _ item => exact item.repeated _
  | inBlock _ inside => exact inside.inBlock
  | term _ _ array tuple => exact .term array tuple
  | declared _ _ next no =>
      exact (Lags.refl _).bind fun _ => (Lags.refl _).bind fun _ => .ite ((Lags.refl _).bind next) no
  | _ => exact .refl _

end BraceCompiler
