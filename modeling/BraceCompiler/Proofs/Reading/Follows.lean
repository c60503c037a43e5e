import BraceCompiler.Proofs.Reading.Routine
import BraceCompiler.Proofs.Reading.Shapes

/-! What it is for a routine to follow a reader: on every cursor at a given depth it comes to an end, with the result,
the place and the depth that running the reader gives. Everything that routines are put together from keeps this. -/

namespace BraceCompiler

variable {α β : Type}

namespace Cursor

variable {cursor : Cursor} {rest later : List Token} {value : α}

theorem rest_advanceTo (suffix : rest <:+ cursor.rest) : (cursor.advanceTo rest).rest = rest := by
  have same := List.suffix_iff_eq_drop.mp suffix
  conv_rhs => rw [same]
  simp only [Cursor.rest, advanceTo, List.drop_drop]

theorem advanceTo_rest (cursor : Cursor) : cursor.advanceTo cursor.rest = cursor := by
  simp only [advanceTo, Nat.sub_self, Nat.add_zero]

theorem advanceTo_advanceTo (suffix : rest <:+ cursor.rest) (suffixLater : later <:+ rest) :
    (cursor.advanceTo rest).advanceTo later = cursor.advanceTo later := by
  have shorter := suffix.length_le
  have shorterStill := suffixLater.length_le
  have left := rest_advanceTo suffix
  have moved : cursor.position + (cursor.rest.length - rest.length) + (rest.length - later.length) =
      cursor.position + (cursor.rest.length - later.length) := by omega
  rw [advanceTo, left]
  simp only [advanceTo, moved]

/-- Only what the reader does to the tokens left matters. -/
theorem run_congr {reader other : Reader α} (same : reader cursor.rest = other cursor.rest) :
    cursor.run reader = cursor.run other := by
  rw [run, same, run]

theorem advanceTo_tail {token : Token} (left : cursor.rest = token :: rest) :
    cursor.advanceTo rest = { cursor with position := cursor.position + 1 } := by
  have one : cursor.rest.length - rest.length = 1 := by rw [left, List.length_cons, Nat.add_sub_cancel_left]
  rw [advanceTo, one]

theorem run_of_ok {reader : Reader α} (read : reader cursor.rest = .ok (value, rest)) :
    cursor.run reader = (.ok value, cursor.advanceTo rest) := by
  rw [run, read]

theorem run_of_error {reader : Reader α} {stop : Stop} (failed : reader cursor.rest = .error stop) :
    cursor.run reader = (.error (stop.fault cursor.tokens),
      (cursor.advanceTo stop.rest).withDepth (cursor.depth + stop.unfinished)) := by
  rw [run, failed]
  rfl

theorem run_withDepth_of_ok {reader : Reader α} (depth : Nat) (read : reader cursor.rest = .ok (value, rest)) :
    (cursor.withDepth depth).run reader = (.ok value, (cursor.advanceTo rest).withDepth depth) :=
  run_of_ok read

theorem run_withDepth_of_error {reader : Reader α} {stop : Stop} (depth : Nat)
    (failed : reader cursor.rest = .error stop) : (cursor.withDepth depth).run reader =
      (.error (stop.fault cursor.tokens), (cursor.advanceTo stop.rest).withDepth (depth + stop.unfinished)) :=
  run_of_error failed

theorem peek_eq (cursor : Cursor) : cursor.peek = cursor.rest.head? := List.head?_drop.symm

theorem atEnd_eq (cursor : Cursor) : cursor.atEnd = cursor.rest.isEmpty := by
  rw [Bool.eq_iff_iff, List.isEmpty_iff, atEnd, decide_eq_true_iff, Cursor.rest, List.drop_eq_nil_iff]

end Cursor

theorem Reader.inBlock_of_error {reader : Reader α} {tokens : List Token} {stop : Stop}
    (failed : reader tokens = .error stop) :
    inBlock reader tokens = .error { stop with unfinished := stop.unfinished + 1 } := by
  rw [inBlock, failed]
  rfl

/-- Whatever it is given, the reader does not go back, and a failure leaves at most so many blocks unfinished. -/
structure Steady (bound : Nat) (reader : Reader α) : Prop where
  ok : ∀ {tokens value rest}, reader tokens = .ok (value, rest) → rest <:+ tokens
  error : ∀ {tokens stop}, reader tokens = .error stop → stop.rest <:+ tokens ∧ stop.unfinished ≤ bound

namespace Steady

variable {bound more : Nat} {reader : Reader α}

theorem mono (steady : Steady bound reader) (less : bound ≤ more) : Steady more reader where
  ok := steady.ok
  error failed := (steady.error failed).imp_right (·.trans less)

theorem bind {next : α → Reader β} (steady : Steady bound reader) (steadyNext : ∀ value, Steady bound (next value)) :
    Steady bound (reader >>= next) where
  ok read := by
    obtain ⟨middle, left, readFirst, readNext⟩ := Reader.bind_eq_ok_iff.mp read
    exact ((steadyNext middle).ok readNext).trans (steady.ok readFirst)
  error failed := by
    rcases Reader.bind_eq_error_iff.mp failed with failed | ⟨middle, left, readFirst, failed⟩
    · exact steady.error failed
    · exact ((steadyNext middle).error failed).imp_left (·.trans (steady.ok readFirst))

/-- A failure on the spot. -/
theorem refusal (cause : List Token → SyntaxFault) :
    Steady bound (fun tokens => .error ⟨cause tokens, tokens, 0⟩ : Reader α) where
  ok := by rintro tokens value rest ⟨⟩
  error := by
    rintro tokens stop ⟨⟩
    exact ⟨List.suffix_rfl, Nat.zero_le bound⟩

theorem look (answer : List Token → α) : Steady bound (fun tokens => .ok (answer tokens, tokens) : Reader α) where
  ok := by
    rintro tokens value rest ⟨⟩
    exact List.suffix_rfl
  error := by rintro tokens stop ⟨⟩

theorem pure (value : α) : Steady bound (pure value : Reader α) := look fun _ => value

theorem ite {condition : Prop} [Decidable condition] {other : Reader α} (steady : Steady bound reader)
    (steadyOther : Steady bound other) : Steady bound (if condition then reader else other) := by
  split
  · exact steady
  · exact steadyOther

end Steady

theorem Cursor.run_bind_of_error {cursor : Cursor} {reader : Reader α} {next : α → Reader β} {stop : Stop}
    (failed : reader cursor.rest = .error stop) : cursor.run (reader >>= next) =
      (.error (stop.fault cursor.tokens), (cursor.advanceTo stop.rest).withDepth (cursor.depth + stop.unfinished)) :=
  run_of_error (Reader.bind_of_error failed)

/-- A success hands over to what comes next. -/
theorem Cursor.run_bind_of_ok {cursor : Cursor} {reader : Reader α} {next : α → Reader β} {value : α}
    {left : List Token} {bound : Nat} (read : reader cursor.rest = .ok (value, left)) (suffix : left <:+ cursor.rest)
    (steady : Steady bound (next value)) :
    cursor.run (reader >>= next) = (cursor.advanceTo left).run (next value) := by
  have start := rest_advanceTo suffix
  cases readNext : next value left with
  | ok result =>
      obtain ⟨last, rest⟩ := result
      have whole : (reader >>= next) cursor.rest = .ok (last, rest) := (Reader.bind_of_ok read).trans readNext
      rw [run_of_ok whole, run_of_ok (start.symm ▸ readNext), advanceTo_advanceTo suffix (steady.ok readNext)]
  | error stop =>
      have whole : (reader >>= next) cursor.rest = .error stop := (Reader.bind_of_ok read).trans readNext
      rw [run_of_error whole, run_of_error (start.symm ▸ readNext),
        advanceTo_advanceTo suffix (steady.error readNext).1]
      rfl

/-- A reader that takes the first token and goes on. -/
theorem Cursor.run_of_first {cursor : Cursor} {reader inside : Reader α} {token : Token} {rest : List Token}
    {bound : Nat} (left : cursor.rest = token :: rest) (goes : reader (token :: rest) = inside rest)
    (steady : Steady bound inside) : cursor.run reader = (cursor.advanceTo rest).run inside := by
  have taken : Reader.advance cursor.rest = .ok (some token, rest) := by rw [left, Reader.advance]
  have same : reader cursor.rest = (Reader.advance >>= fun _ => inside) cursor.rest := by
    rw [Reader.bind_of_ok taken, left, goes]
  exact (run_congr same).trans (run_bind_of_ok taken (left ▸ List.suffix_cons token rest) steady)

/-- With enough time the routine comes to an end, and this is its result. -/
def Ends (routine : Nat → Routine α) (cursor : Cursor) (result : Except Fault α × Cursor) : Prop :=
  ∃ enough, ∀ clock, enough ≤ clock → routine clock cursor = some result

namespace Ends

variable {routine : Nat → Routine α} {next : Nat → α → Routine β} {cursor after : Cursor}
  {result : Except Fault α × Cursor}

theorem of_eq (same : ∀ clock, routine clock cursor = some result) : Ends routine cursor result :=
  ⟨0, fun clock _ => same clock⟩

theorem congr {other : Nat → Routine α} (ends : Ends other cursor result)
    (same : ∀ clock, routine clock cursor = other clock cursor) : Ends routine cursor result := by
  obtain ⟨enough, ends⟩ := ends
  exact ⟨enough, fun clock more => (same clock).trans (ends clock more)⟩

/-- One tick does not matter. -/
theorem tick_iff : Ends (fun clock => routine (clock + 1)) cursor result ↔ Ends routine cursor result := by
  constructor
  · rintro ⟨enough, ends⟩
    refine ⟨enough + 1, fun clock more => ?_⟩
    obtain ⟨clock, rfl⟩ := Nat.exists_eq_add_of_le' more
    exact ends (clock + enough) (Nat.le_add_left enough clock)
  · rintro ⟨enough, ends⟩
    exact ⟨enough, fun clock more => ends (clock + 1) (Nat.le_succ_of_le more)⟩

theorem bind {value : α} {result : Except Fault β × Cursor} (first : Ends routine cursor (.ok value, after))
    (second : Ends (fun clock => next clock value) after result) :
    Ends (fun clock => routine clock >>= next clock) cursor result := by
  obtain ⟨enough, ends⟩ := first
  obtain ⟨enoughNext, endsNext⟩ := second
  refine ⟨max enough enoughNext, fun clock more => ?_⟩
  change (routine clock cursor >>= fun read => _) = _
  rw [ends clock (Nat.max_le.mp more).1]
  exact endsNext clock (Nat.max_le.mp more).2

theorem bind_error {fault : Fault} (first : Ends routine cursor (.error fault, after)) :
    Ends (fun clock => routine clock >>= next clock) cursor (.error fault, after) := by
  obtain ⟨enough, ends⟩ := first
  refine ⟨enough, fun clock more => ?_⟩
  change (routine clock cursor >>= fun read => _) = _
  rw [ends clock more]
  rfl

theorem step {token : Token} {rest : List Token} (left : cursor.rest = token :: rest)
    (inside : Ends routine (cursor.advanceTo rest) result) :
    Ends (fun clock => Routine.step >>= fun _ => routine clock) cursor result := by
  have stepped : Ends (fun _ => Routine.step) cursor (.ok (), cursor.advanceTo rest) :=
    .of_eq fun _ => by rw [Cursor.advanceTo_tail left]; rfl
  exact stepped.bind inside

/-- One routine after another does what one reader does after another. -/
theorem run_bind {reader : Reader α} {nextReader : α → Reader β} {bound : Nat}
    (first : Ends routine cursor (cursor.run reader)) (steady : Steady bound reader)
    (steadyNext : ∀ value, Steady bound (nextReader value))
    (second : ∀ value left, reader cursor.rest = .ok (value, left) →
      Ends (fun clock => next clock value) (cursor.advanceTo left) ((cursor.advanceTo left).run (nextReader value))) :
    Ends (fun clock => routine clock >>= next clock) cursor (cursor.run (reader >>= nextReader)) := by
  cases read : reader cursor.rest with
  | ok result =>
      obtain ⟨value, left⟩ := result
      rw [Cursor.run_of_ok read] at first
      rw [Cursor.run_bind_of_ok read (steady.ok read) (steadyNext value)]
      exact first.bind (second value left read)
  | error stop =>
      rw [Cursor.run_of_error read] at first
      rw [Cursor.run_bind_of_error read]
      exact first.bind_error

end Ends

/-- From this depth on, the routine leaves what the reader leaves. -/
structure Follows (depth bound : Nat) (routine : Nat → Routine α) (reader : Reader α) : Prop
    extends Steady bound reader where
  ends : ∀ cursor, cursor.depth = depth → Ends routine cursor (cursor.run reader)

namespace Follows

variable {depth bound more : Nat} {routine : Nat → Routine α} {reader : Reader α}

theorem mono (follows : Follows depth bound routine reader) (less : bound ≤ more) :
    Follows depth more routine reader :=
  { follows with toSteady := follows.toSteady.mono less }

theorem tick (follows : Follows depth bound routine reader) :
    Follows depth bound (fun clock => routine (clock + 1)) reader :=
  { follows with ends := fun cursor same => Ends.tick_iff.mpr (follows.ends cursor same) }

theorem of_tick (follows : Follows depth bound (fun clock => routine (clock + 1)) reader) :
    Follows depth bound routine reader :=
  { follows with ends := fun cursor same => Ends.tick_iff.mp (follows.ends cursor same) }

theorem pure (value : α) : Follows depth bound (fun _ => pure value) (pure value) where
  toSteady := .pure value
  ends cursor _ := .of_eq fun _ => by
    have read : (Pure.pure value : Reader α) cursor.rest = .ok (value, cursor.rest) := rfl
    rw [Cursor.run_of_ok read, Cursor.advanceTo_rest]
    rfl

theorem bind {next : Nat → α → Routine β} {nextReader : α → Reader β} (follows : Follows depth bound routine reader)
    (followsNext : ∀ value, Follows depth bound (fun clock => next clock value) (nextReader value)) :
    Follows depth bound (fun clock => routine clock >>= next clock) (reader >>= nextReader) where
  toSteady := follows.toSteady.bind fun value => (followsNext value).toSteady
  ends cursor same := (follows.ends cursor same).run_bind follows.toSteady (fun value => (followsNext value).toSteady)
    fun value left _ => (followsNext value).ends (cursor.advanceTo left) same

theorem ite {condition : Prop} [Decidable condition] {routine' : Nat → Routine α} {reader' : Reader α}
    (follows : Follows depth bound routine reader) (follows' : Follows depth bound routine' reader') :
    Follows depth bound (fun clock => if condition then routine clock else routine' clock)
      (if condition then reader else reader') := by
  split
  · exact follows
  · exact follows'

/-- A routine that only looks at what is left. -/
theorem of_look {look : Routine α} {answer : List Token → α}
    (looks : ∀ cursor : Cursor, look cursor = some (.ok (answer cursor.rest), cursor)) :
    Follows depth bound (fun _ => look) (fun tokens => .ok (answer tokens, tokens)) where
  toSteady := .look answer
  ends cursor _ := .of_eq fun _ => by
    have looked : cursor.run (fun tokens => .ok (answer tokens, tokens)) =
      (.ok (answer cursor.rest), cursor.advanceTo cursor.rest) := rfl
    rw [looks, looked, Cursor.advanceTo_rest]

theorem check (kind : TokenKind) : Follows depth bound (fun _ => Routine.check kind) (Reader.check kind) :=
  of_look fun cursor => by
    rw [← Cursor.peek_eq]
    rfl

theorem checkLexeme (kind : TokenKind) (lexeme : String) :
    Follows depth bound (fun _ => Routine.checkLexeme kind lexeme) (Reader.checkLexeme kind lexeme) :=
  of_look fun cursor => by
    rw [← Cursor.peek_eq]
    rfl

theorem checkNext (kind : TokenKind) : Follows depth bound (fun _ => Routine.checkNext kind) (Reader.checkNext kind) :=
  of_look fun cursor => by
    rw [Cursor.rest, List.tail_drop, List.head?_drop]
    rfl

theorem atEnd : Follows depth bound (fun _ => Routine.atEnd) (Orderly.look List.isEmpty) :=
  of_look fun cursor => by
    rw [← Cursor.atEnd_eq]
    rfl

theorem blockDone : Follows depth bound (fun _ => Routine.blockDone) (Orderly.look Reader.blockDone) :=
  of_look fun cursor => by
    have looked : Routine.blockDone cursor =
      if cursor.rest.isEmpty then some (.ok true, cursor)
      else some (.ok (cursor.rest.head?.any (·.is .delimiter Reader.closing)), cursor) := by
      rw [← Cursor.atEnd_eq, ← Cursor.peek_eq]
      change (if cursor.atEnd = true then Pure.pure true else
        Routine.checkLexeme .delimiter Reader.closing : Routine Bool) cursor = _
      split
      · rfl
      · rfl
    rw [looked, Reader.blockDone]
    cases cursor.rest with
    | nil => rfl
    | cons token rest => rfl

/-- A routine that fails on the spot. -/
theorem of_refusal {refusal : Routine α} {cause : List Token → SyntaxFault}
    (refuses : ∀ cursor : Cursor, refusal cursor =
      some (.error (.syntactic (cause cursor.rest) (Stop.position ⟨cause cursor.rest, cursor.rest, 0⟩ cursor.tokens)),
        cursor)) :
    Follows depth bound (fun _ => refusal) (fun tokens => .error ⟨cause tokens, tokens, 0⟩) where
  toSteady := .refusal cause
  ends cursor _ := .of_eq fun _ => by
    rw [refuses, Cursor.run_of_error rfl, Cursor.advanceTo_rest]
    rfl

theorem unexpected (wanted : Wanted) :
    Follows depth bound (fun _ => Routine.unexpected wanted) (Reader.unexpected wanted : Reader α) :=
  of_refusal fun cursor => by
    rw [Stop.position, ← Cursor.peek_eq]
    rfl

/-- A routine that goes by the first token: it takes the token and goes on, or goes on without taking it. -/
theorem of_first
    (empty : ∃ inside insideReader, Follows depth bound inside insideReader ∧
      (∀ cursor clock, cursor.peek = none → routine clock cursor = inside clock cursor) ∧ reader [] = insideReader [])
    (first : ∀ token, ∃ inside insideReader, Follows depth bound inside insideReader ∧
      ((∀ cursor clock, cursor.peek = some token →
          routine clock cursor = (Routine.step >>= fun _ => inside clock) cursor) ∧
        (∀ rest, reader (token :: rest) = insideReader rest) ∨
      (∀ cursor clock, cursor.peek = some token → routine clock cursor = inside clock cursor) ∧
        ∀ rest, reader (token :: rest) = insideReader (token :: rest))) : Follows depth bound routine reader where
  ok := by
    intro tokens value rest read
    cases tokens with
    | nil =>
        obtain ⟨inside, insideReader, follows, -, goes⟩ := empty
        exact follows.ok (goes.symm.trans read)
    | cons token tokens =>
        obtain ⟨inside, insideReader, follows, ⟨-, goes⟩ | ⟨-, goes⟩⟩ := first token
        · exact (follows.ok ((goes tokens).symm.trans read)).trans (List.suffix_cons token tokens)
        · exact follows.ok ((goes tokens).symm.trans read)
  error := by
    intro tokens stop failed
    cases tokens with
    | nil =>
        obtain ⟨inside, insideReader, follows, -, goes⟩ := empty
        exact follows.error (goes.symm.trans failed)
    | cons token tokens =>
        obtain ⟨inside, insideReader, follows, ⟨-, goes⟩ | ⟨-, goes⟩⟩ := first token
        · exact (follows.error ((goes tokens).symm.trans failed)).imp_left (·.trans (List.suffix_cons token tokens))
        · exact follows.error ((goes tokens).symm.trans failed)
  ends cursor same := by
    cases left : cursor.rest with
    | nil =>
        obtain ⟨inside, insideReader, follows, goes, goesReader⟩ := empty
        have none : cursor.peek = none := by rw [Cursor.peek_eq, left]; rfl
        rw [Cursor.run_congr (by rw [left, goesReader])]
        exact (follows.ends cursor same).congr fun clock => goes cursor clock none
    | cons token rest =>
        have next : cursor.peek = some token := by rw [Cursor.peek_eq, left]; rfl
        obtain ⟨inside, insideReader, follows, ⟨goes, goesReader⟩ | ⟨goes, goesReader⟩⟩ := first token
        · rw [Cursor.run_of_first left (goesReader rest) follows.toSteady]
          exact (Ends.step left (follows.ends (cursor.advanceTo rest) same)).congr fun clock => goes cursor clock next
        · rw [Cursor.run_congr (by rw [left, goesReader])]
          exact (follows.ends cursor same).congr fun clock => goes cursor clock next

/-- A test of the first token, which is taken if it passes. -/
theorem of_test {test : Token → Bool} {look : Routine Bool} {reader : Reader Bool}
    (looks : ∀ cursor : Cursor, look cursor = some (.ok (cursor.peek.any test), cursor))
    (empty : reader [] = .ok (false, []))
    (first : ∀ token rest, reader (token :: rest) =
      if test token = true then .ok (true, rest) else .ok (false, token :: rest)) :
    Follows depth bound (fun _ => look >>= fun passed =>
      if passed = true then Routine.step >>= fun _ => Pure.pure true else Pure.pure false) reader := by
  have looked (passed : Bool) (cursor : Cursor) (same : cursor.peek.any test = passed) (next : Bool → Routine Bool) :
      (look >>= next) cursor = next passed cursor := by
    change (look cursor >>= fun read => _) = _
    rw [looks, same]
    rfl
  refine of_first ⟨_, _, .pure false, fun cursor _ none => looked false cursor (congrArg _ none) _, empty⟩
    fun token => ?_
  cases passes : test token with
  | true =>
      refine ⟨_, _, .pure true, .inl ⟨fun cursor _ next => ?_, fun rest => ?_⟩⟩
      · exact looked true cursor ((congrArg _ next).trans passes) _
      · rw [first, if_pos passes]
        rfl
  | false =>
      refine ⟨_, _, .pure false, .inr ⟨fun cursor _ next => ?_, fun rest => ?_⟩⟩
      · exact looked false cursor ((congrArg _ next).trans passes) _
      · rw [first, if_neg (Bool.eq_false_iff.mp passes)]
        rfl

theorem accept (kind : TokenKind) : Follows depth bound (fun _ => Routine.accept kind) (Reader.accept kind) :=
  of_test (fun _ => rfl) rfl fun token rest => by simp only [Reader.accept, beq_iff_eq]

theorem acceptLexeme (kind : TokenKind) (lexeme : String) :
    Follows depth bound (fun _ => Routine.acceptLexeme kind lexeme) (Reader.acceptLexeme kind lexeme) :=
  of_test (fun _ => rfl) rfl fun _ _ => rfl

theorem advance_eq (cursor : Cursor) : Routine.advance cursor =
    (if cursor.peek.isSome = true then Routine.step >>= fun _ => Pure.pure cursor.peek else Pure.pure cursor.peek :
      Routine (Option Token)) cursor := rfl

theorem advance : Follows depth bound (fun _ => Routine.advance) Reader.advance := by
  refine of_first ⟨_, _, .pure none, fun cursor _ none => ?_, rfl⟩ fun token =>
    ⟨_, _, .pure (some token), .inl ⟨fun cursor _ next => ?_, fun _ => rfl⟩⟩
  · rw [advance_eq, none]
    rfl
  · rw [advance_eq, next]
    rfl

theorem expectKind (kind : TokenKind) (place : String) :
    Follows depth bound (fun _ => Routine.expectKind kind place) (Reader.expectKind kind place) := by
  have checked (cursor : Cursor) : Routine.expectKind kind place cursor =
      (if cursor.peek.any (·.kind == kind) = true then
        Routine.advance >>= fun taken => Pure.pure ((taken.map Token.lexeme).getD "")
      else Routine.unexpected (.ofKind kind place) : Routine String) cursor := rfl
  refine of_first ⟨_, _, .unexpected (.ofKind kind place), fun cursor _ none => ?_, rfl⟩ fun token => ?_
  · rw [checked, none]
    rfl
  by_cases same : token.kind = kind
  · refine ⟨_, _, .pure token.lexeme, .inl ⟨fun cursor _ next => ?_, fun rest => if_pos same⟩⟩
    have passes : cursor.peek.any (·.kind == kind) = true := by rw [next]; exact beq_iff_eq.mpr same
    have taken : Routine.advance cursor =
        some (.ok (some token), { cursor with position := cursor.position + 1 }) := by rw [advance_eq, next]; rfl
    rw [checked, if_pos passes]
    change (Routine.advance cursor >>= fun read => _) = _
    rw [taken]
    rfl
  · refine ⟨_, _, .unexpected (.ofKind kind place), .inr ⟨fun cursor _ next => ?_, fun rest => if_neg same⟩⟩
    have fails : ¬ cursor.peek.any (·.kind == kind) = true := by rw [next]; exact fun passes => same (eq_of_beq passes)
    rw [checked, if_neg fails]

theorem expect (kind : TokenKind) (lexeme place : String) :
    Follows depth bound (fun _ => Routine.expect kind lexeme place) (Reader.expect kind lexeme place) :=
  (acceptLexeme kind lexeme).bind fun _ => .ite (.pure ()) (.unexpected _)

theorem descend_eq (cursor : Cursor) : Routine.descend cursor =
    (if nestingLimit ≤ cursor.depth then Routine.refuse .nestedTooDeeply cursor.place
      else set (cursor.withDepth (cursor.depth + 1)) : Routine Unit) cursor := rfl

/-- Below the limit a level can be entered. -/
theorem descends {cursor : Cursor} (room : cursor.depth < nestingLimit) :
    Ends (fun _ => Routine.descend) cursor (.ok (), cursor.withDepth (cursor.depth + 1)) := by
  refine .of_eq fun _ => ?_
  rw [descend_eq, if_neg (Nat.not_le.mpr room)]
  rfl

/-- At the limit no level can be entered. -/
theorem descend_limit (limit : depth = nestingLimit) :
    Follows depth bound (fun _ => Routine.descend) (Reader.fail .nestedTooDeeply) where
  toSteady := .refusal _
  ends cursor same := .of_eq fun _ => by
    rw [descend_eq, if_pos (Nat.le_of_eq (limit.symm.trans same.symm)), Cursor.run_of_error rfl,
      Cursor.advanceTo_rest, Stop.fault, Stop.position, ← Cursor.peek_eq]
    rfl

/-- What comes after a failure does not matter. -/
theorem then_anything {cause : SyntaxFault} {next : Nat → α → Routine β}
    (follows : Follows depth bound routine (Reader.fail cause : Reader α)) :
    Follows depth bound (fun clock => routine clock >>= next clock) (Reader.fail cause : Reader β) where
  toSteady := .refusal _
  ends cursor same := (follows.ends cursor same).bind_error

/-- To ask where the cursor is does not move it. -/
theorem got (cursor : Cursor) : Ends (fun _ => (get : Routine Cursor)) cursor (.ok cursor, cursor) :=
  .of_eq fun _ => rfl

theorem inBlock_limit (limit : depth = nestingLimit) (routine : Nat → Routine α) :
    Follows depth bound (fun clock => Routine.inBlock (routine clock)) (Reader.fail .nestedTooDeeply) where
  toSteady := .refusal _
  ends cursor same := by
    have refused : Follows depth bound (fun _ => Routine.descend) (Reader.fail .nestedTooDeeply) := descend_limit limit
    exact (got cursor).bind (refused.then_anything.ends cursor same)

theorem inBlock (follows : Follows (depth + 1) bound routine reader) (room : depth < nestingLimit) :
    Follows depth (bound + 1) (fun clock => Routine.inBlock (routine clock)) (Reader.inBlock reader) where
  ok read := follows.ok (Reader.inBlock_eq_ok_iff.mp read)
  error := by
    intro tokens stop failed
    cases read : reader tokens with
    | ok result =>
        rw [Reader.inBlock, read] at failed
        cases failed
    | error inner =>
        cases (Reader.inBlock_of_error read).symm.trans failed
        exact (follows.error read).imp_right Nat.succ_le_succ
  ends cursor same := by
    subst same
    have inside := follows.ends (cursor.withDepth (cursor.depth + 1)) rfl
    refine (got cursor).bind ((descends room).bind ?_)
    cases read : reader cursor.rest with
    | ok result =>
        obtain ⟨value, rest⟩ := result
        rw [Cursor.run_withDepth_of_ok _ read] at inside
        rw [Cursor.run_of_ok (Reader.inBlock_eq_ok_iff.mpr read)]
        exact inside.bind (.of_eq fun _ => rfl)
    | error stop =>
        -- nothing sets the depth back: this block is one of those left unfinished
        rw [Cursor.run_withDepth_of_error _ read, Nat.add_right_comm] at inside
        rw [Cursor.run_of_error (Reader.inBlock_of_error read)]
        exact inside.bind_error

end Follows

/-- The routine leaves what the reader leaves, but for the depth. -/
structure Trails (depth : Nat) (routine : Nat → Routine α) (reader : Reader α) : Prop extends Steady 0 reader where
  ends : ∀ cursor, cursor.depth = depth →
    ∃ last, Ends routine cursor ((cursor.run reader).1, (cursor.run reader).2.withDepth last)

namespace Trails

variable {depth : Nat} {routine : Nat → Routine α} {reader : Reader α}

theorem bind {next : Nat → α → Routine β} {nextReader : α → Reader β} (follows : Follows depth 0 routine reader)
    (trails : ∀ value, Trails depth (fun clock => next clock value) (nextReader value)) :
    Trails depth (fun clock => routine clock >>= next clock) (reader >>= nextReader) where
  toSteady := follows.toSteady.bind fun value => (trails value).toSteady
  ends cursor same := by
    have first := follows.ends cursor same
    cases read : reader cursor.rest with
    | ok result =>
        obtain ⟨value, left⟩ := result
        rw [Cursor.run_of_ok read] at first
        rw [Cursor.run_bind_of_ok read (follows.ok read) (trails value).toSteady]
        obtain ⟨last, second⟩ := (trails value).ends (cursor.advanceTo left) same
        exact ⟨last, first.bind second⟩
    | error stop =>
        rw [Cursor.run_of_error read] at first
        rw [Cursor.run_bind_of_error read]
        exact ⟨_, first.bind_error⟩

/-- Without an operator, or with one that is too deep, there is nothing to set back. -/
theorem of_follows (follows : Follows depth 0 routine reader) : Trails depth routine reader :=
  { follows with ends := fun cursor same => ⟨_, follows.ends cursor same⟩ }

theorem ite {condition : Prop} [Decidable condition] {routine' : Nat → Routine α} {reader' : Reader α}
    (trails : Trails depth routine reader) (trails' : Trails depth routine' reader') :
    Trails depth (fun clock => if condition then routine clock else routine' clock)
      (if condition then reader else reader') := by
  split
  · exact trails
  · exact trails'

theorem of_tick (trails : Trails depth (fun clock => routine (clock + 1)) reader) : Trails depth routine reader where
  toSteady := trails.toSteady
  ends cursor same := by
    obtain ⟨last, ends⟩ := trails.ends cursor same
    exact ⟨last, Ends.tick_iff.mp ends⟩

/-- A level that is entered is not seen in what is left. -/
theorem descend (trails : Trails (depth + 1) routine reader) (room : depth < nestingLimit) :
    Trails depth (fun clock => Routine.descend >>= fun _ => routine clock) reader where
  toSteady := trails.toSteady
  ends cursor same := by
    subst same
    obtain ⟨last, inside⟩ := trails.ends (cursor.withDepth (cursor.depth + 1)) rfl
    refine ⟨last, (Follows.descends room).bind ?_⟩
    cases read : reader cursor.rest with
    | ok result =>
        rw [Cursor.run_withDepth_of_ok _ read] at inside
        rw [Cursor.run_of_ok read]
        exact inside
    | error stop =>
        rw [Cursor.run_withDepth_of_error _ read] at inside
        rw [Cursor.run_of_error read]
        exact inside

end Trails

theorem Cursor.run_depth {reader : Reader α} (steady : Steady 0 reader) (cursor : Cursor) :
    (cursor.run reader).2.depth = cursor.depth := by
  cases read : reader cursor.rest with
  | ok result => rw [run_of_ok read]; rfl
  | error stop =>
      rw [run_of_error read, Nat.le_zero.mp (steady.error read).2]
      rfl

theorem Follows.restoring {depth : Nat} {routine : Nat → Routine α} {reader : Reader α}
    (trails : Trails depth routine reader) :
    Follows depth 0 (fun clock => Routine.restoring (routine clock)) reader where
  toSteady := trails.toSteady
  ends cursor same := by
    obtain ⟨last, enough, ends⟩ := trails.ends cursor same
    refine ⟨enough, fun clock more => ?_⟩
    change (routine clock cursor).map _ = _
    rw [ends clock more, Option.map_some, ← Cursor.run_depth trails.toSteady cursor]
    rfl

theorem Steady.accept {bound : Nat} (kind : TokenKind) : Steady bound (Reader.accept kind) :=
  (Follows.accept kind : Follows 0 bound _ (Reader.accept kind)).toSteady

theorem Steady.separatedUpTo {bound : Nat} {reader : Reader α} (steady : Steady bound reader) (limit : Nat) :
    Steady bound (Reader.separatedUpTo reader limit) := by
  induction limit with
  | zero => exact .pure []
  | succ limit ih =>
      exact steady.bind fun _ => (Steady.accept .comma).bind fun _ => .ite (ih.bind fun _ => .pure _) (.pure _)

theorem Steady.repeatedUpTo {bound : Nat} {reader : Reader α} (steady : Steady bound reader)
    (done : List Token → Bool) (limit : Nat) : Steady bound (Reader.repeatedUpTo done reader limit) := by
  induction limit with
  | zero => exact .pure []
  | succ limit ih =>
      rw [Orderly.repeatedUpTo_succ]
      exact (Steady.look done).bind fun _ => .ite (.pure []) (steady.bind fun _ => ih.bind fun _ => .pure _)

/-- A reader whose bound is set by the tokens. -/
theorem Steady.of_bounded {bound : Nat} {bounded : Nat → Reader α} (steady : ∀ limit, Steady bound (bounded limit))
    (limit : List Token → Nat) : Steady bound (fun tokens => bounded (limit tokens) tokens) where
  ok read := (steady _).ok read
  error failed := (steady _).error failed

namespace Follows

variable {depth bound : Nat} {routine : Nat → Routine α} {reader : Reader α}

/-- A routine goes on as long as there is more. Every turn takes a token, so the bound of the reader is not reached,
and with enough turns neither is the clock. The clock of the item goes on as the turns do, so the induction is for all
routines that follow the reader. -/
theorem ends_separatedUpTo (follows : Follows depth bound routine reader) {limit : Nat} (cursor : Cursor)
    (same : cursor.depth = depth) (enough : cursor.rest.length < limit) :
    Ends (fun clock => Routine.separated (routine clock) clock) cursor
      (cursor.run (Reader.separatedUpTo reader limit)) := by
  induction limit generalizing routine cursor with
  | zero => exact absurd enough (Nat.not_lt_zero _)
  | succ limit ih =>
      have comma : Follows depth bound (fun _ => Routine.accept .comma) (Reader.accept .comma) := accept .comma
      have more := follows.toSteady.separatedUpTo limit
      have choice (value : α) (taken : Bool) : Steady bound (if taken = true then
          Reader.separatedUpTo reader limit >>= fun values => Pure.pure (value :: values) else Pure.pure [value]) :=
        .ite (more.bind fun _ => .pure _) (.pure _)
      refine Ends.tick_iff.mp ((follows.tick.ends cursor same).run_bind follows.toSteady
        (fun value => comma.toSteady.bind (choice value)) fun value left read => ?_)
      have start := Cursor.rest_advanceTo (follows.ok read)
      refine (comma.ends (cursor.advanceTo left) same).run_bind comma.toSteady (choice value)
        fun taken rest decided => ?_
      rw [start] at decided
      cases taken with
      | false => exact (Follows.pure [value] : Follows depth bound _ _).ends _ same
      | true =>
          -- the comma alone makes the rest shorter, whatever the item took
          have longer := (follows.ok read).length_le
          have fewer := Orderly.decision_length (Reader.accept_decides .comma) decided
          have here := Cursor.rest_advanceTo (start.symm ▸ comma.ok decided)
          refine (ih follows.tick ((cursor.advanceTo left).advanceTo rest) same (by rw [here]; omega)).run_bind more
            (fun _ => .pure _) fun values _ _ => ?_
          exact (Follows.pure (value :: values) : Follows depth bound _ _).ends _ same

theorem separated (follows : Follows depth bound routine reader) :
    Follows depth bound (fun clock => Routine.separated (routine clock) clock) (Reader.separated reader) where
  toSteady := .of_bounded follows.toSteady.separatedUpTo fun tokens => tokens.length + 1
  ends cursor same := follows.ends_separatedUpTo cursor same (Nat.lt_succ_self cursor.rest.length)

theorem ends_repeatedUpTo {done : List Token → Bool} {look : Routine Bool}
    (looks : Follows depth bound (fun _ => look) (Orderly.look done)) (atEnd : done [] = true)
    (follows : Follows depth bound routine reader) (consumes : Consumes reader) {limit : Nat} (cursor : Cursor)
    (same : cursor.depth = depth) (enough : cursor.rest.length ≤ limit) :
    Ends (fun clock => Routine.repeated look (routine clock) clock) cursor
      (cursor.run (Reader.repeatedUpTo done reader limit)) := by
  induction limit generalizing routine cursor with
  | zero =>
      -- no token is left, so a routine that does not count its turns stops as well
      have empty : cursor.rest = [] := List.length_eq_zero_iff.mp (Nat.le_zero.mp enough)
      have stops : Orderly.look done cursor.rest = .ok (true, cursor.rest) := by rw [Orderly.look, empty, atEnd]
      have looked := looks.ends cursor same
      rw [Cursor.run_of_ok stops] at looked
      exact Ends.tick_iff.mp (looked.bind (.of_eq fun _ => rfl))
  | succ limit ih =>
      rw [Orderly.repeatedUpTo_succ]
      have more := follows.toSteady.repeatedUpTo done limit
      have others (value : α) : Steady bound (Reader.repeatedUpTo done reader limit >>= fun values =>
          Pure.pure (value :: values)) := more.bind fun _ => .pure _
      refine Ends.tick_iff.mp ((looks.ends cursor same).run_bind looks.toSteady
        (fun _ => .ite (.pure []) (follows.toSteady.bind others)) fun stops left looked => ?_)
      cases looked
      cases done cursor.rest with
      | true => exact (Follows.pure [] : Follows depth bound _ _).ends _ same
      | false =>
          rw [Cursor.advanceTo_rest]
          refine (follows.tick.ends cursor same).run_bind follows.toSteady others fun value left read => ?_
          have shorter := consumes.length_lt read
          have here := Cursor.rest_advanceTo (follows.ok read)
          refine (ih follows.tick (cursor.advanceTo left) same (by rw [here]; omega)).run_bind more (fun _ => .pure _)
            fun values _ _ => ?_
          exact (Follows.pure (value :: values) : Follows depth bound _ _).ends _ same

theorem repeated {done : List Token → Bool} {look : Routine Bool}
    (looks : Follows depth bound (fun _ => look) (Orderly.look done)) (atEnd : done [] = true)
    (follows : Follows depth bound routine reader) (consumes : Consumes reader) :
    Follows depth bound (fun clock => Routine.repeated look (routine clock) clock) (Reader.repeated done reader) where
  toSteady := .of_bounded (follows.toSteady.repeatedUpTo done) List.length
  ends cursor same := ends_repeatedUpTo looks atEnd follows consumes cursor same (Nat.le_refl cursor.rest.length)

end Follows

end BraceCompiler
