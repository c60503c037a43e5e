import BraceCompiler.Scanner
import Mathlib.Data.List.Forall2

/-! A scanner that is used for one source after the other, with calls on its register in between. What a call leaves
behind is worked out once; the rest is by induction on the calls. -/

namespace BraceCompiler

/-- The register after some calls on it. -/
def Scopes.replay (scopes : Scopes) (events : List Event) : Scopes :=
  events.foldl (fun scopes event => (scopes.apply event).1) scopes

namespace Scanner

/-- Reading adds the tokens and the warnings of the pieces and puts the cursor at the end. -/
theorem scan_eq (scanner : Scanner) (inside : Nat) (source : List Char) :
    let pieces := piecesFrom scanner.passed scanner.place inside source
    scanner.scan inside source =
      { scanner with
        passed := source.reverse ++ scanner.passed
        place := scanner.place.after source
        tokens := scanner.tokens ++ pieces.filterMap Piece.token?
        notices := scanner.notices ++ pieces.filterMap Piece.warning? } := by
  induction source generalizing scanner inside with
  | nil => simp [scan, piecesFrom, Position.after]
  | cons c rest ih =>
      cases inside with
      | zero =>
          simp only [scan, ih, begin, advance, piecesFrom, Position.after, List.foldl_cons,
            List.filterMap_eq_flatMap_toList]
          simp [← Array.toList_inj]
      | succ inside =>
          simp only [scan, ih, advance, piecesFrom, Position.after, List.foldl_cons]
          simp

/-- Whatever a scanner was used for before, it gives the tokens of the source, adds the warnings of the source to the
notices, and leaves the register as it is. -/
theorem tokenize_eq (scanner : Scanner) (source : String) :
    scanner.tokenize source = (tokensOf source,
      ⟨source.toList.reverse, Position.origin.after source.toList, #[], scanner.notices ++ warningsOf source,
        scanner.scopes⟩) := by
  simp only [tokenize, scan_eq, rewind, tokensOf, warningsOf, pieces]
  simp

inductive Call where
  | tokenize (source : String)
  | record (event : Scopes.Event)
  | takeNotices

inductive Answer where
  | tokens (list : List Token)
  | recorded
  | notices (list : Notices)

def call (scanner : Scanner) : Call → Answer × Scanner
  | .tokenize source =>
    let (tokens, after) := scanner.tokenize source
    (.tokens tokens, after)
  | .record event => (.recorded, scanner.record event)
  | .takeNotices =>
    let (notices, after) := scanner.takeNotices
    (.notices notices, after)

def callAll (scanner : Scanner) : List Call → List Answer × Scanner
  | [] => ([], scanner)
  | call :: rest =>
    let (answer, after) := scanner.call call
    let (answers, last) := after.callAll rest
    (answer :: answers, last)

def Call.event? : Call → Option Scopes.Event
  | .record event => some event
  | .tokenize _ | .takeNotices => none

/-- The notices that an answer hands over. -/
def Answer.taken : Answer → Notices
  | .notices list => list
  | .tokens _ | .recorded => []

/-- The answer has the form that the call asks for, and the tokens of a source are those that a new scanner gives. -/
inductive Answered : Call → Answer → Prop
  | tokens (source : String) : Answered (.tokenize source) (.tokens (initial.tokenize source).1)
  | recorded (event : Scopes.Event) : Answered (.record event) .recorded
  | notices (list : Notices) : Answered .takeNotices (.notices list)

/-- The notices that one call gives: for a source those that a new scanner holds after it, for a call on the register
its one note. -/
def Call.owed (scopes : Scopes) : Call → Notices
  | .tokenize source => (initial.tokenize source).2.notices
  | .record event => [(scopes.apply event).2]
  | .takeNotices => []

/-- The notices that some calls give, in the order of the calls. -/
def owed (scopes : Scopes) : List Call → Notices
  | [] => []
  | call :: rest => call.owed scopes ++ owed (scopes.replay call.event?.toList) rest

theorem call_answered (scanner : Scanner) (call : Call) : Answered call (scanner.call call).1 := by
  cases call with
  | tokenize source =>
      have same : (scanner.tokenize source).1 = (initial.tokenize source).1 := by simp only [tokenize_eq]
      simp only [Scanner.call, same]
      exact .tokens source
  | record event => exact .recorded event
  | takeNotices => exact .notices scanner.notices

theorem call_scopes (scanner : Scanner) (call : Call) :
    (scanner.call call).2.scopes = scanner.scopes.replay call.event?.toList := by
  cases call with
  | tokenize source => simp only [Scanner.call, tokenize_eq]; rfl
  | record event => rfl
  | takeNotices => rfl

/-- What was held and what the call gives is what it hands over and what is held then. -/
theorem call_notices (scanner : Scanner) (call : Call) :
    (scanner.call call).1.taken ++ (scanner.call call).2.notices = scanner.notices ++ call.owed scanner.scopes := by
  cases call with
  | tokenize source =>
      simp only [Scanner.call, tokenize_eq, Answer.taken, Call.owed, initial, List.nil_append]
  | record event => rfl
  | takeNotices => simp [Scanner.call, takeNotices, Answer.taken, Call.owed]

theorem callAll_cons (scanner : Scanner) (call : Call) (rest : List Call) : scanner.callAll (call :: rest) =
    ((scanner.call call).1 :: ((scanner.call call).2.callAll rest).1, ((scanner.call call).2.callAll rest).2) := rfl

theorem callAll_answered (scanner : Scanner) (calls : List Call) :
    List.Forall₂ Answered calls (scanner.callAll calls).1 := by
  induction calls generalizing scanner with
  | nil => exact .nil
  | cons call rest ih => exact .cons (scanner.call_answered call) (ih _)

theorem callAll_scopes (scanner : Scanner) (calls : List Call) :
    (scanner.callAll calls).2.scopes = scanner.scopes.replay (calls.filterMap Call.event?) := by
  induction calls generalizing scanner with
  | nil => rfl
  | cons call rest ih =>
      rw [callAll_cons, ih, call_scopes, List.filterMap_eq_flatMap_toList, List.filterMap_eq_flatMap_toList,
        List.flatMap_cons]
      simp only [Scopes.replay, List.foldl_append]

theorem callAll_notices (scanner : Scanner) (calls : List Call) :
    (scanner.callAll calls).1.flatMap Answer.taken ++ (scanner.callAll calls).2.notices =
      scanner.notices ++ owed scanner.scopes calls := by
  induction calls generalizing scanner with
  | nil => simp [callAll, owed]
  | cons call rest ih =>
      rw [callAll_cons, List.flatMap_cons, List.append_assoc, ih, call_scopes, ← List.append_assoc, call_notices,
        List.append_assoc, owed]

theorem callAll_append (scanner : Scanner) (calls others : List Call) :
    (scanner.callAll (calls ++ others)).2 = ((scanner.callAll calls).2.callAll others).2 := by
  induction calls generalizing scanner with
  | nil => rfl
  | cons call rest ih => rw [List.cons_append, callAll_cons, callAll_cons, ih]

end Scanner

open Scanner

/-- A scanner can be used again for any source after any calls: its tokens are those that a new scanner gives, its
register is made by the calls on the register alone, and the notices that are handed over, followed by those that are
still held, are those that the calls give, each call in its turn. Handing over leaves none. The tokens of a source are
those of its pieces, and the warnings about them come after the notices that are held. -/
theorem reused_as_new (calls : List Call) :
    List.Forall₂ Answered calls (initial.callAll calls).1 ∧
      (initial.callAll calls).2.scopes = Scopes.initial.replay (calls.filterMap Call.event?) ∧
      (initial.callAll calls).1.flatMap Answer.taken ++ (initial.callAll calls).2.notices = owed .initial calls ∧
      (initial.callAll (calls ++ [.takeNotices])).2.notices = [] ∧
      ∀ source, ((initial.callAll calls).2.tokenize source).1 = tokensOf source ∧
        ((initial.callAll calls).2.tokenize source).2.notices =
          (initial.callAll calls).2.notices ++ warningsOf source := by
  refine ⟨callAll_answered initial calls, callAll_scopes initial calls, callAll_notices initial calls, ?_,
    fun source => ?_⟩
  · rw [callAll_append]
    rfl
  · rw [tokenize_eq]
    exact ⟨rfl, rfl⟩

end BraceCompiler
