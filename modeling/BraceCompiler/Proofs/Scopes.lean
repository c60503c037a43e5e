import BraceCompiler.Proofs.Scanner
import BraceCompiler.Proofs.Table
import Mathlib.Data.List.Induction

/-! What the register of scopes tells, told again from the calls that were made. Each of its answers is about a call
that no later call has undone. -/

namespace BraceCompiler

namespace Scopes

/-- Some call was as `happened` asks, given the calls before it, and every call after it was as `kept` asks. -/
def Since (happened : List Event → Event → Prop) (kept : Event → Prop) (events : List Event) : Prop :=
  ∃ before event after, events = before ++ event :: after ∧ happened before event ∧ ∀ later ∈ after, kept later

theorem not_since_nil {happened : List Event → Event → Prop} {kept : Event → Prop} : ¬ Since happened kept [] := by
  rintro ⟨before, event, after, split, -⟩
  exact List.append_ne_nil_of_right_ne_nil before (List.cons_ne_nil event after) split.symm

/-- One more call: it is the one that was asked for, or it keeps what was there before it. -/
theorem since_concat {happened : List Event → Event → Prop} {kept : Event → Prop} {events : List Event}
    {event : Event} :
    Since happened kept (events ++ [event]) ↔ happened events event ∨ Since happened kept events ∧ kept event := by
  constructor
  · rintro ⟨before, found, after, split, stands, all⟩
    rcases List.eq_nil_or_concat after with rfl | ⟨after, last, rfl⟩
    · obtain ⟨rfl, rfl⟩ := List.append_singleton_inj.mp split
      exact .inl stands
    · rw [List.concat_eq_append, ← List.cons_append, ← List.append_assoc] at split
      obtain ⟨rfl, rfl⟩ := List.append_singleton_inj.mp split
      rw [List.concat_eq_append] at all
      obtain ⟨allBefore, stays⟩ := List.forall_mem_append.mp all
      exact .inr ⟨⟨before, found, after, rfl, stands, allBefore⟩, stays event List.mem_cons_self⟩
  · rintro (stands | ⟨⟨before, found, after, rfl, stands, all⟩, stays⟩)
    · exact ⟨events, event, [], rfl, stands, List.forall_mem_nil _⟩
    · refine ⟨before, found, after ++ [event], by simp only [List.append_assoc, List.cons_append], stands, ?_⟩
      exact List.forall_mem_append.mpr ⟨all, List.forall_mem_singleton.mpr stays⟩

/-- The function was entered last and has not been left since. -/
def EnteredLast (events : List Event) (function : String) : Prop :=
  Since (fun _ event => event = .enter function) (fun later => later ≠ .leave ∧ ∀ other, later ≠ .enter other) events

/-- The scope that the calls leave current: the function that was entered last and not left, or else the global one. -/
def Current (events : List Event) (scope : String) : Prop :=
  EnteredLast events scope ∨ scope = globalScope ∧ ∀ function, ¬ EnteredLast events function

/-- The name was declared while the scope was current, and the scope has not been entered since. -/
def Declared (events : List Event) (scope name : String) : Prop :=
  Since (fun before event => event = .declare name ∧ Current before scope) (fun later => later ≠ .enter scope) events

section

variable {events : List Event} {scope name : String}

theorem current_nil : Current [] scope ↔ scope = globalScope := by
  simp [Current, EnteredLast, not_since_nil]

theorem current_concat_enter {function : String} : Current (events ++ [.enter function]) scope ↔ scope = function := by
  have last (other : String) : EnteredLast (events ++ [.enter function]) other ↔ function = other := by
    simp [EnteredLast, since_concat]
  constructor
  · rintro (entered | ⟨-, none⟩)
    · exact ((last scope).mp entered).symm
    · exact absurd ((last function).mpr rfl) (none function)
  · rintro rfl
    exact .inl ((last scope).mpr rfl)

theorem current_concat_leave : Current (events ++ [.leave]) scope ↔ scope = globalScope := by
  simp [Current, EnteredLast, since_concat]

theorem current_concat_declare : Current (events ++ [.declare name]) scope ↔ Current events scope := by
  simp [Current, EnteredLast, since_concat]

theorem declared_concat_enter {function : String} :
    Declared (events ++ [.enter function]) scope name ↔ Declared events scope name ∧ scope ≠ function := by
  simp [Declared, since_concat, eq_comm]

theorem declared_concat_leave : Declared (events ++ [.leave]) scope name ↔ Declared events scope name := by
  simp [Declared, since_concat]

theorem declared_concat_declare {other : String} : Declared (events ++ [.declare other]) scope name ↔
    Current events scope ∧ name = other ∨ Declared events scope name := by
  simp [Declared, since_concat, and_comm, eq_comm]

/-- A scope that is current is the global one or has been entered. -/
theorem Current.entered (current : Current events scope) : scope = globalScope ∨ .enter scope ∈ events := by
  rcases current with ⟨before, event, after, rfl, rfl, -⟩ | ⟨global, -⟩
  · exact .inr (List.mem_append_right before List.mem_cons_self)
  · exact .inl global

end

variable {scopes : Scopes} {events : List Event}

theorem isDeclared_insert (scopes : Scopes) (changed current scope name : String) (names : Names) :
    isDeclared ⟨scopes.known.insert changed names, current⟩ scope name =
      if scope = changed then names.contains name else scopes.isDeclared scope name := by
  rw [isDeclared, namesIn, Table.get?_insert]
  split
  · rfl
  · rfl

/-- The register tells what the calls tell. -/
structure Recounts (events : List Event) (scopes : Scopes) : Prop where
  current : ∀ scope, scopes.current = scope ↔ Current events scope
  known : ∀ scope, scopes.known.contains scope = true ↔ scope = globalScope ∨ .enter scope ∈ events
  declared : ∀ scope name, scopes.isDeclared scope name = true ↔ Declared events scope name

theorem recounts_initial : Recounts [] initial where
  current scope := by
    rw [current_nil, eq_comm]
    rfl
  known scope := by
    rw [initial, Table.contains_insert]
    simp [Table.contains_empty]
  declared scope name := by
    have nothing : initial.isDeclared scope name = false := by
      rw [initial, isDeclared_insert ⟨.empty, globalScope⟩]
      split
      · rfl
      · rfl
    exact iff_of_false (Bool.eq_false_iff.mp nothing) not_since_nil

namespace Recounts

theorem enter (recounts : Recounts events scopes) (function : String) :
    Recounts (events ++ [.enter function]) (scopes.apply (.enter function)).1 where
  current scope := by
    rw [current_concat_enter, eq_comm]
    rfl
  known scope := by
    rw [Scopes.apply, Table.contains_insert, recounts.known, List.mem_append, List.mem_singleton, Event.enter.injEq]
    rw [or_comm, or_assoc]
  declared scope name := by
    rw [declared_concat_enter, ← recounts.declared, Scopes.apply, isDeclared_insert]
    by_cases same : scope = function
    · simp [same, Table.contains_empty]
    · simp [same]

theorem leave (recounts : Recounts events scopes) :
    Recounts (events ++ [.leave]) (scopes.apply .leave).1 where
  current scope := by
    rw [current_concat_leave, eq_comm]
    rfl
  known scope := by
    simpa [Scopes.apply] using recounts.known scope
  declared scope name := by
    rw [declared_concat_leave]
    exact recounts.declared scope name

theorem declare (recounts : Recounts events scopes) (other : String) :
    Recounts (events ++ [.declare other]) (scopes.apply (.declare other)).1 where
  current scope := by
    rw [current_concat_declare]
    exact recounts.current scope
  known scope := by
    have entered : .enter scope ∈ events ++ [.declare other] ↔ .enter scope ∈ events := by simp
    rw [Scopes.apply, Table.contains_insert, recounts.known, entered]
    refine or_iff_right_of_imp fun same => ?_
    exact ((recounts.current scope).mp same.symm).entered
  declared scope name := by
    rw [declared_concat_declare, ← recounts.current, ← recounts.declared, Scopes.apply, isDeclared_insert]
    by_cases same : scope = scopes.current
    · rw [if_pos same, Names.add, Table.contains_insert, same]
      simp [isDeclared]
    · simp [same, Ne.symm same]

theorem apply (recounts : Recounts events scopes) (event : Event) :
    Recounts (events ++ [event]) (scopes.apply event).1 := by
  cases event with
  | enter function => exact recounts.enter function
  | leave => exact recounts.leave
  | declare name => exact recounts.declare name

end Recounts

theorem recounts_replay (events : List Event) : Recounts events (initial.replay events) := by
  induction events using List.reverseRecOn with
  | nil => exact recounts_initial
  | append_singleton events event ih =>
      rw [replay, List.foldl_append]
      exact ih.apply event

/-- The code points of a text. -/
def codePoints (text : String) : List Nat := text.toList.map Char.toNat

/-- Each name once, in ascending order of the code points. -/
def Ordered (names : List String) : Prop := names.Pairwise fun one next => codePoints one < codePoints next

theorem ordered_names {β : Type} (table : Table β) : Ordered table.names := by
  refine table.names_ascending.imp fun {one next} below => ?_
  exact List.map_lt (fun _ _ => id) below

/-- The register tells what was called, and nothing else. The current scope is the function that was entered last and
not left, or else the global one. The scopes that are known, the current one among them, are the global one and those
that were ever entered. A name is declared in a scope if it was declared while the scope was current and the scope has
not been entered since, and the names of a scope are listed in order, each once. -/
theorem replay_recounts (events : List Event) :
    let scopes := initial.replay events
    (∀ scope, scopes.current = scope ↔ Current events scope) ∧
      (∀ scope, scope ∈ scopes.known.names ↔ scope = globalScope ∨ .enter scope ∈ events) ∧
      scopes.current ∈ scopes.known.names ∧ Ordered scopes.known.names ∧
      (∀ scope name, scopes.isDeclared scope name = true ↔ Declared events scope name) ∧
      ∀ scope, Ordered (scopes.declared scope) ∧ ∀ name, name ∈ scopes.declared scope ↔ Declared events scope name := by
  intro scopes
  have recounts : Recounts events scopes := recounts_replay events
  have names (scope : String) : scope ∈ scopes.known.names ↔ scope = globalScope ∨ .enter scope ∈ events :=
    Table.mem_names_iff.trans (recounts.known scope)
  refine ⟨recounts.current, names, ?_, ordered_names _, recounts.declared,
    fun scope => ⟨ordered_names _, fun name => ?_⟩⟩
  · exact (names _).mpr ((recounts.current _).mp rfl).entered
  · exact Table.mem_names_iff.trans (recounts.declared scope name)

-- A function with the name of the global scope is that scope, and entering it forgets what was declared there.
example : (initial.replay [.declare "a", .enter "global", .declare "c", .leave, .declare "b"]).declared "global" =
    ["b", "c"] := by decide

end Scopes

end BraceCompiler
