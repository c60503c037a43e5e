import BraceCompiler.Command.Directory

/-! Runs on any system of files, with a record of all that they put out. -/

namespace BraceCompiler.Command

/-- A system of files with its states. A write that fails gives no new state, so it leaves the files as they were. -/
structure Files (σ : Type) where
  read : (state : σ) → (path : String) → Except FileProblem String
  write : (state : σ) → (path text : String) → Except FileProblem σ

/-- The files, what was printed, the messages, and what was written to which path. -/
structure Ledger (σ : Type) where
  files : σ
  output : String
  messages : String
  written : List (String × String)

variable {σ : Type}

namespace Files

def host (files : Files σ) : Host (StateM (Ledger σ)) where
  read path := do return files.read (← get).files path
  write path text := do
    match files.write (← get).files path text with
    | .ok after =>
      modify fun ledger => { ledger with files := after, written := ledger.written ++ [(path, text)] }
      return .ok ()
    | .error problem => return .error problem
  print text := modify fun ledger => { ledger with output := ledger.output ++ text }
  complain text := modify fun ledger => { ledger with messages := ledger.messages ++ text }

/-- The exit code of a run with settings, and its ledger. -/
def execute (files : Files σ) (state : σ) (settings : Settings) : Nat × Ledger σ :=
  (files.host.execute settings).run ⟨state, "", "", []⟩

/-- The exit code of a run from its arguments, and its ledger. -/
def run (files : Files σ) (state : σ) (arguments : List String) : Nat × Ledger σ :=
  (files.host.run arguments).run ⟨state, "", "", []⟩

/-- All that a run with settings can do. -/
def outcome (files : Files σ) (state : σ) (settings : Settings) : Nat × Ledger σ :=
  match files.read state settings.input with
  | .error problem => (1, ⟨state, "", settings.unreadable problem.reason, []⟩)
  | .ok source =>
    let messages := settings.messages source
    match settings.product source, settings.output with
    | .error _, _ => (1, ⟨state, "", messages, []⟩)
    | .ok product, none => (0, ⟨state, Command.written product, messages, []⟩)
    | .ok product, some path =>
      match files.write state path (Command.written product) with
      | .ok after => (0, ⟨after, "", messages, [(path, Command.written product)]⟩)
      | .error problem => (1, ⟨state, "", messages ++ settings.unwritable source path problem.reason, []⟩)

theorem host_read (files : Files σ) (path : String) (ledger : Ledger σ) :
    (files.host.read path).run ledger = pure (files.read ledger.files path, ledger) := rfl

theorem host_complain (files : Files σ) (text : String) (ledger : Ledger σ) :
    (files.host.complain text).run ledger = pure ((), { ledger with messages := ledger.messages ++ text }) := rfl

theorem host_write (files : Files σ) (path text : String) (ledger : Ledger σ) :
    (files.host.write path text).run ledger = match files.write ledger.files path text with
      | .ok after => pure (.ok (), { ledger with files := after, written := ledger.written ++ [(path, text)] })
      | .error problem => pure (.error problem, ledger) := by
  simp only [host, StateT.run_bind, StateT.run_get, pure_bind]
  cases files.write ledger.files path text with
  | ok after => rfl
  | error problem => rfl

theorem execute_eq (files : Files σ) (state : σ) (settings : Settings) :
    files.execute state settings = files.outcome state settings := by
  unfold execute Host.execute outcome
  rw [StateT.run_bind, host_read, pure_bind]
  cases files.read state settings.input with
  | error problem =>
      simp only [StateT.run_bind, host_complain, pure_bind]
      rfl
  | ok source =>
      simp only [StateT.run_bind, host_complain, pure_bind, String.empty_append]
      cases settings.product source with
      | error complaint => rfl
      | ok product =>
          simp only [Host.deliver]
          cases settings.output with
          | none => rfl
          | some path =>
              simp only [StateT.run_bind, host_write]
              cases files.write state path (Command.written product) with
              | ok after => rfl
              | error problem => rfl

/-- Of its arguments, a run depends on the settings that they ask for. -/
theorem run_eq (files : Files σ) (state : σ) {arguments : List String} {settings : Settings}
    (asked : Settings.ofArguments arguments = .ok settings) :
    files.run state arguments = files.execute state settings := by
  rw [run, Host.run, asked]
  rfl

section

variable {files : Files σ} {state : σ} {settings : Settings} {source : String}

theorem outcome_unreadable {problem : FileProblem} (unreadable : files.read state settings.input = .error problem) :
    files.outcome state settings = (1, ⟨state, "", settings.unreadable problem.reason, []⟩) := by
  simp only [outcome, unreadable]

theorem outcome_refused (readable : files.read state settings.input = .ok source) {complaint : Complaint}
    (refused : settings.product source = .error complaint) :
    files.outcome state settings = (1, ⟨state, "", settings.messages source, []⟩) := by
  simp only [outcome, readable, refused]

theorem outcome_printed (readable : files.read state settings.input = .ok source) {product : String}
    (made : settings.product source = .ok product) (place : settings.output = none) :
    files.outcome state settings = (0, ⟨state, Command.written product, settings.messages source, []⟩) := by
  simp only [outcome, readable, made, place]

theorem outcome_stored (readable : files.read state settings.input = .ok source) {product path : String} {after : σ}
    (made : settings.product source = .ok product) (place : settings.output = some path)
    (accepted : files.write state path (Command.written product) = .ok after) :
    files.outcome state settings =
      (0, ⟨after, "", settings.messages source, [(path, Command.written product)]⟩) := by
  simp only [outcome, readable, made, place, accepted]

theorem outcome_unwritable (readable : files.read state settings.input = .ok source) {product path : String}
    {problem : FileProblem} (made : settings.product source = .ok product) (place : settings.output = some path)
    (refused : files.write state path (Command.written product) = .error problem) :
    files.outcome state settings =
      (1, ⟨state, "", settings.messages source ++ settings.unwritable source path problem.reason, []⟩) := by
  simp only [outcome, readable, made, place, refused]

end

end Files

/-- Directories as a system of files. -/
def Directory.files : Files Directory := ⟨Directory.read, Directory.write⟩

/-- The ledger of a run in a directory, without what was written to which path. -/
def Ledger.session (ledger : Ledger Directory) : Session := ⟨ledger.files, ledger.output, ledger.messages⟩

/-- The second computation does what the first does, and keeps no record of what was written. -/
def Tracks {α : Type} (kept : StateM (Ledger Directory) α) (plain : StateM Session α) : Prop :=
  ∀ ledger, plain.run ledger.session = pure ((kept.run ledger).1, (kept.run ledger).2.session)

namespace Tracks

theorem pure {α : Type} (value : α) : Tracks (pure value) (pure value) := fun _ => rfl

theorem bind {α β : Type} {kept : StateM (Ledger Directory) α} {plain : StateM Session α}
    {next : α → StateM (Ledger Directory) β} {plainNext : α → StateM Session β} (tracks : Tracks kept plain)
    (later : ∀ value, Tracks (next value) (plainNext value)) : Tracks (kept >>= next) (plain >>= plainNext) := by
  intro ledger
  rw [StateT.run_bind, StateT.run_bind, tracks ledger, pure_bind]
  exact later (kept.run ledger).1 (kept.run ledger).2

theorem read (path : String) : Tracks (Directory.files.host.read path) (Session.host.read path) := fun _ => rfl

theorem print (text : String) : Tracks (Directory.files.host.print text) (Session.host.print text) := fun _ => rfl

theorem complain (text : String) : Tracks (Directory.files.host.complain text) (Session.host.complain text) :=
  fun _ => rfl

theorem write (path text : String) : Tracks (Directory.files.host.write path text) (Session.host.write path text) := by
  intro ledger
  rw [Files.host_write]
  simp only [Session.host, StateT.run_bind, StateT.run_get, pure_bind]
  have same : ledger.session.directory.write path text = Directory.files.write ledger.files path text := rfl
  rw [same]
  cases Directory.files.write ledger.files path text with
  | ok after => rfl
  | error problem => rfl

theorem deliver (settings : Settings) (source product : String) :
    Tracks (Directory.files.host.deliver settings source product) (Session.host.deliver settings source product) := by
  unfold Host.deliver
  cases settings.output with
  | none => exact (print _).bind fun _ => pure _
  | some path =>
      refine (write _ _).bind fun result => ?_
      cases result with
      | ok _ => exact pure _
      | error problem => exact (complain _).bind fun _ => pure _

theorem execute (settings : Settings) :
    Tracks (Directory.files.host.execute settings) (Session.host.execute settings) := by
  unfold Host.execute
  refine (read _).bind fun result => ?_
  cases result with
  | error problem => exact (complain _).bind fun _ => pure _
  | ok source =>
      refine (complain _).bind fun _ => ?_
      cases settings.product source with
      | error complaint => exact pure _
      | ok product => exact deliver settings source product

theorem run (arguments : List String) : Tracks (Directory.files.host.run arguments) (Session.host.run arguments) := by
  unfold Host.run
  cases Settings.ofArguments arguments with
  | ok settings => exact execute settings
  | error stop =>
      cases stop
      case versionAsked => exact (print _).bind fun _ => pure _
      case helpAsked => exact (print _).bind fun _ => pure _
      all_goals exact (complain _).bind fun _ => pure _

end Tracks

/-- A run in a directory is a run on it as a system of files, without the record of what was written. -/
theorem Directory.run_eq (directory : Directory) (arguments : List String) :
    directory.run arguments =
      ((files.run directory arguments).1, (files.run directory arguments).2.session) :=
  Tracks.run arguments ⟨directory, "", "", []⟩

end BraceCompiler.Command
