import BraceCompiler.Proofs.Command.Agreement
import BraceCompiler.Proofs.Target.Lines

/-! A run puts out its product whole or not at all. How it reports has no part in that, and warnings have a part in it
only if they are denied. -/

namespace BraceCompiler

theorem Piece.isWarning_of_warning {piece : Piece} {notice : Notice} (given : piece.warning? = some notice) :
    notice.isWarning = true := by
  unfold Piece.warning? at given
  cases fate : piece.fate with
  | closed => rw [fate] at given; cases given; rfl
  | replaced => rw [fate] at given; cases given; rfl
  | skipped => rw [fate] at given; cases given; rfl
  | dropped => rw [fate] at given; cases given
  | kept _ => rw [fate] at given; cases given

theorem isWarning_of_mem_warningsOf {source : String} {notice : Notice} (member : notice ∈ warningsOf source) :
    notice.isWarning = true := by
  obtain ⟨piece, -, given⟩ := List.mem_filterMap.mp member
  exact Piece.isWarning_of_warning given

namespace Command

/-- The notes of a stage are not warnings. -/
theorem Stage.notes_plain {stage : Stage} {source text : String} {notes : Notices}
    (given : stage.text source = .ok (text, notes)) : notes.hasWarnings = false := by
  cases stage with
  | tokens => cases given; rfl
  | tree =>
      rw [Stage.text] at given
      cases parsed : parse (tokensOf source) with
      | error fault => rw [parsed] at given; cases given
      | ok program => rw [parsed] at given; cases given; rfl
  | code =>
      rw [Stage.text] at given
      cases parsed : parse (tokensOf source) with
      | error fault => rw [parsed] at given; cases given
      | ok program =>
          rw [parsed] at given
          simp only [bind, Except.bind] at given
          split at given
          · cases given
          · rename_i written
            cases given
            have plain : (Writer.initial.write program).2.notices.hasWarnings = false := Step.runAll_notes _ _
            rwa [written] at plain

section

variable {settings : Settings} {source text : String} {notes : Notices}

/-- Of the notices of a run, the warnings are those about the source. -/
theorem Settings.warnings_notices (given : settings.emit.text source = .ok (text, notes)) :
    (settings.notices source).warnings = warningsOf source := by
  have own : (warningsOf source).filter Notice.isWarning = warningsOf source :=
    List.filter_eq_self.mpr fun _ member => isWarning_of_mem_warningsOf member
  have none : notes.filter Notice.isWarning = [] :=
    List.filter_eq_nil_iff.mpr (List.any_eq_false.mp (Stage.notes_plain given))
  simp only [Settings.notices, given, Notices.warnings, List.filter_append, own, none, List.append_nil]

theorem Settings.hasWarnings_notices (given : settings.emit.text source = .ok (text, notes)) :
    (settings.notices source).hasWarnings = true ↔ warningsOf source ≠ [] := by
  rw [← warnings_notices given, Notices.hasWarnings, Notices.warnings, ne_eq, List.filter_eq_nil_iff, List.any_eq_true]
  simp

/-- With a text to give, a run refuses it only for a warning about the source that is denied. -/
theorem Settings.product_eq (given : settings.emit.text source = .ok (text, notes)) :
    settings.product source = if settings.denyWarnings = true ∧ warningsOf source ≠ [] then
      .error (deniedComplaint (warningsOf source).length) else .ok text := by
  rw [product, given]
  simp only [Bool.and_eq_true, hasWarnings_notices given, warnings_notices given]

theorem Settings.product_of_fault {fault : Fault} (failed : settings.emit.text source = .error fault) :
    settings.product source = .error fault.complaint := by
  rw [product, failed]

end

section

variable {σ : Type}

/-- Nothing was put out but messages. -/
structure Ledger.Untouched (ledger : Ledger σ) (state : σ) : Prop where
  files : ledger.files = state
  output : ledger.output = ""
  written : ledger.written = []

/-- A text was put out in one place: at the path if there is one, else on the output. -/
inductive Files.Delivers (files : Files σ) (state : σ) (text : String) : Option String → Ledger σ → Prop
  | printed (messages : String) : Delivers files state text none ⟨state, text, messages, []⟩
  | stored {path : String} {after : σ} (messages : String) (accepted : files.write state path text = .ok after) :
    Delivers files state text (some path) ⟨after, "", messages, [(path, text)]⟩

/-- The settings give this text: the source can be read, the stage is reached, and no warning is denied. -/
def Files.Produces (files : Files σ) (state : σ) (settings : Settings) (text : String) : Prop :=
  ∃ source notes, files.read state settings.input = .ok source ∧ settings.emit.text source = .ok (text, notes) ∧
    (settings.denyWarnings = true → warningsOf source = [])

/-- There are warnings about the source, and its stage is reached. -/
def Files.Warned (files : Files σ) (state : σ) (settings : Settings) (source : String) : Prop :=
  files.read state settings.input = .ok source ∧ (∃ text notes, settings.emit.text source = .ok (text, notes)) ∧
    warningsOf source ≠ []

variable {files : Files σ} {state : σ} {settings : Settings}

theorem Files.produces_iff {source : String} (readable : files.read state settings.input = .ok source) (text : String) :
    files.Produces state settings text ↔ settings.product source = .ok text := by
  constructor
  · rintro ⟨other, notes, same, given, clean⟩
    rw [readable] at same
    cases same
    rw [Settings.product_eq given, if_neg fun denied => denied.2 (clean denied.1)]
  · intro made
    cases given : settings.emit.text source with
    | error fault =>
        rw [Settings.product_of_fault given] at made
        cases made
    | ok result =>
        rw [Settings.product_eq given] at made
        split at made
        · cases made
        · rename_i accepted
          cases made
          exact ⟨source, _, readable, given, fun deny => by_contra fun warned => accepted ⟨deny, warned⟩⟩

/-- A run ends well with its text put out whole, or it ends badly and puts nothing out: there was no text to put out,
or no place for it. -/
theorem Files.outcome_artifact (files : Files σ) (state : σ) (settings : Settings) :
    ((files.outcome state settings).1 = 0 ∧ ∃ text, files.Produces state settings text ∧
      files.Delivers state (text ++ "\n") settings.output (files.outcome state settings).2) ∨
    ((files.outcome state settings).1 = 1 ∧ (files.outcome state settings).2.Untouched state ∧
      ¬∃ text ledger, files.Produces state settings text ∧
        files.Delivers state (text ++ "\n") settings.output ledger) := by
  cases readable : files.read state settings.input with
  | error problem =>
      rw [outcome_unreadable readable]
      refine .inr ⟨rfl, ⟨rfl, rfl, rfl⟩, ?_⟩
      rintro ⟨_, _, ⟨_, _, same, -⟩, -⟩
      rw [readable] at same
      cases same
  | ok source =>
      simp only [produces_iff readable]
      cases product : settings.product source with
      | error complaint =>
          rw [outcome_refused readable product]
          refine .inr ⟨rfl, ⟨rfl, rfl, rfl⟩, ?_⟩
          rintro ⟨_, _, same, -⟩
          cases same
      | ok text =>
          cases place : settings.output with
          | none =>
              rw [outcome_printed readable product place]
              exact .inl ⟨rfl, text, rfl, .printed _⟩
          | some path =>
              cases accepted : files.write state path (written text) with
              | ok after =>
                  rw [outcome_stored readable product place accepted]
                  exact .inl ⟨rfl, text, rfl, .stored _ accepted⟩
              | error problem =>
                  rw [outcome_unwritable readable product place accepted]
                  refine .inr ⟨rfl, ⟨rfl, rfl, rfl⟩, ?_⟩
                  rintro ⟨_, _, same, delivered⟩
                  cases same
                  cases delivered with
                  | stored _ same =>
                      rw [← written, accepted] at same
                      cases same

/-- The same was put out, messages apart. -/
structure Ledger.Alike (ledger other : Ledger σ) : Prop where
  files : ledger.files = other.files
  output : ledger.output = other.output
  written : ledger.written = other.written

theorem Files.outcome_report (files : Files σ) (state : σ) (settings : Settings) (quiet : Bool)
    (format : NoticeFormat) :
    (files.outcome state { settings with quiet, format }).1 = (files.outcome state settings).1 ∧
      (files.outcome state { settings with quiet, format }).2.Alike (files.outcome state settings).2 := by
  have same (source : String) : { settings with quiet, format }.product source = settings.product source := rfl
  unfold outcome
  cases files.read state settings.input with
  | error problem => exact ⟨rfl, rfl, rfl, rfl⟩
  | ok source =>
      simp only [same]
      cases settings.product source with
      | error complaint => exact ⟨rfl, rfl, rfl, rfl⟩
      | ok product =>
          cases settings.output with
          | none => exact ⟨rfl, rfl, rfl, rfl⟩
          | some path =>
              dsimp only
              cases files.write state path (written product) with
              | ok after => exact ⟨rfl, rfl, rfl, rfl⟩
              | error problem => exact ⟨rfl, rfl, rfl, rfl⟩

/-- The settings with warnings denied. -/
def Settings.strict (settings : Settings) : Settings := { settings with denyWarnings := true }

theorem Files.outcome_strict_of_warned {source : String} (warned : files.Warned state settings source) :
    files.outcome state settings.strict = (1, ⟨state, "", settings.shownNotices source ++
      Excerpt.renderComplaint ⟨settings.input, source⟩ (deniedComplaint (warningsOf source).length) ++ "\n", []⟩) := by
  obtain ⟨readable, ⟨text, notes, given⟩, some⟩ := warned
  have refused : settings.strict.product source = .error (deniedComplaint (warningsOf source).length) := by
    have strict : settings.strict.emit.text source = .ok (text, notes) := given
    rw [Settings.product_eq strict, if_pos ⟨rfl, some⟩]
  have readableStrict : files.read state settings.strict.input = .ok source := readable
  rw [outcome_refused readableStrict refused, Settings.messages, refused, String.append_assoc]
  rfl

theorem Settings.strict_product {source : String}
    (clean : ∀ text notes, settings.emit.text source = .ok (text, notes) → warningsOf source = []) :
    settings.strict.product source = settings.product source := by
  cases given : settings.emit.text source with
  | error fault =>
      have strict : settings.strict.emit.text source = .error fault := given
      rw [product_of_fault given, product_of_fault strict]
  | ok result =>
      have strict : settings.strict.emit.text source = .ok result := given
      rw [product_eq given, product_eq strict, clean _ _ given]
      simp

/-- Denying changes nothing where there is nothing to deny. -/
theorem Files.outcome_strict_of_not_warned (clean : ¬∃ source, files.Warned state settings source) :
    files.outcome state settings.strict = files.outcome state settings := by
  unfold outcome
  have input : settings.strict.input = settings.input := rfl
  rw [input]
  cases readable : files.read state settings.input with
  | error problem => rfl
  | ok source =>
      have same : settings.strict.product source = settings.product source :=
        Settings.strict_product fun text notes given =>
          by_contra fun some => clean ⟨source, readable, ⟨text, notes, given⟩, some⟩
      have messages : settings.strict.messages source = settings.messages source := by
        rw [Settings.messages, same]
        rfl
      simp only [same, messages]
      rfl

/-- Every report starts with the code. -/
theorem renderComplaint_code (excerpt : Excerpt) (complaint : Complaint) :
    ∃ rest, excerpt.renderComplaint complaint = "error[" ++ (complaint.code ++ rest) := by
  simp only [Excerpt.renderComplaint, Excerpt.withLocation, Complaint.headline]
  cases complaint.help <;> cases complaint.position <;> simp only [String.append_assoc] <;> exact ⟨_, rfl⟩

theorem unwritable_ne_denied (settings : Settings) (source path reason : String) (count : Nat) :
    settings.unwritable source path reason ≠
      Excerpt.renderComplaint ⟨settings.input, source⟩ (deniedComplaint count) ++ "\n" := by
  intro same
  obtain ⟨rest, shown⟩ := renderComplaint_code ⟨settings.input, source⟩ (Fault.file path reason).complaint
  obtain ⟨other, denied⟩ := renderComplaint_code ⟨settings.input, source⟩ (deniedComplaint count)
  rw [Settings.unwritable, message, shown, denied] at same
  simp only [String.append_assoc, String.append_right_inj] at same
  -- The codes differ in their third letter.
  have letter := congrArg (fun text : String => text.toList[2]?) same
  simp [Fault.complaint, deniedComplaint, Complaint.withHelp] at letter

/-- Denied warnings always show: a run without the denial ends well, or fails for another reason. -/
theorem Files.outcome_strict_ne {source : String} (warned : files.Warned state settings source)
    (lenient : settings.denyWarnings = false) :
    files.outcome state settings.strict ≠ files.outcome state settings := by
  rw [outcome_strict_of_warned warned]
  obtain ⟨readable, ⟨text, notes, given⟩, -⟩ := warned
  have product : settings.product source = .ok text := by
    rw [Settings.product_eq given, lenient]
    simp
  cases place : settings.output with
  | none =>
      rw [outcome_printed readable product place]
      simp
  | some path =>
      cases accepted : files.write state path (written text) with
      | ok after =>
          rw [outcome_stored readable product place accepted]
          simp
      | error problem =>
          rw [outcome_unwritable readable product place accepted, Settings.messages, product]
          intro same
          have messages := congrArg (fun ended => ended.2.messages) same
          simp only [String.append_empty, String.append_assoc, String.append_right_inj] at messages
          exact unwritable_ne_denied settings source path problem.reason _ messages.symm

end

/-- A run puts out its text whole and in one place and ends well, or it puts nothing out and ends badly, which it does
only if there is no text or no place for it. Being quiet and the form of the notices change neither the exit code nor
what is put out. Denying warnings changes a run exactly if its stage is reached and there are warnings about the
source; then the run ends badly with nothing put out, and with a last report that counts these warnings. Of its
arguments, a run depends on the settings that they ask for. -/
theorem run_artifact {σ : Type} (files : Files σ) (state : σ) (settings : Settings) {code : Nat} {ledger : Ledger σ}
    (ended : files.execute state settings = (code, ledger)) :
    ((code = 0 ∧ ∃ text, files.Produces state settings text ∧
        files.Delivers state (text ++ "\n") settings.output ledger) ∨
      (code = 1 ∧ ledger.Untouched state ∧ ¬∃ text other, files.Produces state settings text ∧
        files.Delivers state (text ++ "\n") settings.output other)) ∧
    (∀ quiet format, (files.execute state { settings with quiet, format }).1 = code ∧
      (files.execute state { settings with quiet, format }).2.Alike ledger) ∧
    (settings.denyWarnings = false →
      (files.execute state { settings with denyWarnings := true } ≠ (code, ledger) ↔
        ∃ source, files.Warned state settings source) ∧
      ∀ source, files.Warned state settings source →
        (files.execute state { settings with denyWarnings := true }).1 = 1 ∧
        (files.execute state { settings with denyWarnings := true }).2.Untouched state ∧
        ∃ shown, (files.execute state { settings with denyWarnings := true }).2.messages =
          shown ++ Excerpt.renderComplaint ⟨settings.input, source⟩ ⟨"E_DIAGNOSTICS",
            toString (warningsOf source).length ++ " warning(s) treated as errors", none,
            some "fix the input or drop --deny-warnings"⟩ ++ "\n") ∧
    ∀ arguments asked, Settings.ofArguments arguments = .ok asked →
      files.run state arguments = files.execute state asked := by
  rw [files.execute_eq] at ended
  simp only [files.execute_eq]
  refine ⟨?_, fun quiet format => ?_, fun lenient => ⟨?_, fun source warned => ?_⟩, fun arguments asked same => ?_⟩
  · have artifact := files.outcome_artifact state settings
    rwa [ended] at artifact
  · have report := files.outcome_report state settings quiet format
    rwa [ended] at report
  · rw [← ended]
    refine ⟨fun changed => by_contra fun clean => changed (Files.outcome_strict_of_not_warned clean), ?_⟩
    rintro ⟨source, warned⟩
    exact Files.outcome_strict_ne warned lenient
  · have refused := Files.outcome_strict_of_warned warned
    rw [Settings.strict] at refused
    rw [refused]
    exact ⟨rfl, ⟨rfl, rfl, rfl⟩, settings.shownNotices source, rfl⟩
  · rw [files.run_eq state same, files.execute_eq]

/-- The source is compiled with a warning. If warnings are denied, the file is not written. -/
theorem run_artifact_sample :
    Settings.ofArguments ["f.xec", "-of.out"] = .ok ⟨"f.xec", some "f.out", .code, false, false, .human⟩ ∧
      Settings.ofArguments ["f.xec", "-of.out", "--deny-warnings"] =
        .ok ⟨"f.xec", some "f.out", .code, true, false, .human⟩ ∧
      Directory.files.Warned sampleDirectory ⟨"f.xec", some "f.out", .code, false, false, .human⟩ sample ∧
      (sampleDirectory.run ["f.xec", "-of.out", "--deny-warnings"]).1 = 1 ∧
      (sampleDirectory.run ["f.xec", "-of.out", "--deny-warnings"]).2.directory = sampleDirectory ∧
      (sampleDirectory.run ["f.xec", "-of.out", "--deny-warnings"]).2.output = "" := by
  have asked : Settings.ofArguments ["f.xec", "-of.out"] =
      .ok ⟨"f.xec", some "f.out", .code, false, false, .human⟩ := rfl
  have askedStrict : Settings.ofArguments ["f.xec", "-of.out", "--deny-warnings"] =
      .ok ⟨"f.xec", some "f.out", .code, true, false, .human⟩ := rfl
  have warned : Directory.files.Warned sampleDirectory ⟨"f.xec", some "f.out", .code, false, false, .human⟩ sample := by
    refine ⟨read_sample, ?_, by rw [warningsOf_sample]; exact List.cons_ne_nil _ _⟩
    rcases compile_cases sample with ⟨fault, failed, -⟩ | ⟨compilation, notes, -, given, -⟩
    · rw [compile_sample] at failed
      cases failed
    · exact ⟨_, notes, given⟩
  rcases ended : Directory.files.execute sampleDirectory ⟨"f.xec", some "f.out", .code, false, false, .human⟩ with
    ⟨code, ledger⟩
  obtain ⟨-, -, denied, runs⟩ := run_artifact Directory.files sampleDirectory _ ended
  have strictly := (denied rfl).2 sample warned
  rw [Directory.run_eq, runs _ _ askedStrict]
  generalize Directory.files.execute sampleDirectory ⟨"f.xec", some "f.out", .code, true, false, .human⟩ = result
    at strictly ⊢
  exact ⟨asked, askedStrict, warned, strictly.1, strictly.2.1.files, strictly.2.1.output⟩

end Command

end BraceCompiler
