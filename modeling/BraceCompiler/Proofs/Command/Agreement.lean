import BraceCompiler.Proofs.Command.Files
import BraceCompiler.Proofs.Json.Reader

/-! A run that asks for code gives what a compilation of the same source gives: its output, its notices, and its
fault if it has one. -/

namespace BraceCompiler.Command

/-- The stage and the compilation stop at the same fault, or they have the same text and the same notes after the
warnings. -/
theorem compile_cases (source : String) :
    (∃ fault, compile source = .error fault ∧ Stage.code.text source = .error fault) ∨
      ∃ compilation notes, compile source = .ok compilation ∧
        Stage.code.text source = .ok (compilation.output, notes) ∧
        compilation.notices = warningsOf source ++ notes := by
  rw [compile, Stage.text]
  cases parse (tokensOf source) with
  | error fault => exact .inl ⟨fault, rfl, rfl⟩
  | ok program =>
      simp only [bind, Except.bind]
      cases Writer.initial.write program with
      | mk stopped writer =>
          cases stopped with
          | some fault => exact .inl ⟨fault, rfl, rfl⟩
          | none => exact .inr ⟨_, writer.notices, rfl, rfl, rfl⟩

section

variable {settings : Settings} {source : String}

/-- Runs that ask for code and go on in spite of warnings. -/
structure Settings.Compiles (settings : Settings) : Prop where
  code : settings.emit = .code
  lenient : settings.denyWarnings = false

theorem Settings.Compiles.ok (compiles : settings.Compiles) {compilation : Compilation}
    (compiled : compile source = .ok compilation) :
    settings.product source = .ok compilation.output ∧ settings.notices source = compilation.notices := by
  rcases compile_cases source with ⟨fault, failed, -⟩ | ⟨other, notes, same, text, notices⟩
  · rw [failed] at compiled
    cases compiled
  · rw [same] at compiled
    cases compiled
    simp [product, Settings.notices, compiles.code, compiles.lenient, text, notices]

theorem Settings.Compiles.error (compiles : settings.Compiles) {fault : Fault}
    (failed : compile source = .error fault) :
    settings.product source = .error fault.complaint ∧ settings.notices source = warningsOf source := by
  rcases compile_cases source with ⟨other, same, text⟩ | ⟨compilation, notes, compiled, -⟩
  · rw [same] at failed
    cases failed
    simp [product, Settings.notices, compiles.code, text]
  · rw [compiled] at failed
    cases failed

/-- Notices for programs, if they are shown. -/
structure Settings.ForPrograms (settings : Settings) : Prop where
  shown : settings.quiet = false
  data : settings.format = .json

/-- The text is the line of data that lists the notices, and the notices can be read from it. -/
structure Lists (text : String) (notices : Notices) : Prop where
  line : text = (Json.list (notices.map Notice.toJson)).compact ++ "\n"
  readable : Notices.ofText? text = some notices

theorem Settings.ForPrograms.lists (forPrograms : settings.ForPrograms) (source : String) :
    Lists (settings.shownNotices source) (settings.notices source) := by
  have line : settings.shownNotices source =
      (Json.list ((settings.notices source).map Notice.toJson)).compact ++ "\n" := by
    simp only [shownNotices, forPrograms.shown, forPrograms.data, Bool.false_eq_true, if_false, message]
  refine ⟨line, ?_⟩
  rw [line]
  exact Notices.ofText_toJson _ (by decide)

end

section

variable {σ : Type} {files : Files σ} {state : σ} {settings : Settings} {source : String}

theorem execute_of_compiled (compiles : settings.Compiles)
    (printed : settings.output = none) (readable : files.read state settings.input = .ok source)
    {compilation : Compilation} (compiled : compile source = .ok compilation) :
    files.execute state settings = (0, ⟨state, compilation.output ++ "\n", settings.shownNotices source, []⟩) := by
  have product := (compiles.ok compiled).1
  rw [files.execute_eq, Files.outcome_printed readable product printed]
  simp only [Settings.messages, product, String.append_empty, written]

theorem execute_of_failed (compiles : settings.Compiles) (readable : files.read state settings.input = .ok source)
    {fault : Fault} (failed : compile source = .error fault) :
    files.execute state settings = (1, ⟨state, "", settings.shownNotices source ++
      Excerpt.renderComplaint ⟨settings.input, source⟩ fault.complaint ++ "\n", []⟩) := by
  have product := (compiles.error failed).1
  rw [files.execute_eq, Files.outcome_refused readable product]
  simp only [product, Settings.messages, message, String.append_assoc]

end

/-- A run on a source that asks for code gives what compiling the source gives. It ends well with a text on the
output exactly if there is a compilation with this text as its output. If there is a fault, it ends badly with nothing
on the output, and the report about this fault comes last. Programs are told the notices of the compilation, or the
warnings about the source if there is none. All arguments that ask for the settings run like this. -/
theorem command_compiles {σ : Type} (files : Files σ) (state : σ) {settings : Settings} {source : String}
    (compiles : settings.Compiles) (printed : settings.output = none)
    (readable : files.read state settings.input = .ok source) {code : Nat} {ledger : Ledger σ}
    (ended : files.execute state settings = (code, ledger)) :
    (∀ text, code = 0 ∧ ledger.output = text ↔
      ∃ compilation, compile source = .ok compilation ∧ text = compilation.output ++ "\n") ∧
    (∀ fault, compile source = .error fault → code = 1 ∧ ledger.output = "" ∧
      ∃ shown, ledger.messages =
          shown ++ Excerpt.renderComplaint ⟨settings.input, source⟩ fault.complaint ++ "\n" ∧
        (settings.ForPrograms → Lists shown (warningsOf source))) ∧
    (∀ compilation, compile source = .ok compilation → settings.ForPrograms →
      Lists ledger.messages compilation.notices) ∧
    ∀ arguments, Settings.ofArguments arguments = .ok settings → files.run state arguments = (code, ledger) := by
  have runs : ∀ arguments, Settings.ofArguments arguments = .ok settings →
      files.run state arguments = (code, ledger) := by
    intro arguments asked
    rw [files.run_eq state asked, ended]
  cases compiled : compile source with
  | ok compilation =>
      rw [execute_of_compiled compiles printed readable compiled] at ended
      cases ended
      refine ⟨fun text => ⟨fun shown => ?_, fun same => ?_⟩, fun _ same => ?_, fun _ same forPrograms => ?_, runs⟩
      · exact ⟨compilation, rfl, shown.2.symm⟩
      · obtain ⟨_, same, rfl⟩ := same
        cases same
        exact ⟨rfl, rfl⟩
      · cases same
      · cases same
        rw [← (compiles.ok compiled).2]
        exact forPrograms.lists source
  | error fault =>
      rw [execute_of_failed compiles readable compiled] at ended
      cases ended
      refine ⟨fun text => ⟨fun shown => ?_, fun same => ?_⟩, fun _ same => ?_, fun _ same _ => ?_, runs⟩
      · cases shown.1
      · obtain ⟨_, same, -⟩ := same
        cases same
      · cases same
        refine ⟨rfl, rfl, settings.shownNotices source, rfl, fun forPrograms => ?_⟩
        rw [← (compiles.error compiled).2]
        exact forPrograms.lists source
      · cases same

/-- A source with a character too many, which is read as an operator. -/
def sample : String := "function f()\x7breturn a # b;\x7d"

def sampleDirectory : Directory := ⟨[("f.xec", .file sample.toUTF8)], by simp⟩

theorem read_sample : Directory.files.read sampleDirectory "f.xec" = .ok sample := by
  have found : sampleDirectory.resolve "f.xec" = .ok (.inside [], some "f.xec") := rfl
  have listed : sampleDirectory.lookUp (.inside []) "f.xec" = .ok (some (.file sample.toUTF8)) := rfl
  have decoded : String.fromUTF8? sample.toUTF8 = some sample := dif_pos sample.isValidUTF8
  change Directory.read sampleDirectory "f.xec" = .ok sample
  rw [Directory.read, found]
  simp only [bind, Except.bind]
  rw [listed]
  simp only [decoded]
  rfl

def sampleTokens : List Token :=
  [⟨.keyword, "function", ⟨1, 1⟩⟩, ⟨.identifier, "f", ⟨1, 10⟩⟩, ⟨.tupleStart, "(", ⟨1, 11⟩⟩, ⟨.tupleEnd, ")", ⟨1, 12⟩⟩,
    ⟨.delimiter, "\x7b", ⟨1, 13⟩⟩, ⟨.keyword, "return", ⟨1, 14⟩⟩, ⟨.identifier, "a", ⟨1, 21⟩⟩,
    ⟨.operator, "+", ⟨1, 23⟩⟩, ⟨.identifier, "b", ⟨1, 25⟩⟩, ⟨.delimiter, ";", ⟨1, 26⟩⟩, ⟨.delimiter, "\x7d", ⟨1, 27⟩⟩]

def sampleCompilation : Compilation where
  tokens := sampleTokens
  program := .program [.function "f" [] [.returning (.binary (.identifier "a") "+" (.identifier "b"))]]
  lines := ["function f() \x7b", "return (a + b);", "\x7d"]
  notices := [.missingOperator "#" "+" ⟨1, 23⟩, .functionEntered "f" 0]

theorem warningsOf_sample : warningsOf sample = [.missingOperator "#" "+" ⟨1, 23⟩] := by decide +kernel

theorem compile_sample : compile sample = .ok sampleCompilation := by
  have tokens : tokensOf sample = sampleTokens := by decide +kernel
  have parsed : parse sampleTokens = .ok sampleCompilation.program := rfl
  rw [compile, tokens, warningsOf_sample, parsed]
  rfl

theorem command_compiles_sample :
    Settings.ofArguments ["f.xec", "--diagnostics=json"] = .ok ⟨"f.xec", none, .code, false, false, .json⟩ ∧
      Directory.files.read sampleDirectory "f.xec" = .ok sample ∧ compile sample = .ok sampleCompilation ∧
      (sampleDirectory.run ["f.xec", "--diagnostics=json"]).1 = 0 ∧
      (sampleDirectory.run ["f.xec", "--diagnostics=json"]).2.output =
        "function f() \x7b\nreturn (a + b);\n\x7d\n" ∧
      Notices.ofText? (sampleDirectory.run ["f.xec", "--diagnostics=json"]).2.messages =
        some [.missingOperator "#" "+" ⟨1, 23⟩, .functionEntered "f" 0] := by
  have asked : Settings.ofArguments ["f.xec", "--diagnostics=json"] =
      .ok ⟨"f.xec", none, .code, false, false, .json⟩ := rfl
  rcases ended : Directory.files.execute sampleDirectory ⟨"f.xec", none, .code, false, false, .json⟩ with
    ⟨code, ledger⟩
  obtain ⟨agrees, -, lists, runs⟩ :=
    command_compiles Directory.files sampleDirectory ⟨rfl, rfl⟩ rfl read_sample ended
  obtain ⟨exit, shown⟩ := (agrees _).mpr ⟨sampleCompilation, compile_sample, rfl⟩
  rw [Directory.run_eq, runs _ asked]
  exact ⟨asked, read_sample, compile_sample, exit, shown, (lists _ compile_sample ⟨rfl, rfl⟩).readable⟩

end BraceCompiler.Command
