import BraceCompiler.Proofs.Faults
import BraceCompiler.Proofs.Token.Clean

/-! Which programs can be written, told from the tree alone. The landmarks of a tree are its function headers and
the sites of its assignments, in document order. Whether a site may stand depends only on the last header
before it, and the first site that may not is where writing stops. -/

namespace BraceCompiler

/-- Blanks, then the word, then a blank and anything or nothing at all. Only a text of blanks has an empty word. -/
def FirstWord (text word : String) : Prop :=
  ∃ before after, text.toList = before ++ word.toList ++ after ∧ (∀ c ∈ before, Text.isBlank c = true) ∧
    (∀ c ∈ word.toList, Text.isBlank c = false) ∧ (∀ c ∈ after.head?, Text.isBlank c = true) ∧
    (word = "" → after = [])

theorem firstWord_firstWord (text : String) : FirstWord text (Text.firstWord text) := by
  let rest := text.toList.dropWhile Text.isBlank
  have letters : (Text.firstWord text).toList = rest.takeWhile fun c => !Text.isBlank c := String.toList_ofList
  refine ⟨text.toList.takeWhile Text.isBlank, rest.dropWhile fun c => !Text.isBlank c, ?_, ?_, ?_, ?_, ?_⟩
  · rw [letters, List.append_assoc, List.takeWhile_append_dropWhile, List.takeWhile_append_dropWhile]
  · intro c member
    exact List.mem_takeWhile_imp member
  · intro c member
    rw [letters] at member
    simpa using List.mem_takeWhile_imp member
  · intro c member
    have stopped := List.head?_dropWhile_not (fun c => !Text.isBlank c) rest
    rw [member] at stopped
    simpa using stopped
  · intro empty
    rw [empty] at letters
    cases first : rest with
    | nil => rfl
    | cons c others =>
        -- What is left after the blanks does not start with one, so it starts with a word.
        have solid := List.head?_dropWhile_not Text.isBlank text.toList
        rw [show text.toList.dropWhile Text.isBlank = c :: others from first] at solid
        rw [first, List.takeWhile_cons_of_pos (by simpa using solid)] at letters
        cases letters

theorem FirstWord.eq {text word : String} (first : FirstWord text word) : Text.firstWord text = word := by
  obtain ⟨before, after, same, blanks, solid, next, whole⟩ := first
  have kept : (word.toList ++ after).dropWhile Text.isBlank = word.toList ++ after := by
    cases letters : word.toList with
    | nil =>
        rw [whole (String.toList_eq_nil_iff.mp letters)]
        rfl
    | cons c rest =>
        have notBlank : ¬Text.isBlank c = true := by
          rw [solid c (letters ▸ List.mem_cons_self)]
          exact Bool.false_ne_true
        exact List.dropWhile_cons_of_neg notBlank
  rw [Text.firstWord, same, List.append_assoc, List.dropWhile_append_of_pos blanks, kept, takeWhile_eq,
    String.ofList_toList]
  · intro c member
    rw [solid c member]
    rfl
  · intro c member
    rw [next c member]
    rfl

theorem firstWord_eq_iff {text word : String} : Text.firstWord text = word ↔ FirstWord text word :=
  ⟨fun same => same ▸ firstWord_firstWord text, FirstWord.eq⟩

/-- A function header, or the site of an assignment, be it a statement or the start of a loop. -/
inductive Landmark where
  | header (entry : Entry)
  | site (name : String) (value : Node)

namespace Landmark

def header? : Landmark → Option Entry
  | .header entry => some entry
  | .site .. => none

/-- The last function header, wherever the body of that function ends. -/
def nearest (before : List Landmark) : Option Entry := (before.filterMap header?).getLast?

/-- What the last function header declares for a name: nothing if it has no such parameter or if there is no
header, and otherwise the type of the parameter, if it has one. -/
def declared (before : List Landmark) (name : String) : Option (Option String) :=
  (nearest before).bind (·.type? name)

/-- An assignment may stand after these landmarks. -/
def Stands (before : List Landmark) (name : String) (value : Node) : Prop :=
  ∃ type, declared before name = some type ∧
    ∀ expected ∈ type, ∃ text, value.value = .ok text ∧ FirstWord text expected

/-- Why an assignment may not stand after these landmarks. -/
inductive Refused (before : List Landmark) (name : String) (value : Node) : Fault → Prop
  | undeclared : declared before name = none → Refused before name value (.undeclared name)
  | typeMismatch {expected text word} : declared before name = some (some expected) → value.value = .ok text →
      FirstWord text word → word ≠ expected → Refused before name value (.typeMismatch name expected word)

theorem Refused.not_stands {before : List Landmark} {name : String} {value : Node} {fault : Fault}
    (refused : Refused before name value fault) : ¬Stands before name value := by
  rintro ⟨type, found, fits⟩
  cases refused with
  | undeclared missing => cases missing.symm.trans found
  | typeMismatch mismatched rendered first other =>
      cases mismatched.symm.trans found
      obtain ⟨text, shown, expected⟩ := fits _ rfl
      cases rendered.symm.trans shown
      exact other (first.eq.symm.trans expected.eq)

theorem Refused.code {before : List Landmark} {name : String} {value : Node} {fault : Fault}
    (refused : Refused before name value fault) :
    fault.complaint.code = if declared before name = none then "E_SCOPE" else "E_TYPE" := by
  cases refused with
  | undeclared missing =>
      rw [if_pos missing]
      rfl
  | typeMismatch mismatched =>
      rw [mismatched]
      rfl

/-- Each site may stand after the landmarks before it. -/
def AllStand (landmarks : List Landmark) : Prop :=
  ∀ before name value after, landmarks = before ++ .site name value :: after → Stands before name value

def step : Landmark → Step
  | .header entry => .enter entry.name entry.parameters
  | .site name value => .assign name value.value

end Landmark

namespace Node

def startLandmarks : Node → List Landmark
  | .assignment name value => [.site name value]
  | _ => []

mutual

/-- The landmarks of a tree, in document order. -/
def landmarks : Node → List Landmark
  | .program body => allLandmarks body
  | .function name parameters body => .header ⟨name, parameters⟩ :: allLandmarks body
  | .classType _ members => memberLandmarks members
  | .assignment name value => [.site name value]
  | .conditional _ body none => allLandmarks body
  | .conditional _ body (some otherwise) => allLandmarks body ++ allLandmarks otherwise
  | .whileLoop _ body => allLandmarks body
  | .forLoop start _ _ body => start.startLandmarks ++ allLandmarks body
  | .attempt body handler => allLandmarks body ++ allLandmarks handler
  | .returning _ | .literal _ | .binary .. | .identifier _ | .array _ | .tuple _ | .enumeration .. | .record .. => []

def allLandmarks : List Node → List Landmark
  | [] => []
  | node :: rest => node.landmarks ++ allLandmarks rest

def memberLandmarks : List Member → List Landmark
  | [] => []
  | .property .. :: rest => memberLandmarks rest
  | .method declared :: rest => (if declared.isFunction then declared.landmarks else []) ++ memberLandmarks rest

end

end Node

/-- The step reads the bindings or replaces them. -/
def Step.usesBindings : Step → Bool
  | .write _ => false
  | .enter .. => true
  | .assign .. => true

/-- But for the lines to write, the steps are those of the landmarks. -/
def Marked (steps : List Step) (landmarks : List Landmark) : Prop :=
  steps.filter Step.usesBindings = landmarks.map Landmark.step

namespace Marked

variable {steps others : List Step} {landmarks more : List Landmark}

theorem nil : Marked [] [] := rfl

theorem append (marked : Marked steps landmarks) (markedOthers : Marked others more) :
    Marked (steps ++ others) (landmarks ++ more) := by
  rw [Marked, List.filter_append, List.map_append, marked, markedOthers]

theorem write (line : Except Fault String) (marked : Marked steps landmarks) :
    Marked (.write line :: steps) landmarks := marked

theorem mark (landmark : Landmark) (marked : Marked steps landmarks) :
    Marked (landmark.step :: steps) (landmark :: landmarks) := by
  have used : landmark.step.usesBindings = true := by
    cases landmark with
    | header => rfl
    | site => rfl
  rw [Marked, List.filter_cons_of_pos used, List.map_cons, marked]

theorem inBraces (head : Except Fault String) (marked : Marked steps landmarks) :
    Marked (inBraces head steps) landmarks := by
  have closed := marked.append (write (.ok "\x7d") nil)
  rw [List.append_nil] at closed
  exact closed

theorem writes {α : Type} (items : List α) (line : α → String) :
    Marked (items.map fun item => Step.write (.ok (line item))) [] := by
  simp [Marked, Step.usesBindings]

end Marked

namespace Node

theorem startSteps_marked (start : Node) : Marked start.startSteps start.startLandmarks := by
  cases start with
  | assignment name value => exact .mark (.site name value) .nil
  | _ => exact .nil

mutual

theorem steps_marked : (node : Node) → Marked node.steps node.landmarks
  | .program body => allSteps_marked body
  | .function name parameters body => .inBraces _ (.mark (.header ⟨name, parameters⟩) (allSteps_marked body))
  | .classType name members => .inBraces _ (memberSteps_marked members)
  | .assignment name value => .mark (.site name value) (.write _ .nil)
  | .conditional condition body none => by
      rw [steps, landmarks, List.append_nil]
      exact .inBraces _ (allSteps_marked body)
  | .conditional condition body (some []) => by
      rw [steps, landmarks]
      exact (Marked.inBraces _ (allSteps_marked body)).append .nil
  | .conditional condition body (some (first :: rest)) => by
      rw [steps, landmarks]
      exact (Marked.inBraces _ (allSteps_marked body)).append
        (.inBraces _ ((steps_marked first).append (allSteps_marked rest)))
  | .whileLoop condition body => .inBraces _ (allSteps_marked body)
  | .forLoop start condition increment body => start.startSteps_marked.append (.inBraces _ (allSteps_marked body))
  | .attempt body handler => .write _ ((allSteps_marked body).append (.inBraces _ (allSteps_marked handler)))
  | .enumeration name values => .inBraces _ (.writes values _)
  | .record name fields => .inBraces _ (.writes fields _)
  | .returning _ | .literal _ | .binary .. | .identifier _ | .array _ | .tuple _ => .write _ .nil

theorem allSteps_marked : (nodes : List Node) → Marked (allSteps nodes) (allLandmarks nodes)
  | [] => .nil
  | node :: rest => (steps_marked node).append (allSteps_marked rest)

theorem memberSteps_marked : (members : List Member) → Marked (memberSteps members) (memberLandmarks members)
  | [] => .nil
  | .property type name value :: rest => .write _ (memberSteps_marked rest)
  | .method declared :: rest => by
      rw [memberSteps, memberLandmarks]
      refine .append ?_ (memberSteps_marked rest)
      split
      · exact steps_marked declared
      · exact .write _ .nil

end

end Node

namespace Marked

variable {steps done later : List Step} {landmarks before after : List Landmark} {name : String} {value : Node}

/-- A check among the steps is that of a site among the landmarks. -/
theorem site_of_assign {text : Except Fault String} (marked : Marked (done ++ .assign name text :: later) landmarks) :
    ∃ before value after, landmarks = before ++ .site name value :: after ∧ value.value = text ∧
      Marked done before := by
  rw [Marked, List.filter_append, List.filter_cons_of_pos rfl] at marked
  obtain ⟨before, rest, rfl, first, second⟩ := List.map_eq_append_iff.mp marked.symm
  obtain ⟨landmark, after, rfl, same, others⟩ := List.map_eq_cons_iff.mp second
  cases landmark with
  | header entry => cases same
  | site name value =>
      cases same
      exact ⟨before, value, after, rfl, rfl, first.symm⟩

/-- A site among the landmarks is checked by one of the steps. -/
theorem assign_of_site (marked : Marked steps (before ++ .site name value :: after)) :
    ∃ done later, steps = done ++ .assign name value.value :: later ∧ Marked done before := by
  rw [Marked, List.map_append, List.map_cons, List.filter_eq_append_iff] at marked
  obtain ⟨done, rest, rfl, first, second⟩ := marked
  obtain ⟨writes, later, rfl, unused, -, -⟩ := List.filter_eq_cons_iff.mp second
  refine ⟨done ++ writes, later, (List.append_assoc ..).symm, ?_⟩
  rw [Marked, List.filter_append, first, List.filter_eq_nil_iff.mpr unused, List.append_nil]

theorem entries_eq (marked : Marked steps landmarks) :
    steps.filterMap Step.entry? = landmarks.filterMap Landmark.header? :=
  calc
    steps.filterMap Step.entry? = (steps.filter Step.usesBindings).filterMap Step.entry? := by
      rw [List.filterMap_filter]
      congr 1
      funext step
      cases step <;> rfl
    _ = (landmarks.map Landmark.step).filterMap Step.entry? := by rw [marked]
    _ = landmarks.filterMap Landmark.header? := by
      rw [List.filterMap_map]
      congr 1
      funext landmark
      cases landmark <;> rfl

/-- After steps that succeed, the bindings are what the last header before declares. -/
theorem get?_bindings (marked : Marked done before) (finished : (Step.runAll done .empty).fault = none)
    (name : String) : (Step.runAll done .empty).bindings.get? name = Landmark.declared before name := by
  rw [Step.runAll_bindings, Step.entries, Step.performed_eq_self finished, marked.entries_eq, Entry.last,
    Landmark.declared, Landmark.nearest]
  cases (before.filterMap Landmark.header?).getLast? with
  | none => rfl
  | some entry => exact entry.get?_bindings name

end Marked

section

variable {before : List Landmark} {bindings : Bindings} {name : String} {value : Node} {fault : Fault}

/-- A check finds out whether the site may stand, if the bindings are what the last header declares. -/
theorem checkAssignment_ok_iff_stands (agree : bindings.get? name = Landmark.declared before name)
    (isText : ∃ text, value.value = .ok text) :
    (∃ next, checkAssignment bindings name value.value = .ok next) ↔ Landmark.Stands before name value := by
  obtain ⟨text, rendered⟩ := isText
  simp only [rendered, checkAssignment_eq, agree, Landmark.Stands, Except.ok.injEq, exists_eq_left', ← firstWord_eq_iff]
  rcases Landmark.declared before name with _ | _ | expected
  · simp
  · simp
  · by_cases same : expected = Text.firstWord text
    · simp [← same]
    · simp [same, Ne.symm same]

/-- A check that fails gives the reason why the site may not stand. -/
theorem checkAssignment_error_iff_refused (agree : bindings.get? name = Landmark.declared before name)
    (isText : ∃ text, value.value = .ok text) :
    checkAssignment bindings name value.value = .error fault ↔ Landmark.Refused before name value fault := by
  obtain ⟨text, rendered⟩ := isText
  rw [rendered, checkAssignment_eq, agree]
  constructor
  · intro refused
    split at refused
    · rename_i missing
      cases refused
      exact .undeclared missing
    · cases refused
    · rename_i expected found
      split at refused
      · cases refused
      · rename_i other
        cases refused
        exact .typeMismatch found rendered (firstWord_firstWord text) (Ne.symm other)
  · intro refused
    cases refused with
    | undeclared missing => rw [missing]
    | typeMismatch found shown first other =>
        rw [rendered] at shown
        cases shown
        simp only [found, first.eq, if_neg (Ne.symm other)]

end

namespace Marked

variable {steps : List Step} {landmarks : List Landmark} {fault : Fault}

/-- The step that stops a run checks a site, which is refused. -/
theorem stopped (marked : Marked steps landmarks) (clean : Step.AllClean steps)
    (stops : (Step.runAll steps .empty).fault = some fault) :
    ∃ done before name value after, landmarks = before ++ .site name value :: after ∧ Marked done before ∧
      Step.AllClean done ∧ (Step.runAll done .empty).fault = none ∧ Landmark.Refused before name value fault := by
  obtain ⟨done, step, later, rfl, finished, failed⟩ := Step.fault_eq_some_iff.mp stops
  obtain ⟨cleanDone, cleanRest⟩ := List.forall_mem_append.mp clean
  have isClean : step.Clean := cleanRest step List.mem_cons_self
  cases step with
  | write line =>
      obtain ⟨text, rfl⟩ := isClean
      cases failed
  | enter name parameters => cases failed
  | assign name text =>
      obtain ⟨before, value, after, rfl, rfl, markedDone⟩ := marked.site_of_assign
      refine ⟨done, before, name, value, after, rfl, markedDone, cleanDone, finished, ?_⟩
      exact (checkAssignment_error_iff_refused (markedDone.get?_bindings finished name) isClean).mp failed

/-- The steps before the check of a site, and the text of its value. -/
theorem reached {before after : List Landmark} {name : String} {value : Node}
    (marked : Marked steps (before ++ .site name value :: after)) (clean : Step.AllClean steps) :
    ∃ done later, steps = done ++ .assign name value.value :: later ∧ Marked done before ∧ Step.AllClean done ∧
      ∃ text, value.value = .ok text := by
  obtain ⟨done, later, rfl, markedDone⟩ := marked.assign_of_site
  obtain ⟨cleanDone, cleanRest⟩ := List.forall_mem_append.mp clean
  exact ⟨done, later, rfl, markedDone, cleanDone, cleanRest _ List.mem_cons_self⟩

theorem finished_iff (marked : Marked steps landmarks) (clean : Step.AllClean steps) :
    (Step.runAll steps .empty).fault = none ↔ Landmark.AllStand landmarks := by
  constructor
  · rintro finished before name value after rfl
    obtain ⟨done, later, rfl, markedDone, -, isText⟩ := marked.reached clean
    obtain ⟨finishedDone, finishedRest⟩ := Step.finished_append finished
    refine (checkAssignment_ok_iff_stands (markedDone.get?_bindings finishedDone name) isText).mp ?_
    cases checked : checkAssignment (Step.runAll done .empty).bindings name value.value with
    | ok next => exact ⟨next, rfl⟩
    | error fault =>
        rw [Step.runAll, checked] at finishedRest
        cases finishedRest
  · intro allStand
    by_contra unfinished
    obtain ⟨fault, stops⟩ := Option.ne_none_iff_exists'.mp unfinished
    obtain ⟨done, before, name, value, after, rfl, -, -, -, refused⟩ := marked.stopped clean stops
    exact refused.not_stands (allStand before name value after rfl)

theorem fault_iff (marked : Marked steps landmarks) (clean : Step.AllClean steps) :
    (Step.runAll steps .empty).fault = some fault ↔
      ∃ before name value after, landmarks = before ++ .site name value :: after ∧ Landmark.AllStand before ∧
        Landmark.Refused before name value fault := by
  constructor
  · intro stops
    obtain ⟨done, before, name, value, after, same, markedDone, cleanDone, finished, refused⟩ :=
      marked.stopped clean stops
    exact ⟨before, name, value, after, same, (markedDone.finished_iff cleanDone).mp finished, refused⟩
  · rintro ⟨before, name, value, after, rfl, allStand, refused⟩
    obtain ⟨done, later, rfl, markedDone, cleanDone, isText⟩ := marked.reached clean
    have finished := (markedDone.finished_iff cleanDone).mpr allStand
    refine Step.fault_eq_some_iff.mpr ⟨done, _, later, rfl, finished, ?_⟩
    exact (checkAssignment_error_iff_refused (markedDone.get?_bindings finished name) isText).mpr refused

end Marked

theorem generate_eq (node : Node) :
    generate node =
      match (Step.runAll node.steps .empty).fault with
      | none => .ok (Step.runAll node.steps .empty).lines
      | some fault => .error fault := by
  rw [generate, Writer.write, Writer.initial]
  cases (Step.runAll node.steps .empty).fault with
  | none => simp
  | some fault => simp

/-- What was read can be written if and only if each assignment goes to a parameter of the last function header before
it and, where that parameter has a type, the first word of the value is the type. Otherwise writing stops at the
first assignment of which this is not so. -/
theorem generate_of_landmarks {tokens : List Token} {program : Node} (parsed : parse tokens = .ok program) :
    ((∃ lines, generate program = .ok lines) ↔ Landmark.AllStand program.landmarks) ∧
    ∀ fault, generate program = .error fault ↔
      ∃ before name value after, program.landmarks = before ++ .site name value :: after ∧
        Landmark.AllStand before ∧ Landmark.Refused before name value fault ∧
        fault.complaint.code = if Landmark.declared before name = none then "E_SCOPE" else "E_TYPE" := by
  have clean := (parse_shaped parsed).steps_clean
  rw [← program.steps_marked.finished_iff clean, generate_eq]
  constructor
  · cases (Step.runAll program.steps .empty).fault with
    | none => simp
    | some fault => simp
  · intro fault
    calc
      _ ↔ (Step.runAll program.steps .empty).fault = some fault := by
        cases (Step.runAll program.steps .empty).fault with
        | none => simp
        | some found => simp
      _ ↔ _ := program.steps_marked.fault_iff clean
      _ ↔ _ := by
        constructor
        · intro ⟨before, name, value, after, same, allStand, refused⟩
          exact ⟨before, name, value, after, same, allStand, refused, refused.code⟩
        · intro ⟨before, name, value, after, same, allStand, refused, _⟩
          exact ⟨before, name, value, after, same, allStand, refused⟩

/-- The parameter `a` of the method stays bound in the loop after the class, with the type of the second `a`. -/
def methodSource : String :=
  "class C \x7b function g(a : int, a : string) \x7b a = \"string s\"; \x7d \x7d for (a = 12; a; a) \x7b b = 2; \x7d"

def methodProgram : Node := .program [
  .classType "C" [.method (.function "g" [⟨"a", some "int"⟩, ⟨"a", some "string"⟩]
    [.assignment "a" (.literal (.text "string s"))])],
  .forLoop (.assignment "a" (.literal (.integer 12))) (.identifier "a") (.identifier "a")
    [.assignment "b" (.literal (.integer 2))]]

def methodTokens : List Token := [
  ⟨.keyword, "class", ⟨1, 1⟩⟩, ⟨.identifier, "C", ⟨1, 7⟩⟩, ⟨.delimiter, "\x7b", ⟨1, 9⟩⟩,
  ⟨.keyword, "function", ⟨1, 11⟩⟩, ⟨.identifier, "g", ⟨1, 20⟩⟩, ⟨.tupleStart, "(", ⟨1, 21⟩⟩,
  ⟨.identifier, "a", ⟨1, 22⟩⟩, ⟨.colon, ":", ⟨1, 24⟩⟩, ⟨.dataType, "int", ⟨1, 26⟩⟩, ⟨.comma, ",", ⟨1, 29⟩⟩,
  ⟨.identifier, "a", ⟨1, 31⟩⟩, ⟨.colon, ":", ⟨1, 33⟩⟩, ⟨.dataType, "string", ⟨1, 35⟩⟩,
  ⟨.tupleEnd, ")", ⟨1, 41⟩⟩, ⟨.delimiter, "\x7b", ⟨1, 43⟩⟩, ⟨.identifier, "a", ⟨1, 45⟩⟩,
  ⟨.assignment, "=", ⟨1, 47⟩⟩, ⟨.text, "\"string s\"", ⟨1, 49⟩⟩, ⟨.delimiter, ";", ⟨1, 59⟩⟩,
  ⟨.delimiter, "\x7d", ⟨1, 61⟩⟩, ⟨.delimiter, "\x7d", ⟨1, 63⟩⟩, ⟨.keyword, "for", ⟨1, 65⟩⟩,
  ⟨.tupleStart, "(", ⟨1, 69⟩⟩, ⟨.identifier, "a", ⟨1, 70⟩⟩, ⟨.assignment, "=", ⟨1, 72⟩⟩,
  ⟨.number, "12", ⟨1, 74⟩⟩, ⟨.delimiter, ";", ⟨1, 76⟩⟩, ⟨.identifier, "a", ⟨1, 78⟩⟩, ⟨.delimiter, ";", ⟨1, 79⟩⟩,
  ⟨.identifier, "a", ⟨1, 81⟩⟩, ⟨.tupleEnd, ")", ⟨1, 82⟩⟩, ⟨.delimiter, "\x7b", ⟨1, 84⟩⟩,
  ⟨.identifier, "b", ⟨1, 86⟩⟩, ⟨.assignment, "=", ⟨1, 88⟩⟩, ⟨.number, "2", ⟨1, 90⟩⟩, ⟨.delimiter, ";", ⟨1, 91⟩⟩,
  ⟨.delimiter, "\x7d", ⟨1, 93⟩⟩]

theorem tokensOf_methodSource : tokensOf methodSource = methodTokens := by decide +kernel

theorem parse_methodTokens : parse methodTokens = .ok methodProgram := rfl

/-- Writing stops at the start of the loop, and the assignment to `b` behind it is not looked at. -/
theorem generate_of_landmarks_method :
    parse methodTokens = .ok methodProgram ∧
    generate methodProgram = .error (.typeMismatch "a" "string" "12") ∧
    ∃ before name value after, methodProgram.landmarks = before ++ .site name value :: after ∧
      Landmark.AllStand before ∧ Landmark.Refused before name value (.typeMismatch "a" "string" "12") ∧
      ¬Landmark.AllStand methodProgram.landmarks := by
  have stops : generate methodProgram = .error (.typeMismatch "a" "string" "12") := rfl
  obtain ⟨writable, faults⟩ := generate_of_landmarks parse_methodTokens
  obtain ⟨before, name, value, after, same, allStand, refused, -⟩ := (faults _).mp stops
  refine ⟨parse_methodTokens, stops, before, name, value, after, same, allStand, refused, ?_⟩
  rw [← writable, stops]
  intro ⟨lines, written⟩
  cases written

end BraceCompiler
