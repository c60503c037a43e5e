import BraceCompiler.Proofs.Table
import BraceCompiler.Proofs.Target.Lines
import Mathlib.Data.List.Induction

/-! The bindings of a writer. Whatever it has written or failed to write, they are the parameters of the
function that it entered last: assignments check them and never change them. -/

namespace BraceCompiler

structure Entry where
  name : String
  parameters : List Parameter
  deriving DecidableEq, Repr

namespace Entry

/-- The names that may be assigned to inside the function. -/
def bindings (entry : Entry) : Bindings := .ofParameters entry.parameters

def note (entry : Entry) : Notice := .functionEntered entry.name entry.parameters.length

/-- The declared type of a parameter, if there is a parameter of that name; of two the later counts. -/
def type? (entry : Entry) (name : String) : Option (Option String) :=
  (entry.parameters.reverse.find? (·.name == name)).map Parameter.type

/-- The bindings after some functions have been entered one after the other. -/
def last (start : Bindings) (entries : List Entry) : Bindings := entries.getLast?.elim start bindings

theorem last_append (start : Bindings) (entries others : List Entry) :
    last start (entries ++ others) = last (last start entries) others := by
  simp only [last, List.getLast?_append]
  cases others.getLast? with
  | none => rfl
  | some entry => rfl

end Entry

theorem Entry.get?_bindings (entry : Entry) (name : String) :
    entry.bindings.get? name = entry.type? name := by
  obtain ⟨function, parameters⟩ := entry
  -- Each parameter is put in on top of those before it, so the induction takes the last one off.
  induction parameters using List.reverseRecOn with
  | nil => rfl
  | append_singleton parameters parameter ih =>
      simp only [Entry.bindings, Bindings.ofParameters, Entry.type?, List.foldl_append, List.foldl_cons,
        List.foldl_nil, Bindings.bind, Table.get?_insert, List.reverse_append, List.reverse_cons,
        List.reverse_nil, List.nil_append, List.singleton_append, List.find?_cons] at ih ⊢
      by_cases same : name = parameter.name
      · simp [same]
      · rw [if_neg same, ih, beq_false_of_ne (Ne.symm same)]

/-- An assignment that passes its checks puts back the binding that it found. -/
theorem checkAssignment_eq_ok {bindings next : Bindings} {name : String} {value : Except Fault String}
    (passed : checkAssignment bindings name value = .ok next) : next = bindings := by
  rw [checkAssignment] at passed
  cases found : bindings.get? name with
  | none => simp [found] at passed
  | some type =>
      have kept : bindings.bind name type = bindings := Table.insert_of_get? found
      cases value with
      | error fault => simp [found, bind, Except.bind] at passed
      | ok text =>
          cases type with
          | none =>
              simp only [found, bind, Except.bind, pure, Except.pure, Except.ok.injEq] at passed
              rw [← passed, kept]
          | some expected =>
              simp only [found, bind, Except.bind, pure, Except.pure] at passed
              split at passed
              · cases passed
                exact kept
              · cases passed

namespace Step

/-- The bindings after one step, or the fault that stops it. -/
def perform (step : Step) (bindings : Bindings) : Except Fault Bindings :=
  match step with
  | .write line => line.map fun _ => bindings
  | .enter _ parameters => .ok (.ofParameters parameters)
  | .assign name value => checkAssignment bindings name value

def entry? : Step → Option Entry
  | .enter name parameters => some ⟨name, parameters⟩
  | _ => none

/-- A step changes the bindings only by entering a function. -/
theorem perform_eq_ok {step : Step} {bindings next : Bindings} (done : step.perform bindings = .ok next) :
    next = Entry.last bindings step.entry?.toList := by
  cases step with
  | write line =>
      cases line with
      | error fault => cases done
      | ok line => cases done; rfl
  | enter name parameters => cases done; rfl
  | assign name value => exact checkAssignment_eq_ok done

/-- The steps that a run carries out: those before the first that fails. -/
def performed : List Step → Bindings → List Step
  | [], _ => []
  | step :: rest, bindings =>
    match step.perform bindings with
    | .ok next => step :: performed rest next
    | .error _ => []

def entries (steps : List Step) (bindings : Bindings) : List Entry :=
  (performed steps bindings).filterMap entry?

theorem runAll_of_ok {step : Step} {bindings next : Bindings} (rest : List Step)
    (done : step.perform bindings = .ok next) :
    runAll (step :: rest) bindings =
      { runAll rest next with
        lines := step.line?.toList ++ (runAll rest next).lines
        notes := (step.entry?.map Entry.note).toList ++ (runAll rest next).notes } := by
  cases step with
  | write line =>
      cases line with
      | error fault => cases done
      | ok line => cases done; rfl
  | enter name parameters => cases done; rfl
  | assign name value =>
      have passed : checkAssignment bindings name value = .ok next := done
      rw [runAll, passed]
      rfl

theorem runAll_of_error {step : Step} {bindings : Bindings} {fault : Fault} (rest : List Step)
    (failed : step.perform bindings = .error fault) :
    runAll (step :: rest) bindings = ⟨[], bindings, [], some fault⟩ := by
  cases step with
  | write line =>
      cases line with
      | error fault => cases failed; rfl
      | ok line => cases failed
  | enter name parameters => cases failed
  | assign name value =>
      have refused : checkAssignment bindings name value = .error fault := failed
      rw [runAll, refused]

theorem entries_of_ok {step : Step} {bindings next : Bindings} (rest : List Step)
    (done : step.perform bindings = .ok next) :
    entries (step :: rest) bindings = step.entry?.toList ++ entries rest next := by
  rw [entries, performed, done]
  simp only [List.filterMap_cons, entries]
  cases step.entry? <;> rfl

theorem entries_of_error {step : Step} {bindings : Bindings} {fault : Fault} (rest : List Step)
    (failed : step.perform bindings = .error fault) : entries (step :: rest) bindings = [] := by
  rw [entries, performed, failed]
  rfl

/-- After a run, finished or not, the bindings are those of the function entered last. -/
theorem runAll_bindings (steps : List Step) (bindings : Bindings) :
    (runAll steps bindings).bindings = Entry.last bindings (entries steps bindings) := by
  induction steps generalizing bindings with
  | nil => rfl
  | cons step rest ih =>
      cases outcome : step.perform bindings with
      | error fault => rw [runAll_of_error rest outcome, entries_of_error rest outcome]; rfl
      | ok next =>
          rw [runAll_of_ok rest outcome, entries_of_ok rest outcome, Entry.last_append,
            ← perform_eq_ok outcome]
          exact ih next

/-- A run gives one note for each function that it enters, and no other. -/
theorem runAll_notes_eq (steps : List Step) (bindings : Bindings) :
    (runAll steps bindings).notes = (entries steps bindings).map Entry.note := by
  induction steps generalizing bindings with
  | nil => rfl
  | cons step rest ih =>
      cases outcome : step.perform bindings with
      | error fault => rw [runAll_of_error rest outcome, entries_of_error rest outcome]; rfl
      | ok next =>
          rw [runAll_of_ok rest outcome, entries_of_ok rest outcome, List.map_append, ← ih next]
          cases step.entry? <;> rfl

theorem performed_prefix (steps : List Step) (bindings : Bindings) : performed steps bindings <+: steps := by
  induction steps generalizing bindings with
  | nil => exact List.prefix_rfl
  | cons step rest ih =>
      rw [performed]
      split
      · exact (List.prefix_cons_inj step).mpr (ih _)
      · exact List.nil_prefix

theorem performed_eq_self {steps : List Step} {bindings : Bindings}
    (finished : (runAll steps bindings).fault = none) : performed steps bindings = steps := by
  induction steps generalizing bindings with
  | nil => rfl
  | cons step rest ih =>
      cases outcome : step.perform bindings with
      | error fault => rw [runAll_of_error rest outcome] at finished; cases finished
      | ok next =>
          rw [runAll_of_ok rest outcome] at finished
          simp only [performed, outcome, ih finished]

/-- A run over two lists stops where the first one stops, and otherwise goes on with the second. -/
theorem fault_append (steps others : List Step) (bindings : Bindings) :
    (runAll (steps ++ others) bindings).fault =
      (runAll steps bindings).fault.or (runAll others (runAll steps bindings).bindings).fault := by
  induction steps generalizing bindings with
  | nil => rfl
  | cons step rest ih =>
      rw [List.cons_append]
      cases outcome : step.perform bindings with
      | error fault => rw [runAll_of_error _ outcome, runAll_of_error _ outcome, Option.some_or]
      | ok next =>
          rw [runAll_of_ok _ outcome, runAll_of_ok _ outcome]
          exact ih next

/-- A run over two lists that comes to its end does so over each of them. -/
theorem finished_append {steps others : List Step} {bindings : Bindings}
    (finished : (runAll (steps ++ others) bindings).fault = none) :
    (runAll steps bindings).fault = none ∧
      (runAll others (runAll steps bindings).bindings).fault = none := by
  rwa [fault_append, Option.or_eq_none_iff] at finished

/-- A run stops at the first step that fails: all before it succeed. -/
theorem fault_eq_some_iff {steps : List Step} {bindings : Bindings} {fault : Fault} :
    (runAll steps bindings).fault = some fault ↔ ∃ done step later, steps = done ++ step :: later ∧
      (runAll done bindings).fault = none ∧ step.perform (runAll done bindings).bindings = .error fault := by
  constructor
  · intro stopped
    induction steps generalizing bindings with
    | nil => cases stopped
    | cons step rest ih =>
        cases outcome : step.perform bindings with
        | error found =>
            rw [runAll_of_error rest outcome] at stopped
            cases stopped
            exact ⟨[], step, rest, rfl, rfl, outcome⟩
        | ok next =>
            rw [runAll_of_ok rest outcome] at stopped
            obtain ⟨done, failing, later, rfl, finished, failed⟩ := ih stopped
            refine ⟨step :: done, failing, later, rfl, ?_⟩
            rw [runAll_of_ok done outcome]
            exact ⟨finished, failed⟩
  · rintro ⟨done, step, later, rfl, finished, failed⟩
    rw [fault_append, finished, Option.none_or, runAll_of_error later failed]

end Step

namespace Node

mutual

/-- The functions of a tree in the order in which a writer comes to them: each before those in its body.
None is looked for inside an expression or the start of a loop. -/
def functions : Node → List Entry
  | .program body => allFunctions body
  | .function name parameters body => ⟨name, parameters⟩ :: allFunctions body
  | .classType _ members => memberFunctions members
  | .conditional _ body none => allFunctions body
  | .conditional _ body (some otherwise) => allFunctions body ++ allFunctions otherwise
  | .whileLoop _ body => allFunctions body
  | .forLoop _ _ _ body => allFunctions body
  | .attempt body handler => allFunctions body ++ allFunctions handler
  | .assignment .. | .returning _ | .literal _ | .binary .. | .identifier _ | .array _ | .tuple _
  | .enumeration .. | .record .. => []

def allFunctions : List Node → List Entry
  | [] => []
  | node :: rest => node.functions ++ allFunctions rest

/-- Only a method that is a function is entered. -/
def memberFunctions : List Member → List Entry
  | [] => []
  | .property .. :: rest => memberFunctions rest
  | .method declared :: rest => (if declared.isFunction then declared.functions else []) ++ memberFunctions rest

end

theorem entries_inBraces (head : Except Fault String) (body : List Step) :
    (inBraces head body).filterMap Step.entry? = body.filterMap Step.entry? := by
  rw [inBraces, List.cons_append, List.filterMap_cons, List.filterMap_append]
  exact List.append_nil _

theorem entries_writes {α : Type} (items : List α) (line : α → String) :
    (items.map fun item => Step.write (.ok (line item))).filterMap Step.entry? = [] := by
  simp [Step.entry?]

mutual

/-- The functions that the steps of a tree enter are the functions of the tree. -/
theorem steps_functions : (node : Node) → node.steps.filterMap Step.entry? = node.functions
  | .program body => by rw [steps, functions, allSteps_functions body]
  | .function name parameters body => by
      rw [steps, functions, entries_inBraces, List.filterMap_cons, allSteps_functions body]
      rfl
  | .classType name members => by rw [steps, functions, entries_inBraces, memberSteps_functions members]
  | .conditional condition body none => by
      rw [steps, functions, List.append_nil, entries_inBraces, allSteps_functions body]
  | .conditional condition body (some []) => by
      rw [steps, functions, List.append_nil, entries_inBraces, allSteps_functions body, allFunctions,
        List.append_nil]
  | .conditional condition body (some (first :: rest)) => by
      rw [steps, functions, List.filterMap_append, entries_inBraces, entries_inBraces, List.filterMap_append,
        allSteps_functions body, steps_functions first, allSteps_functions rest, allFunctions]
  | .whileLoop condition body => by rw [steps, functions, entries_inBraces, allSteps_functions body]
  | .forLoop start condition increment body => by
      have unentered : start.startSteps.filterMap Step.entry? = [] := by cases start <;> rfl
      rw [steps, functions, List.filterMap_append, entries_inBraces, unentered, allSteps_functions body]
      rfl
  | .attempt body handler => by
      rw [steps, functions, List.cons_append, List.filterMap_cons, List.filterMap_append, entries_inBraces,
        allSteps_functions body, allSteps_functions handler]
      rfl
  | .enumeration name values => by rw [steps, functions, entries_inBraces, entries_writes]
  | .record name fields => by rw [steps, functions, entries_inBraces, entries_writes]
  | .assignment .. | .returning _ | .literal _ | .binary .. | .identifier _ | .array _ | .tuple _ => rfl

theorem allSteps_functions : (nodes : List Node) → (allSteps nodes).filterMap Step.entry? = allFunctions nodes
  | [] => rfl
  | node :: rest => by
      rw [allSteps, allFunctions, List.filterMap_append, steps_functions node, allSteps_functions rest]

theorem memberSteps_functions :
    (members : List Member) → (memberSteps members).filterMap Step.entry? = memberFunctions members
  | [] => rfl
  | .property type name value :: rest => by
      rw [memberSteps, memberFunctions, List.filterMap_cons, memberSteps_functions rest]
      rfl
  | .method declared :: rest => by
      rw [memberSteps, memberFunctions, List.filterMap_append, memberSteps_functions rest]
      split
      · rw [steps_functions declared]
      · rfl

end

end Node

namespace Writer

def entries (writer : Writer) (node : Node) : List Entry := Step.entries node.steps writer.bindings

/-- The writer after some programs, whether they could be written or not. -/
def writeAll (writer : Writer) (nodes : List Node) : Writer :=
  nodes.foldl (fun writer node => (writer.write node).2) writer

/-- The functions entered in some programs, one program after the other. -/
def allEntries (writer : Writer) : List Node → List Entry
  | [] => []
  | node :: rest => writer.entries node ++ (writer.write node).2.allEntries rest

theorem writeAll_bindings (writer : Writer) (nodes : List Node) :
    (writer.writeAll nodes).bindings = Entry.last writer.bindings (writer.allEntries nodes) := by
  induction nodes generalizing writer with
  | nil => rfl
  | cons node rest ih =>
      have step : (writer.write node).2.bindings = Entry.last writer.bindings (writer.entries node) :=
        Step.runAll_bindings node.steps writer.bindings
      rw [allEntries, Entry.last_append, ← step, ← ih]
      rfl

theorem writeAll_notices (writer : Writer) (nodes : List Node) :
    (writer.writeAll nodes).notices = writer.notices ++ (writer.allEntries nodes).map Entry.note := by
  induction nodes generalizing writer with
  | nil => exact (List.append_nil _).symm
  | cons node rest ih =>
      have step : (writer.write node).2.notices = writer.notices ++ (writer.entries node).map Entry.note :=
        congrArg (writer.notices ++ ·) (Step.runAll_notes_eq node.steps writer.bindings)
      rw [allEntries, List.map_append, ← List.append_assoc, ← step, ← ih]
      rfl

/-- The functions entered are the first ones of the program, and all of them if it could be written. -/
theorem entries_functions (writer : Writer) (node : Node) :
    writer.entries node <+: node.functions ∧
      ((writer.write node).1 = none → writer.entries node = node.functions) := by
  rw [← node.steps_functions]
  refine ⟨(Step.performed_prefix _ _).filterMap _, fun finished => ?_⟩
  rw [entries, Step.entries, Step.performed_eq_self finished]

end Writer

theorem withCode_notes (entries : List Entry) :
    Notices.withCode (entries.map Entry.note) "N_FUNCTION_SCOPE" = entries.map Entry.note := by
  rw [Notices.withCode, List.filter_eq_self]
  intro notice member
  obtain ⟨entry, -, rfl⟩ := List.mem_map.mp member
  rfl

/-- After any programs, written or failed, a writer finds for each name what the function entered last
declares for it, and nothing if no function was entered. It gives one note for each function entered. The
functions entered in one program are the first ones of that program, in order, and no assignment changes the
bindings. -/
theorem bindings_of_last_entered :
    (∀ nodes name, (Writer.initial.writeAll nodes).bindings.get? name =
      (Writer.initial.allEntries nodes).getLast?.bind (·.type? name)) ∧
    (∀ nodes, ((Writer.initial.writeAll nodes).notices.withCode "N_FUNCTION_SCOPE").length =
      (Writer.initial.allEntries nodes).length) ∧
    (∀ writer node, Writer.entries writer node <+: node.functions ∧
      ((writer.write node).1 = none → writer.entries node = node.functions)) ∧
    (∀ bindings name value next, checkAssignment bindings name value = .ok next → next = bindings) := by
  refine ⟨fun nodes name => ?_, fun nodes => ?_, Writer.entries_functions, fun _ _ _ _ => checkAssignment_eq_ok⟩
  · rw [Writer.writeAll_bindings, Entry.last]
    cases (Writer.initial.allEntries nodes).getLast? with
    | none => rfl
    | some entry => exact entry.get?_bindings name
  · have notices := Writer.writeAll_notices Writer.initial nodes
    rw [notices, Writer.initial, List.nil_append, withCode_notes, List.length_map]

/-- A function that declares one name twice and holds another function, whose assignment fails. -/
def nestedFunctions : Node :=
  .function "outer" [⟨"a", some "int"⟩, ⟨"a", none⟩] [
    .assignment "a" (.literal (.integer 1)),
    .function "inner" [⟨"b", some "int"⟩] [.assignment "a" (.literal (.integer 2))]]

def innerAssignment : Node := .assignment "b" (.identifier "int")

/-- The failed program leaves the parameters of the inner function behind; a later program assigns to one
of them and enters nothing. -/
theorem bindings_of_last_entered_nested :
    (Writer.initial.write nestedFunctions).1 = some (.undeclared "a") ∧
    (Writer.initial.writeAll [nestedFunctions]).bindings.get? "b" = some (some "int") ∧
    (Writer.initial.writeAll [nestedFunctions]).bindings.get? "a" = none ∧
    ((Writer.initial.writeAll [nestedFunctions]).notices.withCode "N_FUNCTION_SCOPE").length = 2 ∧
    ((Writer.initial.writeAll [nestedFunctions]).write innerAssignment).1 = none ∧
    (Writer.initial.writeAll [nestedFunctions]).entries innerAssignment = [] ∧
    ∃ next, checkAssignment (Writer.initial.writeAll [nestedFunctions]).bindings "b" (.ok "int") = .ok next ∧
      next = (Writer.initial.writeAll [nestedFunctions]).bindings := by
  obtain ⟨found, counted, entered, kept⟩ := bindings_of_last_entered
  have both : Writer.initial.allEntries [nestedFunctions] =
      [⟨"outer", [⟨"a", some "int"⟩, ⟨"a", none⟩]⟩, ⟨"inner", [⟨"b", some "int"⟩]⟩] := by decide
  have written : ((Writer.initial.writeAll [nestedFunctions]).write innerAssignment).1 = none := by decide
  refine ⟨by decide, ?_, ?_, ?_, written, (entered _ _).2 written, _, rfl, kept _ "b" (.ok "int") _ rfl⟩
  · rw [found, both]
    rfl
  · rw [found, both]
    rfl
  · rw [counted, both]
    rfl

end BraceCompiler
