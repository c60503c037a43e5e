import BraceCompiler.Proofs.Target.Entries

/-! Writing once more, on the lines of the writer themselves. A visit of a node pushes its lines one by one and changes
bindings and notices as it goes, so a visit that fails leaves all that it has pushed. The call that began it marks the
lines before, and cuts them back to the mark. -/

namespace BraceCompiler

open Step

/-- What a visit does to a writer. -/
abbrev Visit := ExceptT Fault (StateM Writer)

namespace Visit

variable {α β : Type}

def emit (line : String) : Visit Unit :=
  modify fun writer => { writer with lines := writer.lines ++ [line] }

/-- Replaces the bindings by the parameters of a function. -/
def enter (function : String) (parameters : List Parameter) : Visit Unit :=
  modify fun writer =>
    { writer with
      bindings := .ofParameters parameters
      notices := writer.notices ++ [.functionEntered function parameters.length] }

def given (result : Except Fault α) : Visit α := ExceptT.mk (pure result)

def evaluate (node : Node) : Visit String := given node.value

/-- A declared type has to be the first word of the value. -/
def checkType (name : String) (type : Option String) (text : String) : Visit Unit :=
  match type with
  | none => pure ()
  | some expected =>
    let actual := Text.firstWord text
    if expected = actual then pure () else throw (.typeMismatch name expected actual)

/-- The text of a value that passes the checks of its target. -/
def checkedAssignment (name : String) (value : Node) : Visit String := do
  match (← get).bindings.get? name with
  | none => throw (.undeclared name)
  | some type =>
    let text ← evaluate value
    checkType name type text
    modify fun writer => { writer with bindings := writer.bindings.bind name type }
    return text

def block (head : Visit String) (body : Visit Unit) : Visit Unit := do
  emit (blockLine (← head))
  body
  emit "\x7d"

def emitAll (lines : List String) : Visit Unit := lines.forM emit

end Visit

namespace Node

open Visit

/-- The start of a loop, which is checked if it is an assignment. -/
def visitStart : Node → Visit String
  | .assignment name value => do return name ++ " = " ++ (← checkedAssignment name value)
  | node => evaluate node

mutual

def visit : Node → Visit Unit
  | .program body => visitAll body
  | .function name parameters body =>
    block (pure (functionHead name parameters)) do
      enter name parameters
      visitAll body
  | .classType name members => block (pure ("class " ++ name)) (visitMembers members)
  | .assignment name value => do
    let text ← checkedAssignment name value
    emit (name ++ " = " ++ text ++ ";")
  | .conditional condition body otherwise => do
    block (do return "if (" ++ (← evaluate condition) ++ ")") (visitAll body)
    match otherwise with
    | none | some [] => pure ()
    | some (first :: rest) =>
      block (pure "else") do
        first.visit
        visitAll rest
  | .whileLoop condition body =>
    block (do return "while (" ++ (← evaluate condition) ++ ")") (visitAll body)
  | .forLoop start condition increment body =>
    block
      (do
        let start ← start.visitStart
        let condition ← evaluate condition
        let increment ← evaluate increment
        return "for (" ++ start ++ "; " ++ condition ++ "; " ++ increment ++ ")")
      (visitAll body)
  | .returning value => do emit ("return " ++ (← evaluate value) ++ ";")
  | .attempt body handler => do
    emit (blockLine "try")
    visitAll body
    block (pure "\x7d catch (error)") (visitAll handler)
  | .enumeration name values =>
    block (pure ("enum " ++ name)) (emitAll (values.map fun value => "    " ++ value ++ ","))
  | .record name fields =>
    block (pure ("struct " ++ name))
      (emitAll (fields.map fun field => "    " ++ field.name ++ " : " ++ field.type ++ ";"))
  | .literal value => do emit (← given (Node.render (.literal value) .bare))
  | .binary left operator right => do emit (← given (Node.render (.binary left operator right) .bare))
  | .identifier name => do emit (← given (Node.render (.identifier name) .bare))
  | .array elements => do emit (← given (Node.render (.array elements) .bare))
  | .tuple elements => do emit (← given (Node.render (.tuple elements) .bare))

def visitAll : List Node → Visit Unit
  | [] => pure ()
  | node :: rest => do
    node.visit
    visitAll rest

def visitMembers : List Member → Visit Unit
  | [] => pure ()
  | .property type name value :: rest => do
    emit (type ++ " " ++ name ++ " = " ++ (← evaluate value) ++ ";")
    visitMembers rest
  | .method declared :: rest => do
    if declared.isFunction then declared.visit
      else throw (.unknownNode (declared.kindName ++ " (class method)"))
    visitMembers rest

end

end Node

/-- Writes one more program on the lines that are there; the fault, if there is one. -/
def Writer.writeInPlace (writer : Writer) (node : Node) : Option Fault × Writer :=
  let mark := writer.lines.length
  match node.visit writer with
  | (.ok (), after) => (none, after)
  | (.error fault, after) => (some fault, { after with lines := after.lines.take mark })

namespace Step

variable {steps : List Step} {bindings : Bindings}

theorem runAll_append_of_finished (others : List Step) (finished : (runAll steps bindings).fault = none) :
    runAll (steps ++ others) bindings =
      { runAll others (runAll steps bindings).bindings with
        lines := (runAll steps bindings).lines ++ (runAll others (runAll steps bindings).bindings).lines
        notes := (runAll steps bindings).notes ++ (runAll others (runAll steps bindings).bindings).notes } := by
  induction steps generalizing bindings with
  | nil => rfl
  | cons step rest ih =>
      rw [List.cons_append]
      cases done : step.perform bindings with
      | error fault =>
          rw [runAll_of_error rest done] at finished
          cases finished
      | ok next =>
          rw [runAll_of_ok rest done] at finished ⊢
          rw [runAll_of_ok (rest ++ others) done, ih finished]
          simp only [List.append_assoc]

theorem runAll_append_of_fault {fault : Fault} (others : List Step)
    (stopped : (runAll steps bindings).fault = some fault) :
    runAll (steps ++ others) bindings = runAll steps bindings := by
  induction steps generalizing bindings with
  | nil => cases stopped
  | cons step rest ih =>
      rw [List.cons_append]
      cases done : step.perform bindings with
      | error fault => rw [runAll_of_error rest done, runAll_of_error (rest ++ others) done]
      | ok next =>
          rw [runAll_of_ok rest done] at stopped
          rw [runAll_of_ok rest done, runAll_of_ok (rest ++ others) done, ih stopped]

end Step

/-- The writer after what has been carried out, up to a fault if there was one. -/
def Outcome.onto (outcome : Outcome) (writer : Writer) : Writer :=
  ⟨writer.lines ++ outcome.lines, outcome.bindings, writer.notices ++ outcome.notes⟩

namespace Visit

variable {α β : Type}

theorem bind_of_ok {visit : Visit α} {next : α → Visit β} {writer after : Writer} {value : α}
    (ran : visit writer = (.ok value, after)) : (visit >>= next) writer = next value after := by
  change ExceptT.bindCont next (visit writer).1 (visit writer).2 = _
  rw [ran]
  rfl

theorem bind_of_error {visit : Visit α} {next : α → Visit β} {writer after : Writer} {fault : Fault}
    (ran : visit writer = (.error fault, after)) : (visit >>= next) writer = (.error fault, after) := by
  change ExceptT.bindCont next (visit writer).1 (visit writer).2 = _
  rw [ran]
  rfl

theorem checkedAssignment_eq (name : String) (value : Node) (writer : Writer) :
    checkedAssignment name value writer =
      match checkAssignment writer.bindings name value.value with
      | .ok next => (value.value, { writer with bindings := next })
      | .error fault => (.error fault, writer) := by
  have looked : (get : Visit Writer) writer = (.ok writer, writer) := rfl
  rw [checkedAssignment, bind_of_ok looked, checkAssignment]
  unfold evaluate
  cases writer.bindings.get? name with
  | none => rfl
  | some type =>
      cases value.value with
      | error fault => rfl
      | ok text =>
          cases type with
          | none => rfl
          | some expected =>
              have given : (given (.ok text) : Visit String) writer = (.ok text, writer) := rfl
              dsimp only
              rw [bind_of_ok given]
              by_cases same : expected = Text.firstWord text
              · have passed : checkType name (some expected) text writer = (.ok (), writer) := by
                  rw [checkType, if_pos same]
                  rfl
                rw [bind_of_ok passed]
                simp only [bind, Except.bind, if_pos same]
                rfl
              · have refused : checkType name (some expected) text writer =
                    (.error (.typeMismatch name expected (Text.firstWord text)), writer) := by
                  rw [checkType, if_neg same]
                  rfl
                rw [bind_of_error refused]
                simp only [bind, Except.bind, if_neg same]

/-- The visit carries out the steps and then gives the result, unless one of the steps stops it. -/
def CarriesOut (visit : Visit α) (steps : List Step) (result : Except Fault α) : Prop :=
  ∀ writer, visit writer =
    ((runAll steps writer.bindings).fault.elim result .error, (runAll steps writer.bindings).onto writer)

namespace CarriesOut

variable {visit : Visit α} {steps others : List Step} {result : Except Fault α}

theorem given (result : Except Fault α) : CarriesOut (given result) [] result := by
  intro writer
  simp only [runAll, Outcome.onto, List.append_nil]
  rfl

theorem pure (value : α) : CarriesOut (pure value) [] (.ok value) := given (.ok value)

theorem throw (fault : Fault) : CarriesOut (throw fault : Visit α) [.write (.error fault)] result := by
  intro writer
  simp only [runAll, Outcome.onto, List.append_nil]
  rfl

theorem emit (line : String) : CarriesOut (emit line) [.write (.ok line)] (.ok ()) := by
  intro writer
  simp only [runAll, Outcome.onto, List.append_nil]
  rfl

theorem enter (function : String) (parameters : List Parameter) :
    CarriesOut (enter function parameters) [.enter function parameters] (.ok ()) := by
  intro writer
  simp only [runAll, Outcome.onto, List.append_nil]
  rfl

/-- After the steps the visit goes on with its value, or stops with the fault that it has in place of one. -/
theorem bind {next : α → Visit β} {last : Except Fault β} (carries : CarriesOut visit steps result)
    (goesOn : ∀ value, result = .ok value → CarriesOut (next value) others last)
    (stops : ∀ fault, result = .error fault → CarriesOut (MonadExcept.throw fault) others last) :
    CarriesOut (visit >>= next) (steps ++ others) last := by
  intro writer
  have ran := carries writer
  cases stopped : (runAll steps writer.bindings).fault with
  | some fault =>
      rw [stopped] at ran
      rw [runAll_append_of_fault others stopped, bind_of_error ran, stopped]
      rfl
  | none =>
      rw [stopped] at ran
      have later : (visit >>= next) writer =
          ((runAll others (runAll steps writer.bindings).bindings).fault.elim last .error,
            (runAll others (runAll steps writer.bindings).bindings).onto
              ((runAll steps writer.bindings).onto writer)) := by
        cases given : result with
        | ok value =>
            rw [given] at ran
            rw [bind_of_ok ran]
            exact goesOn value given _
        | error fault =>
            rw [given] at ran
            rw [bind_of_error ran]
            exact stops fault given _
      rw [later, runAll_append_of_finished others stopped]
      simp only [Outcome.onto, List.append_assoc]

theorem seq {first : Visit Unit} (carries : CarriesOut first steps (.ok ())) (next : CarriesOut visit others result) :
    CarriesOut (do first; visit) (steps ++ others) result := by
  refine carries.bind (fun _ _ => next) fun fault same => ?_
  cases same

/-- What comes after the value has no steps of its own. -/
theorem andThen {next : α → Visit β} {later : α → Except Fault β} (carries : CarriesOut visit steps result)
    (goesOn : ∀ value, CarriesOut (next value) [] (later value)) :
    CarriesOut (visit >>= next) steps (result >>= later) := by
  have whole : CarriesOut (visit >>= next) (steps ++ []) (result >>= later) := by
    refine carries.bind (fun value same => ?_) fun fault same => ?_
    · rw [same]
      exact goesOn value
    · rw [same]
      exact given (.error fault)
  rwa [List.append_nil] at whole

theorem line {text : Visit String} {result : Except Fault String} (carries : CarriesOut text steps result)
    (make : String → String) :
    CarriesOut (do Visit.emit (make (← text))) (steps ++ [.write (do return make (← result))]) (.ok ()) := by
  refine carries.bind (fun value same => ?_) fun fault same => ?_
  · rw [same]
    exact emit (make value)
  · rw [same]
    exact throw fault

theorem emitted (result : Except Fault String) :
    CarriesOut (do Visit.emit (← Visit.given result)) [.write result] (.ok ()) := by
  refine (given result).bind (fun value same => ?_) fun fault same => ?_
  · rw [same]
    exact emit value
  · rw [same]
    exact throw fault

theorem evaluate (node : Node) : CarriesOut (evaluate node) [] node.value := given node.value

theorem checkedAssignment (name : String) (value : Node) :
    CarriesOut (checkedAssignment name value) [.assign name value.value] value.value := by
  intro writer
  rw [checkedAssignment_eq, runAll]
  cases checkAssignment writer.bindings name value.value with
  | ok next => simp only [runAll, Outcome.onto, List.append_nil, Option.elim]
  | error fault => simp only [Outcome.onto, List.append_nil, Option.elim]

theorem block {head : Visit String} {body : Visit Unit} {text : Except Fault String}
    (headed : CarriesOut head steps text) (filled : CarriesOut body others (.ok ())) :
    CarriesOut (block head body) (steps ++ inBraces text others) (.ok ()) := by
  have whole := (headed.line blockLine).seq (filled.seq (emit "\x7d"))
  have same : (do return blockLine (← text)) = text.map blockLine := by
    cases text <;> rfl
  rw [bind_assoc, List.append_assoc, same] at whole
  exact whole

theorem emitAll {γ : Type} (items : List γ) (line : γ → String) :
    CarriesOut (emitAll (items.map line)) (items.map fun item => .write (.ok (line item))) (.ok ()) := by
  induction items with
  | nil => exact pure ()
  | cons item rest ih => exact (emit (line item)).seq ih

theorem visitStart (start : Node) : CarriesOut start.visitStart start.startSteps start.startText := by
  cases start with
  | assignment name value => exact (checkedAssignment name value).andThen fun _ => pure _
  | _ => exact evaluate _

theorem forHead (start condition increment : Node) :
    CarriesOut
      (do
        let start ← start.visitStart
        let condition ← Visit.evaluate condition
        let increment ← Visit.evaluate increment
        return "for (" ++ start ++ "; " ++ condition ++ "; " ++ increment ++ ")")
      start.startSteps (Node.forHead start condition increment) :=
  (visitStart start).andThen fun _ => (evaluate condition).andThen fun _ => (evaluate increment).andThen fun _ => pure _

end CarriesOut

end Visit

namespace Node

open Visit

mutual

/-- A visit carries out the steps of its node. -/
theorem visit_steps : (node : Node) → CarriesOut node.visit node.steps (.ok ())
  | .program body => by
      rw [visit, steps]
      exact visitAll_steps body
  | .function name parameters body => by
      rw [visit, steps]
      exact (CarriesOut.pure _).block ((CarriesOut.enter name parameters).seq (visitAll_steps body))
  | .classType name members => by
      rw [visit, steps]
      exact (CarriesOut.pure _).block (visitMembers_steps members)
  | .assignment name value => by
      rw [visit, steps]
      exact (CarriesOut.checkedAssignment name value).line fun text => name ++ " = " ++ text ++ ";"
  | .conditional condition body none => by
      rw [visit, steps]
      exact (((CarriesOut.evaluate condition).andThen fun _ => .pure _).block (visitAll_steps body)).seq (.pure ())
  | .conditional condition body (some []) => by
      rw [visit, steps]
      exact (((CarriesOut.evaluate condition).andThen fun _ => .pure _).block (visitAll_steps body)).seq (.pure ())
  | .conditional condition body (some (first :: rest)) => by
      rw [visit, steps]
      exact (((CarriesOut.evaluate condition).andThen fun _ => .pure _).block (visitAll_steps body)).seq
        ((CarriesOut.pure _).block ((visit_steps first).seq (visitAll_steps rest)))
  | .whileLoop condition body => by
      rw [visit, steps]
      exact ((CarriesOut.evaluate condition).andThen fun _ => .pure _).block (visitAll_steps body)
  | .forLoop start condition increment body => by
      rw [visit, steps]
      exact (CarriesOut.forHead start condition increment).block (visitAll_steps body)
  | .returning value => by
      rw [visit, steps]
      exact (CarriesOut.evaluate value).line fun text => "return " ++ text ++ ";"
  | .attempt body handler => by
      rw [visit, steps]
      exact (CarriesOut.emit _).seq ((visitAll_steps body).seq ((CarriesOut.pure _).block (visitAll_steps handler)))
  | .enumeration name values => by
      rw [visit, steps]
      exact (CarriesOut.pure _).block (.emitAll values _)
  | .record name fields => by
      rw [visit, steps]
      exact (CarriesOut.pure _).block (.emitAll fields _)
  | .literal value => .emitted _
  | .binary left operator right => .emitted _
  | .identifier name => .emitted _
  | .array elements => .emitted _
  | .tuple elements => .emitted _

theorem visitAll_steps : (nodes : List Node) → CarriesOut (visitAll nodes) (allSteps nodes) (.ok ())
  | [] => .pure ()
  | node :: rest => by
      rw [visitAll, allSteps]
      exact (visit_steps node).seq (visitAll_steps rest)

theorem visitMembers_steps : (members : List Member) → CarriesOut (visitMembers members) (memberSteps members) (.ok ())
  | [] => .pure ()
  | .property type name value :: rest => by
      rw [visitMembers, memberSteps]
      have whole := ((CarriesOut.evaluate value).line fun text => type ++ " " ++ name ++ " = " ++ text ++ ";").seq
        (visitMembers_steps rest)
      rwa [bind_assoc] at whole
  | .method declared :: rest => by
      rw [visitMembers, memberSteps]
      cases declared.isFunction with
      | true => exact (visit_steps declared).seq (visitMembers_steps rest)
      | false => exact (CarriesOut.throw _).seq (visitMembers_steps rest)

end

end Node

/-- Cutting the lines back leaves of a failed visit what is kept anyway: its bindings and notices. -/
theorem Writer.writeInPlace_eq (writer : Writer) (node : Node) : writer.writeInPlace node = writer.write node := by
  have visited := node.visit_steps writer
  rw [writeInPlace, write]
  cases stopped : (runAll node.steps writer.bindings).fault with
  | none =>
      rw [stopped] at visited
      rw [visited]
      rfl
  | some fault =>
      rw [stopped] at visited
      rw [visited]
      simp [Outcome.onto]

end BraceCompiler
