import BraceCompiler.Compilation
import BraceCompiler.Proofs.Reading.Shapes
import BraceCompiler.Proofs.Target.Entries

/-! The faults that can end a compilation. A tree that was read has only nodes where the writer takes them, so
all that is left to go wrong in writing is an assignment. -/

namespace BraceCompiler

namespace Node

theorem renderAll_eq_ok {nodes : List Node}
    (all : ∀ node ∈ nodes, ∃ text, node.render .parenthesized = .ok text) :
    ∃ texts, renderAll nodes = .ok texts := by
  induction nodes with
  | nil => exact ⟨[], rfl⟩
  | cons node rest ih =>
      obtain ⟨⟨text, rendered⟩, others⟩ := List.forall_mem_cons.mp all
      obtain ⟨texts, renderedAll⟩ := ih others
      refine ⟨text :: texts, ?_⟩
      rw [renderAll, rendered, renderedAll]
      rfl

theorem IsExpression.render_eq_ok {node : Node} (isExpression : node.IsExpression) (grouping : Grouping) :
    ∃ text, node.render grouping = .ok text := by
  induction isExpression generalizing grouping with
  | literal => exact ⟨_, rfl⟩
  | identifier => exact ⟨_, rfl⟩
  | binary _ _ left right =>
      obtain ⟨leftText, leftRendered⟩ := left .parenthesized
      obtain ⟨rightText, rightRendered⟩ := right .parenthesized
      rw [render, leftRendered, rightRendered]
      exact ⟨_, rfl⟩
  | array _ ih =>
      obtain ⟨texts, rendered⟩ := renderAll_eq_ok fun node member => ih node member .parenthesized
      rw [render, rendered]
      exact ⟨_, rfl⟩
  | tuple _ _ ih =>
      obtain ⟨texts, rendered⟩ := renderAll_eq_ok fun node member => ih node member .parenthesized
      rw [render, rendered]
      exact ⟨_, rfl⟩

theorem IsExpression.value_eq_ok {node : Node} (isExpression : node.IsExpression) :
    ∃ text, node.value = .ok text := isExpression.render_eq_ok .parenthesized

end Node

namespace Step

/-- What the step writes or checks has a text. -/
def Clean : Step → Prop
  | .write text => ∃ line, text = .ok line
  | .enter _ _ => True
  | .assign _ value => ∃ text, value = .ok text

def AllClean (steps : List Step) : Prop := ∀ step ∈ steps, step.Clean

theorem AllClean.append {steps others : List Step} (clean : AllClean steps) (cleanOthers : AllClean others) :
    AllClean (steps ++ others) := List.forall_mem_append.mpr ⟨clean, cleanOthers⟩

theorem AllClean.cons {step : Step} {steps : List Step} (first : step.Clean) (clean : AllClean steps) :
    AllClean (step :: steps) := List.forall_mem_cons.mpr ⟨first, clean⟩

theorem AllClean.nil : AllClean [] := List.forall_mem_nil Clean

theorem AllClean.inBraces {head : Except Fault String} {body : List Step} (first : ∃ text, head = .ok text)
    (clean : AllClean body) : AllClean (inBraces head body) := by
  obtain ⟨text, rfl⟩ := first
  exact .cons ⟨_, rfl⟩ (clean.append (.cons ⟨_, rfl⟩ .nil))

end Step

open Step

namespace Node

theorem allSteps_clean {nodes : List Node} (all : ∀ node ∈ nodes, AllClean node.steps) :
    AllClean (allSteps nodes) := by
  induction nodes with
  | nil => exact .nil
  | cons node rest ih =>
      obtain ⟨first, others⟩ := List.forall_mem_cons.mp all
      exact first.append (ih others)

theorem memberSteps_cons (member : Member) (members : List Member) :
    memberSteps (member :: members) = memberSteps [member] ++ memberSteps members := by
  cases member with
  | property => rfl
  | method declared => simp only [memberSteps, List.append_nil]

theorem memberSteps_clean {members : List Member} (all : ∀ member ∈ members, AllClean (memberSteps [member])) :
    AllClean (memberSteps members) := by
  induction members with
  | nil => exact .nil
  | cons member rest ih =>
      obtain ⟨first, others⟩ := List.forall_mem_cons.mp all
      rw [memberSteps_cons]
      exact first.append (ih others)

theorem forHead_eq_ok {name : String} {value condition increment : Node} (isValue : value.IsExpression)
    (isCondition : condition.IsExpression) (isIncrement : increment.IsExpression) :
    ∃ text, forHead (.assignment name value) condition increment = .ok text := by
  obtain ⟨valueText, valueRendered⟩ := isValue.value_eq_ok
  obtain ⟨conditionText, conditionRendered⟩ := isCondition.value_eq_ok
  obtain ⟨incrementText, incrementRendered⟩ := isIncrement.value_eq_ok
  rw [forHead, startText, valueRendered, conditionRendered, incrementRendered]
  exact ⟨_, rfl⟩

theorem conditional_clean {condition : Node} {body : List Node} {otherwise : Option (List Node)}
    (isCondition : condition.IsExpression) (all : ∀ node ∈ body, AllClean node.steps)
    (allOthers : ∀ nodes ∈ otherwise, ∀ node ∈ nodes, AllClean node.steps) :
    AllClean (steps (.conditional condition body otherwise)) := by
  obtain ⟨text, rendered⟩ := isCondition.value_eq_ok
  have taken : AllClean (inBraces (do return "if (" ++ (← condition.value) ++ ")") (allSteps body)) := by
    rw [rendered]
    exact .inBraces ⟨_, rfl⟩ (allSteps_clean all)
  rcases otherwise with _ | _ | ⟨first, rest⟩
  · exact taken.append .nil
  · exact taken.append .nil
  · exact taken.append (.inBraces ⟨_, rfl⟩ (allSteps_clean (allOthers _ rfl)))

end Node

mutual

theorem Node.IsStatement.steps_clean {node : Node} : node.IsStatement → AllClean node.steps
  | .function all =>
      .inBraces ⟨_, rfl⟩ (.cons trivial (Node.allSteps_clean fun node member => (all node member).steps_clean))
  | .classType all =>
      .inBraces ⟨_, rfl⟩ (Node.memberSteps_clean fun member listed => (all member listed).steps_clean)
  | .assignment isValue => by
      obtain ⟨text, rendered⟩ := isValue.value_eq_ok
      rw [Node.steps, rendered]
      exact .cons ⟨_, rfl⟩ (.cons ⟨_, rfl⟩ .nil)
  | .conditional isCondition all allOthers =>
      Node.conditional_clean isCondition (fun node member => (all node member).steps_clean)
        fun nodes some node member => (allOthers nodes some node member).steps_clean
  | .whileLoop isCondition all => by
      obtain ⟨text, rendered⟩ := isCondition.value_eq_ok
      rw [Node.steps, rendered]
      exact .inBraces ⟨_, rfl⟩ (Node.allSteps_clean fun node member => (all node member).steps_clean)
  | .forLoop isValue isCondition isIncrement all => by
      rw [Node.steps, Node.startSteps]
      exact .cons isValue.value_eq_ok (.inBraces (Node.forHead_eq_ok isValue isCondition isIncrement)
        (Node.allSteps_clean fun node member => (all node member).steps_clean))
  | .returning isValue => by
      obtain ⟨text, rendered⟩ := isValue.value_eq_ok
      rw [Node.steps, rendered]
      exact .cons ⟨_, rfl⟩ .nil

theorem Member.IsMember.steps_clean {member : Member} : member.IsMember → AllClean (Node.memberSteps [member])
  | .property isValue => by
      obtain ⟨text, rendered⟩ := isValue.value_eq_ok
      rw [Node.memberSteps, rendered]
      exact .cons ⟨_, rfl⟩ .nil
  | .method isFunction => by
      rw [Node.memberSteps]
      exact isFunction.steps_clean.append .nil

end

theorem Node.IsProgram.steps_clean {node : Node} (isProgram : node.IsProgram) : AllClean node.steps := by
  obtain ⟨body, rfl, all⟩ := isProgram
  exact Node.allSteps_clean fun statement member => (all statement member).steps_clean

/-- The faults of assignments: to a name that is not bound, or of another type. -/
inductive Fault.OfAssignment : Fault → Prop
  | undeclared {name} : OfAssignment (.undeclared name)
  | typeMismatch {name expected actual} : OfAssignment (.typeMismatch name expected actual)

theorem Fault.OfAssignment.complaint {fault : Fault} (ofAssignment : fault.OfAssignment) :
    (fault.complaint.code = "E_SCOPE" ∨ fault.complaint.code = "E_TYPE") ∧ fault.complaint.position = none := by
  cases ofAssignment with
  | undeclared => exact ⟨.inl rfl, rfl⟩
  | typeMismatch => exact ⟨.inr rfl, rfl⟩

/-- The check of a value that has a text, told from the binding that it finds. -/
theorem checkAssignment_eq (bindings : Bindings) (name text : String) :
    checkAssignment bindings name (.ok text) =
      match bindings.get? name with
      | none => .error (.undeclared name)
      | some none => .ok bindings
      | some (some expected) =>
        if expected = Text.firstWord text then .ok bindings
        else .error (.typeMismatch name expected (Text.firstWord text)) := by
  rw [checkAssignment]
  cases found : bindings.get? name with
  | none => rfl
  | some type =>
      have kept : bindings.bind name type = bindings := Table.insert_of_get? found
      cases type with
      | none => simp only [bind, Except.bind, pure, Except.pure, kept]
      | some expected => simp only [bind, Except.bind, pure, Except.pure, kept]

theorem checkAssignment_fault {bindings : Bindings} {name text : String} {fault : Fault}
    (refused : checkAssignment bindings name (.ok text) = .error fault) : fault.OfAssignment := by
  rw [checkAssignment_eq] at refused
  split at refused
  · cases refused
    exact .undeclared
  · cases refused
  · split at refused
    · cases refused
    · cases refused
      exact .typeMismatch

theorem Step.Clean.fault {step : Step} {bindings : Bindings} {fault : Fault} (clean : step.Clean)
    (failed : step.perform bindings = .error fault) : fault.OfAssignment := by
  cases step with
  | write text =>
      obtain ⟨line, rfl⟩ := clean
      cases failed
  | enter name parameters => cases failed
  | assign name value =>
      obtain ⟨text, rfl⟩ := clean
      exact checkAssignment_fault failed

theorem Step.AllClean.fault {steps : List Step} {bindings : Bindings} {fault : Fault} (clean : AllClean steps)
    (stopped : (runAll steps bindings).fault = some fault) : fault.OfAssignment := by
  induction steps generalizing bindings with
  | nil => cases stopped
  | cons step rest ih =>
      obtain ⟨first, others⟩ := List.forall_mem_cons.mp clean
      cases outcome : step.perform bindings with
      | error found =>
          rw [runAll_of_error rest outcome] at stopped
          cases stopped
          exact first.fault outcome
      | ok next =>
          rw [runAll_of_ok rest outcome] at stopped
          exact ih others stopped

/-- A fault is shown at its token, at the next one or at the last. -/
theorem Stop.position_mem {stop : Stop} {tokens : List Token} (some : tokens ≠ []) (left : stop.rest <:+ tokens)
    (named : ∀ token ∈ stop.cause.token?, token ∈ tokens) :
    ∃ token ∈ tokens, stop.position tokens = token.position := by
  -- The faults that name no token of their own.
  have shown : ∃ token ∈ tokens,
      ((stop.rest.head? <|> tokens.getLast?).map Token.position).getD .origin = token.position := by
    cases first : stop.rest.head? with
    | none =>
        refine ⟨tokens.getLast some, List.getLast_mem some, ?_⟩
        rw [List.getLast?_eq_some_getLast some]
        rfl
    | some token => exact ⟨token, left.subset (List.mem_of_head? first), rfl⟩
  obtain ⟨cause, rest, unfinished⟩ := stop
  cases cause with
  | unexpected found wanted => exact shown
  | nestedTooDeeply => exact shown
  | integerOutOfRange token => exact ⟨token, named token rfl, rfl⟩
  | invalidFloat token => exact ⟨token, named token rfl, rfl⟩

theorem parse_shaped {tokens : List Token} {node : Node} (parsed : parse tokens = .ok node) : node.IsProgram := by
  rw [parse] at parsed
  split at parsed
  · rename_i read
    cases parsed
    exact Reader.program_isProgram read
  · cases parsed

theorem parse_fault {tokens : List Token} {fault : Fault} (failed : parse tokens = .error fault) :
    ∃ cause, ∃ token ∈ tokens, fault = .syntactic cause token.position := by
  rw [parse] at failed
  split at failed
  · cases failed
  · rename_i stop read
    cases failed
    have some : tokens ≠ [] := by
      rintro rfl
      cases read
    obtain ⟨left, named⟩ := (Reader.program_built (Nat.le_refl _)).orderly.error read
    obtain ⟨token, member, place⟩ := stop.position_mem some left named
    exact ⟨stop.cause, token, member, congrArg _ place⟩

/-- What is read is a program that the writer knows, so it fails at an assignment if at all. A source is
compiled, or it is not read and the fault is shown at one of its tokens, or it is read and not written for an
assignment, and the fault is shown without a place. -/
theorem compile_faults :
    (∀ tokens node, parse tokens = .ok node → node.IsProgram ∧
      ∀ (writer : Writer) (fault : Fault), (writer.write node).1 = some fault →
        fault.complaint.code ≠ "E_UNKNOWN_NODE") ∧
    ∀ source, (∃ compilation, compile source = .ok compilation) ∨
      ∃ fault, compile source = .error fault ∧
        ((parse (tokensOf source) = .error fault ∧ fault.complaint.code = "E_SYNTAX" ∧
            ∃ token ∈ tokensOf source, fault.complaint.position = some token.position) ∨
          ((∃ node, parse (tokensOf source) = .ok node ∧ generate node = .error fault) ∧
            (fault.complaint.code = "E_SCOPE" ∨ fault.complaint.code = "E_TYPE") ∧
            fault.complaint.position = none)) := by
  refine ⟨fun tokens node parsed => ⟨parse_shaped parsed, fun writer fault failed => ?_⟩, fun source => ?_⟩
  · have ofAssignment := (parse_shaped parsed).steps_clean.fault failed
    rcases ofAssignment.complaint.1 with code | code
    · rw [code]
      decide
    · rw [code]
      decide
  · cases parsed : parse (tokensOf source) with
    | error fault =>
        obtain ⟨cause, token, member, rfl⟩ := parse_fault parsed
        refine .inr ⟨_, ?_, .inl ⟨rfl, rfl, token, member, rfl⟩⟩
        rw [compile, parsed]
        rfl
    | ok node =>
        cases written : Writer.initial.write node with
        | mk outcome writer =>
            cases outcome with
            | none =>
                refine .inl ⟨⟨tokensOf source, node, writer.lines, warningsOf source ++ writer.notices⟩, ?_⟩
                rw [compile, parsed]
                simp only [bind, Except.bind, written]
                rfl
            | some fault =>
                have ofAssignment := (parse_shaped parsed).steps_clean.fault (congrArg Prod.fst written)
                refine .inr ⟨fault, ?_, .inr ⟨⟨node, rfl, ?_⟩, ofAssignment.complaint⟩⟩
                · rw [compile, parsed]
                  simp only [bind, Except.bind, written]
                · rw [generate, written]

/-- The tokens of a class with a method whose loop assigns to a name that is no parameter. -/
def loopTokens : List Token := [
  ⟨.keyword, "class", ⟨1, 1⟩⟩, ⟨.identifier, "C", ⟨1, 7⟩⟩, ⟨.delimiter, "\x7b", ⟨1, 9⟩⟩,
  ⟨.keyword, "function", ⟨1, 11⟩⟩, ⟨.identifier, "f", ⟨1, 20⟩⟩, ⟨.tupleStart, "(", ⟨1, 21⟩⟩,
  ⟨.identifier, "a", ⟨1, 22⟩⟩, ⟨.tupleEnd, ")", ⟨1, 23⟩⟩, ⟨.delimiter, "\x7b", ⟨1, 25⟩⟩,
  ⟨.keyword, "for", ⟨1, 27⟩⟩, ⟨.tupleStart, "(", ⟨1, 31⟩⟩, ⟨.identifier, "a", ⟨1, 32⟩⟩,
  ⟨.assignment, "=", ⟨1, 34⟩⟩, ⟨.tupleStart, "(", ⟨1, 36⟩⟩, ⟨.number, "1", ⟨1, 37⟩⟩, ⟨.comma, ",", ⟨1, 38⟩⟩,
  ⟨.number, "2", ⟨1, 40⟩⟩, ⟨.tupleEnd, ")", ⟨1, 41⟩⟩, ⟨.delimiter, ";", ⟨1, 42⟩⟩,
  ⟨.identifier, "a", ⟨1, 44⟩⟩, ⟨.delimiter, ";", ⟨1, 45⟩⟩, ⟨.identifier, "a", ⟨1, 47⟩⟩,
  ⟨.operator, "+", ⟨1, 49⟩⟩, ⟨.number, "1", ⟨1, 51⟩⟩, ⟨.tupleEnd, ")", ⟨1, 52⟩⟩,
  ⟨.delimiter, "\x7b", ⟨1, 54⟩⟩, ⟨.identifier, "b", ⟨1, 56⟩⟩, ⟨.assignment, "=", ⟨1, 58⟩⟩,
  ⟨.arrayStart, "[", ⟨1, 60⟩⟩, ⟨.identifier, "a", ⟨1, 61⟩⟩, ⟨.arrayEnd, "]", ⟨1, 62⟩⟩,
  ⟨.delimiter, ";", ⟨1, 63⟩⟩, ⟨.delimiter, "\x7d", ⟨1, 65⟩⟩, ⟨.delimiter, "\x7d", ⟨1, 67⟩⟩,
  ⟨.delimiter, "\x7d", ⟨1, 69⟩⟩]

def loopProgram : Node := .program [.classType "C" [.method (.function "f" [⟨"a", none⟩]
  [.forLoop (.assignment "a" (.tuple [.literal (.integer 1), .literal (.integer 2)])) (.identifier "a")
    (.binary (.identifier "a") "+" (.literal (.integer 1))) [.assignment "b" (.array [.identifier "a"])]])]]

theorem compile_faults_loop :
    parse loopTokens = .ok loopProgram ∧ (Writer.initial.write loopProgram).1 = some (.undeclared "b") ∧
      loopProgram.IsProgram ∧ (Fault.undeclared "b").complaint.code ≠ "E_UNKNOWN_NODE" := by
  have parsed : parse loopTokens = .ok loopProgram := rfl
  have stopped : (Writer.initial.write loopProgram).1 = some (.undeclared "b") := rfl
  obtain ⟨isProgram, known⟩ := compile_faults.1 _ _ parsed
  exact ⟨parsed, stopped, isProgram, known _ _ stopped⟩

end BraceCompiler
