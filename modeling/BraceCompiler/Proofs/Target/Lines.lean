import BraceCompiler.Target.Writer

/-! The lines that a program is written as, apart from the checks made on the way. An `else` without
statements is not written at all. -/

namespace BraceCompiler

namespace Step

/-- The line that a step writes, if it writes one. -/
def line? : Step → Option String
  | .write (.ok line) => some line
  | _ => none

/-- The lines of a run that does not stop. -/
def linesOf (steps : List Step) : List String := steps.filterMap line?

/-- A run without a fault writes all the lines of its steps. -/
theorem runAll_lines {steps : List Step} {bindings : Bindings}
    (finished : (runAll steps bindings).fault = none) : (runAll steps bindings).lines = linesOf steps := by
  induction steps generalizing bindings with
  | nil => rfl
  | cons step rest ih =>
      cases step with
      | write line =>
          cases line with
          | error fault => cases finished
          | ok line => exact congrArg (line :: ·) (ih finished)
      | enter function parameters => exact ih finished
      | assign name value =>
          rw [runAll] at finished ⊢
          split at finished
          · exact ih finished
          · cases finished

/-- The notes of a run are not warnings. -/
theorem runAll_notes (steps : List Step) (bindings : Bindings) :
    Notices.hasWarnings (runAll steps bindings).notes = false := by
  induction steps generalizing bindings with
  | nil => rfl
  | cons step rest ih =>
      cases step with
      | write line =>
          cases line with
          | error fault => rfl
          | ok line => exact ih bindings
      | enter function parameters => exact ih _
      | assign name value =>
          rw [runAll]
          split
          · exact ih _
          · rfl

theorem linesOf_append (steps others : List Step) :
    linesOf (steps ++ others) = linesOf steps ++ linesOf others := List.filterMap_append

theorem linesOf_inBraces (head : String) (body : List Step) :
    linesOf (inBraces (.ok head) body) = blockLine head :: linesOf body ++ ["\x7d"] := by
  rw [inBraces, linesOf_append]
  rfl

end Step

namespace Node

mutual

/-- The program without the `else` blocks that hold no statement. -/
def withoutEmptyElse : Node → Node
  | .program body => .program (allWithoutEmptyElse body)
  | .function name parameters body => .function name parameters (allWithoutEmptyElse body)
  | .classType name members => .classType name (membersWithoutEmptyElse members)
  | .conditional condition body otherwise =>
    .conditional condition (allWithoutEmptyElse body) <|
      match otherwise with
      | none | some [] => none
      | some (first :: rest) => some (first.withoutEmptyElse :: allWithoutEmptyElse rest)
  | .whileLoop condition body => .whileLoop condition (allWithoutEmptyElse body)
  | .forLoop start condition increment body => .forLoop start condition increment (allWithoutEmptyElse body)
  | .attempt body handler => .attempt (allWithoutEmptyElse body) (allWithoutEmptyElse handler)
  | node => node

def allWithoutEmptyElse : List Node → List Node
  | [] => []
  | node :: rest => node.withoutEmptyElse :: allWithoutEmptyElse rest

def membersWithoutEmptyElse : List Member → List Member
  | [] => []
  | .property type name value :: rest => .property type name value :: membersWithoutEmptyElse rest
  | .method declared :: rest => .method declared.withoutEmptyElse :: membersWithoutEmptyElse rest

end

/-- Leaving out empty `else` blocks changes the inside of a node only. -/
theorem kind_withoutEmptyElse (node : Node) :
    node.withoutEmptyElse.isFunction = node.isFunction ∧ node.withoutEmptyElse.kindName = node.kindName := by
  cases node with
  | conditional condition body otherwise => rcases otherwise with _ | _ | _ <;> exact ⟨rfl, rfl⟩
  | _ => exact ⟨rfl, rfl⟩

mutual

/-- An empty `else` block makes no difference to what is written. -/
theorem steps_withoutEmptyElse : (node : Node) → node.withoutEmptyElse.steps = node.steps
  | .program body => by rw [withoutEmptyElse, steps, steps, allSteps_withoutEmptyElse body]
  | .function name parameters body => by
      rw [withoutEmptyElse, steps, steps, allSteps_withoutEmptyElse body]
  | .classType name members => by
      rw [withoutEmptyElse, steps, steps, memberSteps_withoutEmptyElse members]
  | .conditional condition body none => by
      rw [withoutEmptyElse, steps, steps, allSteps_withoutEmptyElse body]
  | .conditional condition body (some []) => by
      rw [withoutEmptyElse, steps, steps, allSteps_withoutEmptyElse body]
  | .conditional condition body (some (first :: rest)) => by
      rw [withoutEmptyElse, steps, steps, allSteps_withoutEmptyElse body]
      rw [steps_withoutEmptyElse first, allSteps_withoutEmptyElse rest]
  | .whileLoop condition body => by rw [withoutEmptyElse, steps, steps, allSteps_withoutEmptyElse body]
  | .forLoop start condition increment body => by
      rw [withoutEmptyElse, steps, steps, allSteps_withoutEmptyElse body]
  | .attempt body handler => by
      rw [withoutEmptyElse, steps, steps, allSteps_withoutEmptyElse body, allSteps_withoutEmptyElse handler]
  | .assignment .. | .returning _ | .literal _ | .binary .. | .identifier _ | .array _ | .tuple _
  | .enumeration .. | .record .. => rfl

theorem allSteps_withoutEmptyElse :
    (nodes : List Node) → allSteps (allWithoutEmptyElse nodes) = allSteps nodes
  | [] => by rw [allWithoutEmptyElse]
  | node :: rest => by
      rw [allWithoutEmptyElse, allSteps, allSteps, steps_withoutEmptyElse node,
        allSteps_withoutEmptyElse rest]

theorem memberSteps_withoutEmptyElse :
    (members : List Member) → memberSteps (membersWithoutEmptyElse members) = memberSteps members
  | [] => by rw [membersWithoutEmptyElse]
  | .property type name value :: rest => by
      rw [membersWithoutEmptyElse, memberSteps, memberSteps, memberSteps_withoutEmptyElse rest]
  | .method declared :: rest => by
      rw [membersWithoutEmptyElse, memberSteps, memberSteps, (kind_withoutEmptyElse declared).1,
        (kind_withoutEmptyElse declared).2, steps_withoutEmptyElse declared,
        memberSteps_withoutEmptyElse rest]

end

mutual

/-- The expressions of a program, each with the number of blocks around it; the braces of a class are not
those of a block. -/
def values (depth : Nat) : Node → List (Nat × Node)
  | .program body => allValues depth body
  | .function _ _ body => allValues (depth + 1) body
  | .classType _ members => memberValues depth members
  | .assignment _ value => [(depth, value)]
  | .conditional condition body otherwise =>
    (depth, condition) :: allValues (depth + 1) body ++
      match otherwise with
      | none => []
      | some nodes => allValues (depth + 1) nodes
  | .whileLoop condition body => (depth, condition) :: allValues (depth + 1) body
  | .forLoop start condition increment body =>
    start.values depth ++ (depth, condition) :: (depth, increment) :: allValues (depth + 1) body
  | .returning value => [(depth, value)]
  | .attempt body handler => allValues (depth + 1) body ++ allValues (depth + 1) handler
  | .enumeration .. | .record .. => []
  | node => [(depth, node)]

def allValues (depth : Nat) : List Node → List (Nat × Node)
  | [] => []
  | node :: rest => node.values depth ++ allValues depth rest

def memberValues (depth : Nat) : List Member → List (Nat × Node)
  | [] => []
  | .property _ _ value :: rest => (depth, value) :: memberValues depth rest
  | .method declared :: rest => declared.values depth ++ memberValues depth rest

end

theorem memberValues_cons (depth : Nat) (member : Member) (members : List Member) :
    memberValues depth (member :: members) = memberValues depth [member] ++ memberValues depth members := by
  cases member with
  | property => rfl
  | method declared =>
      rw [memberValues, memberValues, memberValues, List.append_nil]

end Node

end BraceCompiler
