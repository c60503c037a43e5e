import BraceCompiler.Proofs.Target.Visit

/-! What a writer writes depends on the program alone. The text of a program is given here as a function of its
tree, with no bindings, no notices and no faults. Whatever a writer has done before, it adds this text or
nothing. -/

namespace BraceCompiler

/-- The lines of a block with its braces. -/
def braced (head : String) (lines : List String) : List String := blockLine head :: lines ++ ["\x7d"]

namespace Node

mutual

/-- An expression in words. A node that is no expression has none. -/
def wording : Node → Grouping → String
  | .literal value, _ => value.display
  | .identifier name, _ => name
  | .binary left operator right, grouping =>
    grouping.wrap (left.wording .parenthesized ++ " " ++ operator ++ " " ++ right.wording .parenthesized)
  | .array elements, _ => "[" ++ ", ".intercalate (allWordings elements) ++ "]"
  | .tuple elements, _ => "(" ++ ", ".intercalate (allWordings elements) ++ ")"
  | _, _ => ""

def allWordings : List Node → List String
  | [] => []
  | node :: rest => node.wording .parenthesized :: allWordings rest

end

/-- The start of a loop in words. -/
def startWording : Node → String
  | .assignment name value => name ++ " = " ++ value.wording .parenthesized
  | node => node.wording .parenthesized

mutual

/-- The lines of a program. -/
def text : Node → List String
  | .program body => allText body
  | .function name parameters body => braced (functionHead name parameters) (allText body)
  | .classType name members => braced ("class " ++ name) (memberText members)
  | .assignment name value => [name ++ " = " ++ value.wording .parenthesized ++ ";"]
  | .conditional condition body none =>
    braced ("if (" ++ condition.wording .parenthesized ++ ")") (allText body)
  | .conditional condition body (some []) =>
    braced ("if (" ++ condition.wording .parenthesized ++ ")") (allText body)
  | .conditional condition body (some (first :: rest)) =>
    braced ("if (" ++ condition.wording .parenthesized ++ ")") (allText body) ++
      braced "else" (first.text ++ allText rest)
  | .whileLoop condition body =>
    braced ("while (" ++ condition.wording .parenthesized ++ ")") (allText body)
  | .forLoop start condition increment body =>
    braced ("for (" ++ start.startWording ++ "; " ++ condition.wording .parenthesized ++ "; " ++
      increment.wording .parenthesized ++ ")") (allText body)
  | .returning value => ["return " ++ value.wording .parenthesized ++ ";"]
  | .attempt body handler => blockLine "try" :: allText body ++ braced "\x7d catch (error)" (allText handler)
  | .enumeration name values => braced ("enum " ++ name) (values.map fun value => "    " ++ value ++ ",")
  | .record name fields =>
    braced ("struct " ++ name) (fields.map fun field => "    " ++ field.name ++ " : " ++ field.type ++ ";")
  | .literal value => [wording (.literal value) .bare]
  | .binary left operator right => [wording (.binary left operator right) .bare]
  | .identifier name => [wording (.identifier name) .bare]
  | .array elements => [wording (.array elements) .bare]
  | .tuple elements => [wording (.tuple elements) .bare]

def allText : List Node → List String
  | [] => []
  | node :: rest => node.text ++ allText rest

def memberText : List Member → List String
  | [] => []
  | .property type name value :: rest =>
    (type ++ " " ++ name ++ " = " ++ value.wording .parenthesized ++ ";") :: memberText rest
  | .method declared :: rest => declared.text ++ memberText rest

end

end Node

/-- If there is a result, it is this one. -/
def Gives {α : Type} (result : Except Fault α) (value : α) : Prop := ∀ made, result = .ok made → made = value

namespace Gives

variable {α β : Type}

theorem ok (value : α) : Gives (.ok value) value := by
  intro made same
  exact (Except.ok.inj same).symm

theorem error (fault : Fault) (value : α) : Gives (.error fault) value := by
  intro made same
  cases same

theorem bind {result : Except Fault α} {next : α → Except Fault β} {value : α} {last : β}
    (gives : Gives result value) (givesNext : Gives (next value) last) : Gives (result >>= next) last := by
  intro made same
  cases result with
  | error fault => cases same
  | ok first =>
      rw [← gives first (by rfl)] at givesNext
      exact givesNext made same

theorem map {result : Except Fault α} {value : α} (gives : Gives result value) (make : α → β) :
    Gives (result.map make) (make value) := by
  intro made same
  cases result with
  | error fault => cases same
  | ok first =>
      rw [← gives first (by rfl)]
      exact (Except.ok.inj same).symm

end Gives

namespace Node

mutual

theorem render_gives : (node : Node) → (grouping : Grouping) →
    Gives (node.render grouping) (node.wording grouping)
  | .literal _, _ => .ok _
  | .identifier _, _ => .ok _
  | .binary left _ right, _ =>
      (render_gives left .parenthesized).bind ((render_gives right .parenthesized).bind (.ok _))
  | .array elements, _ => (renderAll_gives elements).bind (.ok _)
  | .tuple elements, _ => (renderAll_gives elements).bind (.ok _)
  | .program _, _ | .function .., _ | .classType .., _ | .assignment .., _ | .conditional .., _
  | .whileLoop .., _ | .forLoop .., _ | .returning _, _ | .attempt .., _ | .enumeration .., _
  | .record .., _ => .error _ _

theorem renderAll_gives : (nodes : List Node) → Gives (renderAll nodes) (allWordings nodes)
  | [] => .ok _
  | node :: rest => (render_gives node .parenthesized).bind ((renderAll_gives rest).bind (.ok _))

end

theorem value_gives (node : Node) : Gives node.value (node.wording .parenthesized) :=
  node.render_gives .parenthesized

/-- A line around an expression. -/
theorem line_gives (node : Node) (line : String → String) :
    Gives (do return line (← node.value)) (line (node.wording .parenthesized)) :=
  node.value_gives.bind (.ok _)

theorem startText_gives (start : Node) : Gives start.startText start.startWording := by
  cases start with
  | assignment name value => exact value.line_gives _
  | _ => exact value_gives _

theorem forHead_gives (start condition increment : Node) : Gives (forHead start condition increment)
    ("for (" ++ start.startWording ++ "; " ++ condition.wording .parenthesized ++ "; " ++
      increment.wording .parenthesized ++ ")") :=
  start.startText_gives.bind (condition.value_gives.bind (increment.value_gives.bind (.ok _)))

end Node

namespace Step

/-- Whatever the bindings, a run that comes to its end writes these lines. -/
def Prints (steps : List Step) (lines : List String) : Prop :=
  ∀ bindings, (runAll steps bindings).fault = none → (runAll steps bindings).lines = lines

namespace Prints

theorem nil : Prints [] [] := by
  intro bindings _
  rfl

theorem append {steps others : List Step} {lines more : List String} (prints : Prints steps lines)
    (printsOthers : Prints others more) : Prints (steps ++ others) (lines ++ more) := by
  intro bindings finished
  obtain ⟨first, second⟩ := finished_append finished
  rw [runAll_lines finished, linesOf_append, ← runAll_lines first, ← runAll_lines second,
    prints _ first, printsOthers _ second]

theorem write {result : Except Fault String} {line : String} (gives : Gives result line) :
    Prints [.write result] [line] := by
  intro bindings finished
  cases result with
  | error fault => cases finished
  | ok made =>
      rw [← gives made rfl]
      rfl

theorem enter (function : String) (parameters : List Parameter) : Prints [.enter function parameters] [] := by
  intro bindings _
  rfl

theorem assign (name : String) (value : Except Fault String) : Prints [.assign name value] [] := by
  intro bindings finished
  rw [runAll_lines finished]
  rfl

theorem inBraces {head : Except Fault String} {body : List Step} {text : String} {lines : List String}
    (gives : Gives head text) (prints : Prints body lines) :
    Prints (BraceCompiler.inBraces head body) (braced text lines) :=
  ((write (gives.map blockLine)).append prints).append (write (.ok _))

theorem writes {α : Type} (items : List α) (line : α → String) :
    Prints (items.map fun item => .write (.ok (line item))) (items.map line) := by
  induction items with
  | nil => exact nil
  | cons item rest ih => exact (write (.ok _)).append ih

/-- The check at the start of a loop writes nothing. -/
theorem startSteps (start : Node) : Prints start.startSteps [] := by
  cases start with
  | assignment name value => exact assign _ _
  | _ => exact nil

end Prints

end Step

open Step

namespace Node

mutual

theorem steps_print : (node : Node) → Prints node.steps node.text
  | .program body => by
      rw [steps, text]
      exact allSteps_print body
  | .function name parameters body => by
      rw [steps, text]
      exact .inBraces (.ok _) ((Prints.enter _ _).append (allSteps_print body))
  | .classType name members => by
      rw [steps, text]
      exact .inBraces (.ok _) (memberSteps_print members)
  | .assignment name value => by
      rw [steps, text]
      exact (Prints.assign _ _).append (.write (value.line_gives _))
  | .conditional condition body none => by
      rw [steps, text, List.append_nil]
      exact .inBraces (condition.line_gives _) (allSteps_print body)
  | .conditional condition body (some []) => by
      rw [steps, text, List.append_nil]
      exact .inBraces (condition.line_gives _) (allSteps_print body)
  | .conditional condition body (some (first :: rest)) => by
      rw [steps, text]
      refine Prints.append (.inBraces (condition.line_gives _) (allSteps_print body)) ?_
      exact .inBraces (.ok _) ((steps_print first).append (allSteps_print rest))
  | .whileLoop condition body => by
      rw [steps, text]
      exact .inBraces (condition.line_gives _) (allSteps_print body)
  | .forLoop start condition increment body => by
      rw [steps, text]
      exact (Prints.startSteps start).append (.inBraces (forHead_gives _ _ _) (allSteps_print body))
  | .returning value => by
      rw [steps, text]
      exact .write (value.line_gives _)
  | .attempt body handler => by
      rw [steps, text]
      exact ((Prints.write (.ok _)).append (allSteps_print body)).append
        (.inBraces (.ok _) (allSteps_print handler))
  | .enumeration name values => by
      rw [steps, text]
      exact .inBraces (.ok _) (.writes _ _)
  | .record name fields => by
      rw [steps, text]
      exact .inBraces (.ok _) (.writes _ _)
  | .literal value => .write (render_gives _ _)
  | .binary left operator right => .write (render_gives _ _)
  | .identifier name => .write (render_gives _ _)
  | .array elements => .write (render_gives _ _)
  | .tuple elements => .write (render_gives _ _)

theorem allSteps_print : (nodes : List Node) → Prints (allSteps nodes) (allText nodes)
  | [] => .nil
  | node :: rest => by
      rw [allSteps, allText]
      exact (steps_print node).append (allSteps_print rest)

theorem memberSteps_print : (members : List Member) → Prints (memberSteps members) (memberText members)
  | [] => .nil
  | .property type name value :: rest => by
      rw [memberSteps, memberText]
      exact .append (.write (value.line_gives _)) (memberSteps_print rest)
  | .method declared :: rest => by
      rw [memberSteps, memberText]
      refine Prints.append ?_ (memberSteps_print rest)
      split
      · exact steps_print declared
      · -- What is no function stops the run, so no text is asked of it.
        intro bindings finished
        cases finished

end

end Node

namespace Writer

/-- One call on a writer. -/
inductive Use where
  | write (node : Node)
  | takeNotices

def use (writer : Writer) : Use → Writer
  | .write node => (writer.write node).2
  | .takeNotices => writer.takeNotices.2

def useAll (writer : Writer) (uses : List Use) : Writer := uses.foldl use writer

/-- The program that a call writes, if the call is one to write and succeeds. -/
def written? (writer : Writer) : Use → Option Node
  | .write node => if (writer.write node).1 = none then some node else none
  | .takeNotices => none

/-- The programs that are written by some calls, one call after the other. -/
def written (writer : Writer) : List Use → List Node
  | [] => []
  | call :: rest => (writer.written? call).toList ++ (writer.use call).written rest

/-- A program is written as a whole or not at all. -/
theorem write_lines (writer : Writer) (node : Node) : (writer.write node).2.lines =
    writer.lines ++ if (writer.write node).1 = none then node.text else [] := by
  rw [write]
  cases outcome : (runAll node.steps writer.bindings).fault with
  | none => simp [Node.steps_print node writer.bindings outcome]
  | some fault => simp

theorem use_lines (writer : Writer) (call : Use) :
    (writer.use call).lines = writer.lines ++ (writer.written? call).toList.flatMap Node.text := by
  cases call with
  | write node =>
      rw [use, write_lines, written?]
      split <;> simp
  | takeNotices => simp [use, takeNotices, written?]

theorem useAll_lines (writer : Writer) (uses : List Use) :
    (writer.useAll uses).lines = writer.lines ++ (writer.written uses).flatMap Node.text := by
  induction uses generalizing writer with
  | nil => simp [useAll, written]
  | cons call rest ih =>
      have later : (writer.useAll (call :: rest)).lines = ((writer.use call).useAll rest).lines := rfl
      rw [later, ih, use_lines, written, List.flatMap_append, List.append_assoc]

end Writer

/-- A call to write adds the text of its program, or fails and adds nothing, whatever the writer holds. So after
any calls on a new writer its lines are the texts of the programs that could be written, in order. The same comes of
pushing the lines one by one and, after a fault, cutting them back to those that were there before the call. -/
theorem lines_of_written :
    (∀ (writer : Writer) node, (writer.write node).2.lines =
      writer.lines ++ if (writer.write node).1 = none then node.text else []) ∧
    (∀ uses, (Writer.initial.useAll uses).lines = (Writer.initial.written uses).flatMap Node.text) ∧
    ∀ (writer : Writer) node, writer.writeInPlace node = writer.write node := by
  refine ⟨Writer.write_lines, fun uses => ?_, Writer.writeInPlace_eq⟩
  rw [Writer.useAll_lines]
  rfl

/-- The first program fails in its body. Its visit has pushed the line of its head, which is not among the lines after
the call; the second program is written with the parameter that the first left behind. -/
example :
    let failing : Node := .function "f" [⟨"b", some "int"⟩] [.assignment "a" (.identifier "b")]
    let failed := Writer.initial.writeInPlace failing
    (failing.visit Writer.initial).2.lines = ["function f(b:int) \x7b"] ∧ failed.1.isSome = true ∧
      (failed.2.takeNotices.2.writeInPlace (.assignment "b" (.identifier "int"))).2.lines = ["b = int;"] := by
  decide

end BraceCompiler
