import BraceCompiler.Target.Expression

/-! The work of writing a program, as a list of steps in document order. The list depends on the
tree alone; what is in scope matters only when the steps are carried out. -/

namespace BraceCompiler

inductive Step where
  /-- Write a line, or stop if it has no text. -/
  | write (line : Except Fault String)
  /-- Enter a function. -/
  | enter (function : String) (parameters : List Parameter)
  /-- Check an assignment of a rendered value to a name. -/
  | assign (name : String) (value : Except Fault String)

/-- The first line of a block, before its brace. -/
def blockLine (head : String) : String := head ++ " \x7b"

/-- Steps between the first and the last line of a block. -/
def inBraces (head : Except Fault String) (body : List Step) : List Step :=
  .write (head.map blockLine) :: body ++ [.write (.ok "\x7d")]

namespace Node

def functionHead (name : String) (parameters : List Parameter) : String :=
  "function " ++ name ++ "(" ++ ", ".intercalate (parameters.map Parameter.render) ++ ")"

/-- The check that the start of a loop asks for. -/
def startSteps : Node → List Step
  | .assignment name value => [.assign name value.value]
  | _ => []

/-- The start of a loop as it stands in the head of the loop. -/
def startText : Node → Except Fault String
  | .assignment name value => do return name ++ " = " ++ (← value.value)
  | node => node.value

def forHead (start condition increment : Node) : Except Fault String := do
  let start ← start.startText
  let condition ← condition.value
  let increment ← increment.value
  return "for (" ++ start ++ "; " ++ condition ++ "; " ++ increment ++ ")"

mutual

def steps : Node → List Step
  | .program body => allSteps body
  | .function name parameters body =>
    inBraces (.ok (functionHead name parameters)) (.enter name parameters :: allSteps body)
  | .classType name members => inBraces (.ok ("class " ++ name)) (memberSteps members)
  | .assignment name value =>
    [.assign name value.value, .write (do return name ++ " = " ++ (← value.value) ++ ";")]
  | .conditional condition body otherwise =>
    inBraces (do return "if (" ++ (← condition.value) ++ ")") (allSteps body) ++
      match otherwise with
      | none | some [] => []
      | some (first :: rest) => inBraces (.ok "else") (first.steps ++ allSteps rest)
  | .whileLoop condition body =>
    inBraces (do return "while (" ++ (← condition.value) ++ ")") (allSteps body)
  | .forLoop start condition increment body =>
    start.startSteps ++ inBraces (forHead start condition increment) (allSteps body)
  | .returning value => [.write (do return "return " ++ (← value.value) ++ ";")]
  | .attempt body handler =>
    .write (.ok (blockLine "try")) :: allSteps body ++
      inBraces (.ok "\x7d catch (error)") (allSteps handler)
  | .enumeration name values =>
    inBraces (.ok ("enum " ++ name)) (values.map fun value => .write (.ok ("    " ++ value ++ ",")))
  | .record name fields =>
    inBraces (.ok ("struct " ++ name))
      (fields.map fun field => .write (.ok ("    " ++ field.name ++ " : " ++ field.type ++ ";")))
  | .literal value => [.write (Node.render (.literal value) .bare)]
  | .binary left operator right => [.write (Node.render (.binary left operator right) .bare)]
  | .identifier name => [.write (Node.render (.identifier name) .bare)]
  | .array elements => [.write (Node.render (.array elements) .bare)]
  | .tuple elements => [.write (Node.render (.tuple elements) .bare)]

def allSteps : List Node → List Step
  | [] => []
  | node :: rest => node.steps ++ allSteps rest

/-- A method has to be a function. -/
def memberSteps : List Member → List Step
  | [] => []
  | .property type name value :: rest =>
    .write (do return type ++ " " ++ name ++ " = " ++ (← value.value) ++ ";") :: memberSteps rest
  | .method declared :: rest =>
    (if declared.isFunction then declared.steps
      else [.write (.error (.unknownNode (declared.kindName ++ " (class method)")))]) ++ memberSteps rest

end

end Node

end BraceCompiler
