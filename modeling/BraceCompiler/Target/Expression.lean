import BraceCompiler.Fault
import BraceCompiler.Node.Basic

/-! The program text of expressions. -/

namespace BraceCompiler

/-- Whether an operation at the top of an expression stands in parentheses; one inside always does.
-/
inductive Grouping where
  | bare
  | parenthesized
  deriving DecidableEq, Repr

def Grouping.wrap : Grouping → String → String
  | .bare, text => text
  | .parenthesized, text => "(" ++ text ++ ")"

namespace Node

mutual

/-- The text of an expression. Any other node is a fault, and of several the leftmost is reported.
-/
def render : Node → Grouping → Except Fault String
  | .literal value, _ => .ok value.display
  | .identifier name, _ => .ok name
  | .binary left operator right, grouping => do
    let left ← left.render .parenthesized
    let right ← right.render .parenthesized
    return grouping.wrap (left ++ " " ++ operator ++ " " ++ right)
  | .array elements, _ => do return "[" ++ ", ".intercalate (← renderAll elements) ++ "]"
  | .tuple elements, _ => do return "(" ++ ", ".intercalate (← renderAll elements) ++ ")"
  | node, _ => .error (.notAnExpression node.kindName)

def renderAll : List Node → Except Fault (List String)
  | [] => .ok []
  | node :: rest => do
    let first ← node.render .parenthesized
    return first :: (← renderAll rest)

end

/-- The text of an expression inside a line. -/
def value (node : Node) : Except Fault String := node.render .parenthesized

end Node

end BraceCompiler
