import BraceCompiler.Number.Layout

/-! The tree of a program. Every construct is a node, and the type lets any node stand anywhere:
whether a node fits its place is found out by whoever reads or writes it. -/

namespace BraceCompiler

inductive Literal where
  | integer (value : Int)
  | real (value : Number.Binary64)
  | text (value : String)
  | boolean (value : Bool)
  deriving DecidableEq, Repr

/-- The literal as program text; a text stands without quotes. -/
def Literal.display : Literal → String
  | .integer value => toString value
  | .real value => value.programText
  | .text value => value
  | .boolean true => "true"
  | .boolean false => "false"

/-- A parameter of a function, with its type if it has one. -/
structure Parameter where
  name : String
  type : Option String
  deriving DecidableEq, Repr

def Parameter.render (parameter : Parameter) : String :=
  match parameter.type with
  | some type => parameter.name ++ ":" ++ type
  | none => parameter.name

/-- A field of a record type. -/
structure Field where
  name : String
  type : String
  deriving DecidableEq, Repr

mutual

inductive Node where
  | program (body : List Node)
  | function (name : String) (parameters : List Parameter) (body : List Node)
  | classType (name : String) (members : List Member)
  | assignment (name : String) (value : Node)
  | conditional (condition : Node) (body : List Node) (otherwise : Option (List Node))
  | whileLoop (condition : Node) (body : List Node)
  | forLoop (start condition increment : Node) (body : List Node)
  | returning (value : Node)
  | attempt (body handler : List Node)
  | literal (value : Literal)
  | binary (left : Node) (operator : String) (right : Node)
  | identifier (name : String)
  | array (elements : List Node)
  | tuple (elements : List Node)
  | enumeration (name : String) (values : List String)
  | record (name : String) (fields : List Field)
  deriving Repr

/-- What stands in the body of a class. -/
inductive Member where
  | property (type name : String) (value : Node)
  | method (function : Node)
  deriving Repr

end

namespace Node

def kindName : Node → String
  | .program _ => "Program"
  | .function .. => "FunctionDeclaration"
  | .classType .. => "ClassDeclaration"
  | .assignment .. => "Assignment"
  | .conditional .. => "IfStatement"
  | .whileLoop .. => "WhileLoop"
  | .forLoop .. => "ForLoop"
  | .returning _ => "ReturnStatement"
  | .attempt .. => "TryCatchStatement"
  | .literal _ => "Literal"
  | .binary .. => "BinaryExpression"
  | .identifier _ => "Identifier"
  | .array _ => "Array"
  | .tuple _ => "Tuple"
  | .enumeration .. => "Enum"
  | .record .. => "Struct"

def isFunction : Node → Bool
  | .function .. => true
  | _ => false

end Node

end BraceCompiler
