import BraceCompiler.Json.Basic
import BraceCompiler.Node.Basic
import BraceCompiler.Notice
import BraceCompiler.Token.Basic

/-! Positions, tokens, notices and nodes as data. -/

namespace BraceCompiler

def Position.toJson (place : Position) : Json :=
  .object [("line", .integer place.line), ("column", .integer place.column)]

def Token.toJson (token : Token) : Json :=
  .object [("kind", .text token.kind.name), ("lexeme", .text token.lexeme),
    ("line", .integer token.position.line), ("column", .integer token.position.column)]

def Notice.toJson (notice : Notice) : Json :=
  .object [("severity", .text notice.severity.name), ("code", .text notice.code),
    ("message", .text notice.message), ("span", .ofOption Position.toJson notice.position)]

def Literal.toJson : Literal → Json
  | .integer value => .integer value
  | .real value => .real value
  | .text value => .text value
  | .boolean value => .boolean value

def Parameter.toJson (parameter : Parameter) : Json :=
  .object [("name", .text parameter.name), ("type", .ofOption .text parameter.type)]

def Field.toJson (field : Field) : Json :=
  .object [("name", .text field.name), ("type", .text field.type)]

mutual

/-- A node as an object whose first field tells its kind; `literal` encodes the literals in it. -/
def Node.toJson (literal : Literal → Json) : Node → Json
  | .program body =>
    .object [("type", .text "Program"), ("body", .list (Node.allToJson literal body))]
  | .function name parameters body =>
    .object [("type", .text "FunctionDeclaration"), ("name", .text name),
      ("params", .list (parameters.map Parameter.toJson)),
      ("body", .list (Node.allToJson literal body))]
  | .classType name members =>
    .object [("type", .text "ClassDeclaration"), ("name", .text name),
      ("members", .list (Member.allToJson literal members))]
  | .assignment name value =>
    .object [("type", .text "Assignment"), ("name", .text name), ("value", value.toJson literal)]
  | .conditional condition body none =>
    .object [("type", .text "IfStatement"), ("condition", condition.toJson literal),
      ("body", .list (Node.allToJson literal body)), ("else_body", .null)]
  | .conditional condition body (some otherwise) =>
    .object [("type", .text "IfStatement"), ("condition", condition.toJson literal),
      ("body", .list (Node.allToJson literal body)),
      ("else_body", .list (Node.allToJson literal otherwise))]
  | .whileLoop condition body =>
    .object [("type", .text "WhileLoop"), ("condition", condition.toJson literal),
      ("body", .list (Node.allToJson literal body))]
  | .forLoop start condition increment body =>
    .object [("type", .text "ForLoop"), ("init", start.toJson literal),
      ("condition", condition.toJson literal), ("increment", increment.toJson literal),
      ("body", .list (Node.allToJson literal body))]
  | .returning value => .object [("type", .text "ReturnStatement"), ("value", value.toJson literal)]
  | .attempt body handler =>
    .object [("type", .text "TryCatchStatement"),
      ("try_block", .list (Node.allToJson literal body)),
      ("catch_block", .list (Node.allToJson literal handler))]
  | .literal value => .object [("type", .text "Literal"), ("value", literal value)]
  | .binary left operator right =>
    .object [("type", .text "BinaryExpression"), ("left", left.toJson literal),
      ("operator", .text operator), ("right", right.toJson literal)]
  | .identifier name => .object [("type", .text "Identifier"), ("name", .text name)]
  | .array elements =>
    .object [("type", .text "Array"), ("elements", .list (Node.allToJson literal elements))]
  | .tuple elements =>
    .object [("type", .text "Tuple"), ("elements", .list (Node.allToJson literal elements))]
  | .enumeration name values =>
    .object [("type", .text "Enum"), ("name", .text name), ("values", .list (values.map Json.text))]
  | .record name fields =>
    .object [("type", .text "Struct"), ("name", .text name),
      ("fields", .list (fields.map Field.toJson))]

def Node.allToJson (literal : Literal → Json) : List Node → List Json
  | [] => []
  | node :: rest => node.toJson literal :: Node.allToJson literal rest

def Member.toJson (literal : Literal → Json) : Member → Json
  | .property type name value =>
    .object [("type", .text "Variable"), ("data_type", .text type), ("name", .text name),
      ("value", value.toJson literal)]
  | .method function => .object [("type", .text "Method"), ("function", function.toJson literal)]

def Member.allToJson (literal : Literal → Json) : List Member → List Json
  | [] => []
  | member :: rest => member.toJson literal :: Member.allToJson literal rest

end

end BraceCompiler
