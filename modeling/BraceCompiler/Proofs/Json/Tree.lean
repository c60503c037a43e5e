import BraceCompiler.Command.Plan
import BraceCompiler.Proofs.Json.Reader

/-! A tree is found again in its text. The decoder goes down the value that is read from the text, and takes each object
for the node that its first field names. -/

namespace BraceCompiler

def Literal.ofJson? : Json → Option Literal
  | .integer value => some (.integer value)
  | .text value => some (.text value)
  | .boolean value => some (.boolean value)
  | _ => none

def Json.text? : Json → Option String
  | .text value => some value
  | _ => none

def Parameter.ofJson? : Json → Option Parameter
  | .object [("name", .text name), ("type", .null)] => some ⟨name, none⟩
  | .object [("name", .text name), ("type", .text type)] => some ⟨name, some type⟩
  | _ => none

def Field.ofJson? : Json → Option Field
  | .object [("name", .text name), ("type", .text type)] => some ⟨name, type⟩
  | _ => none

mutual

/-- The node that an object stands for. -/
def Node.ofJson? : Json → Option Node
  | .object (("type", .text kind) :: fields) =>
    match kind, fields with
    | "Program", [("body", .list body)] => do return .program (← Node.allOfJson? body)
    | "FunctionDeclaration", [("name", .text name), ("params", .list parameters), ("body", .list body)] => do
      return .function name (← parameters.mapM Parameter.ofJson?) (← Node.allOfJson? body)
    | "ClassDeclaration", [("name", .text name), ("members", .list members)] => do
      return .classType name (← Member.allOfJson? members)
    | "Assignment", [("name", .text name), ("value", value)] => do return .assignment name (← Node.ofJson? value)
    | "IfStatement", [("condition", condition), ("body", .list body), ("else_body", .null)] => do
      return .conditional (← Node.ofJson? condition) (← Node.allOfJson? body) none
    | "IfStatement", [("condition", condition), ("body", .list body), ("else_body", .list otherwise)] => do
      return .conditional (← Node.ofJson? condition) (← Node.allOfJson? body) (some (← Node.allOfJson? otherwise))
    | "WhileLoop", [("condition", condition), ("body", .list body)] => do
      return .whileLoop (← Node.ofJson? condition) (← Node.allOfJson? body)
    | "ForLoop", [("init", start), ("condition", condition), ("increment", increment), ("body", .list body)] => do
      return .forLoop (← Node.ofJson? start) (← Node.ofJson? condition) (← Node.ofJson? increment)
        (← Node.allOfJson? body)
    | "ReturnStatement", [("value", value)] => do return .returning (← Node.ofJson? value)
    | "TryCatchStatement", [("try_block", .list body), ("catch_block", .list handler)] => do
      return .attempt (← Node.allOfJson? body) (← Node.allOfJson? handler)
    | "Literal", [("value", value)] => do return .literal (← Literal.ofJson? value)
    | "BinaryExpression", [("left", left), ("operator", .text operator), ("right", right)] => do
      return .binary (← Node.ofJson? left) operator (← Node.ofJson? right)
    | "Identifier", [("name", .text name)] => some (.identifier name)
    | "Array", [("elements", .list elements)] => do return .array (← Node.allOfJson? elements)
    | "Tuple", [("elements", .list elements)] => do return .tuple (← Node.allOfJson? elements)
    | "Enum", [("name", .text name), ("values", .list values)] => do
      return .enumeration name (← values.mapM Json.text?)
    | "Struct", [("name", .text name), ("fields", .list fields)] => do
      return .record name (← fields.mapM Field.ofJson?)
    | _, _ => none
  | _ => none

def Node.allOfJson? : List Json → Option (List Node)
  | [] => some []
  | item :: rest => do return (← Node.ofJson? item) :: (← Node.allOfJson? rest)

def Member.ofJson? : Json → Option Member
  | .object [("type", .text "Variable"), ("data_type", .text type), ("name", .text name), ("value", value)] => do
    return .property type name (← Node.ofJson? value)
  | .object [("type", .text "Method"), ("function", declared)] => do return .method (← Node.ofJson? declared)
  | _ => none

def Member.allOfJson? : List Json → Option (List Member)
  | [] => some []
  | item :: rest => do return (← Member.ofJson? item) :: (← Member.allOfJson? rest)

end

/-- The tree that a text shows. -/
def Node.ofText? (text : String) : Option Node := (Json.read text).bind Node.ofJson?

def Literal.isExact : Literal → Bool
  | .real _ => false
  | _ => true

mutual

/-- No literal in the tree is a fraction. -/
def Node.isExact : Node → Bool
  | .program body => Node.allExact body
  | .function _ _ body => Node.allExact body
  | .classType _ members => Member.allExact members
  | .assignment _ value => value.isExact
  | .conditional condition body none => condition.isExact && Node.allExact body
  | .conditional condition body (some otherwise) =>
    condition.isExact && Node.allExact body && Node.allExact otherwise
  | .whileLoop condition body => condition.isExact && Node.allExact body
  | .forLoop start condition increment body =>
    start.isExact && condition.isExact && increment.isExact && Node.allExact body
  | .returning value => value.isExact
  | .attempt body handler => Node.allExact body && Node.allExact handler
  | .literal value => value.isExact
  | .binary left _ right => left.isExact && right.isExact
  | .identifier _ => true
  | .array elements => Node.allExact elements
  | .tuple elements => Node.allExact elements
  | .enumeration .. => true
  | .record .. => true

def Node.allExact : List Node → Bool
  | [] => true
  | node :: rest => node.isExact && Node.allExact rest

def Member.isExact : Member → Bool
  | .property _ _ value => value.isExact
  | .method function => function.isExact

def Member.allExact : List Member → Bool
  | [] => true
  | member :: rest => member.isExact && Member.allExact rest

end

theorem Json.text_text (value : String) : Json.text? (.text value) = some value := rfl

theorem Literal.ofJson_toJson {literal : Literal} (isExact : literal.isExact = true) :
    ofJson? literal.toJson = some literal := by
  cases literal with
  | real value => cases isExact
  | _ => rfl

theorem Parameter.ofJson_toJson (parameter : Parameter) : ofJson? parameter.toJson = some parameter := by
  obtain ⟨name, type⟩ := parameter
  cases type <;> rfl

theorem Field.ofJson_toJson (field : Field) : ofJson? field.toJson = some field := rfl

/-- What is made of two parts, if both are found. -/
theorem bind_found {α β : Type} {part : Option α} {next : α → Option β} {value : α} {made : β}
    (found : part = some value) (others : next value = some made) : part.bind next = some made :=
  Option.bind_eq_some_iff.mpr ⟨value, found, others⟩

mutual

-- In each case the decoder runs on the object of the node, and its parts are found in the order of the fields.
theorem Node.ofJson_toJson : (node : Node) → node.isExact = true →
    Node.ofJson? (node.toJson Literal.toJson) = some node
  | .program body, isExact => bind_found (Node.allOfJson_toJson body isExact) rfl
  | .function name parameters body, isExact =>
    bind_found (Json.mapM_decode Parameter.ofJson_toJson parameters) (bind_found (Node.allOfJson_toJson body isExact) rfl)
  | .classType name members, isExact => bind_found (Member.allOfJson_toJson members isExact) rfl
  | .assignment name value, isExact => bind_found (Node.ofJson_toJson value isExact) rfl
  | .conditional condition body none, isExact => by
      obtain ⟨exactCondition, exactBody⟩ := Bool.and_eq_true_iff.mp isExact
      exact bind_found (Node.ofJson_toJson condition exactCondition)
        (bind_found (Node.allOfJson_toJson body exactBody) rfl)
  | .conditional condition body (some otherwise), isExact => by
      obtain ⟨exactBoth, exactOtherwise⟩ := Bool.and_eq_true_iff.mp isExact
      obtain ⟨exactCondition, exactBody⟩ := Bool.and_eq_true_iff.mp exactBoth
      exact bind_found (Node.ofJson_toJson condition exactCondition)
        (bind_found (Node.allOfJson_toJson body exactBody)
          (bind_found (Node.allOfJson_toJson otherwise exactOtherwise) rfl))
  | .whileLoop condition body, isExact => by
      obtain ⟨exactCondition, exactBody⟩ := Bool.and_eq_true_iff.mp isExact
      exact bind_found (Node.ofJson_toJson condition exactCondition)
        (bind_found (Node.allOfJson_toJson body exactBody) rfl)
  | .forLoop start condition increment body, isExact => by
      obtain ⟨exactHead, exactBody⟩ := Bool.and_eq_true_iff.mp isExact
      obtain ⟨exactBoth, exactIncrement⟩ := Bool.and_eq_true_iff.mp exactHead
      obtain ⟨exactStart, exactCondition⟩ := Bool.and_eq_true_iff.mp exactBoth
      exact bind_found (Node.ofJson_toJson start exactStart)
        (bind_found (Node.ofJson_toJson condition exactCondition)
          (bind_found (Node.ofJson_toJson increment exactIncrement)
            (bind_found (Node.allOfJson_toJson body exactBody) rfl)))
  | .returning value, isExact => bind_found (Node.ofJson_toJson value isExact) rfl
  | .attempt body handler, isExact => by
      obtain ⟨exactBody, exactHandler⟩ := Bool.and_eq_true_iff.mp isExact
      exact bind_found (Node.allOfJson_toJson body exactBody)
        (bind_found (Node.allOfJson_toJson handler exactHandler) rfl)
  | .literal value, isExact => bind_found (Literal.ofJson_toJson isExact) rfl
  | .binary left operator right, isExact => by
      obtain ⟨exactLeft, exactRight⟩ := Bool.and_eq_true_iff.mp isExact
      exact bind_found (Node.ofJson_toJson left exactLeft) (bind_found (Node.ofJson_toJson right exactRight) rfl)
  | .identifier name, _ => rfl
  | .array elements, isExact => bind_found (Node.allOfJson_toJson elements isExact) rfl
  | .tuple elements, isExact => bind_found (Node.allOfJson_toJson elements isExact) rfl
  | .enumeration name values, _ => bind_found (Json.mapM_decode Json.text_text values) rfl
  | .record name fields, _ => bind_found (Json.mapM_decode Field.ofJson_toJson fields) rfl

theorem Node.allOfJson_toJson : (nodes : List Node) → Node.allExact nodes = true →
    Node.allOfJson? (Node.allToJson Literal.toJson nodes) = some nodes
  | [], _ => rfl
  | node :: rest, isExact => by
      obtain ⟨first, others⟩ := Bool.and_eq_true_iff.mp isExact
      exact bind_found (Node.ofJson_toJson node first) (bind_found (Node.allOfJson_toJson rest others) rfl)

theorem Member.ofJson_toJson : (member : Member) → member.isExact = true →
    Member.ofJson? (member.toJson Literal.toJson) = some member
  | .property _ _ value, isExact => bind_found (Node.ofJson_toJson value isExact) rfl
  | .method function, isExact => bind_found (Node.ofJson_toJson function isExact) rfl

theorem Member.allOfJson_toJson : (members : List Member) → Member.allExact members = true →
    Member.allOfJson? (Member.allToJson Literal.toJson members) = some members
  | [], _ => rfl
  | member :: rest, isExact => by
      obtain ⟨first, others⟩ := Bool.and_eq_true_iff.mp isExact
      exact bind_found (Member.ofJson_toJson member first) (bind_found (Member.allOfJson_toJson rest others) rfl)

end

theorem Json.text_exact (value : String) : (Json.text value).Exact := trivial

theorem Literal.toJson_exact {literal : Literal} (isExact : literal.isExact = true) : literal.toJson.Exact := by
  cases literal with
  | real value => cases isExact
  | _ => trivial

theorem Parameter.toJson_exact (parameter : Parameter) : parameter.toJson.Exact := by
  obtain ⟨name, type⟩ := parameter
  cases type <;> exact ⟨trivial, trivial, trivial⟩

theorem Field.toJson_exact (field : Field) : field.toJson.Exact := ⟨trivial, trivial, trivial⟩

mutual

theorem Node.toJson_exact : (node : Node) → node.isExact = true → (node.toJson Literal.toJson).Exact
  | .program body, isExact => ⟨trivial, Node.allToJson_exact body isExact, trivial⟩
  | .function _ parameters body, isExact =>
    ⟨trivial, trivial, Json.allExact_map Parameter.toJson_exact parameters, Node.allToJson_exact body isExact, trivial⟩
  | .classType _ members, isExact => ⟨trivial, trivial, Member.allToJson_exact members isExact, trivial⟩
  | .assignment _ value, isExact => ⟨trivial, trivial, Node.toJson_exact value isExact, trivial⟩
  | .conditional condition body none, isExact => by
      obtain ⟨exactCondition, exactBody⟩ := Bool.and_eq_true_iff.mp isExact
      exact ⟨trivial, Node.toJson_exact condition exactCondition, Node.allToJson_exact body exactBody, trivial, trivial⟩
  | .conditional condition body (some otherwise), isExact => by
      obtain ⟨exactBoth, exactOtherwise⟩ := Bool.and_eq_true_iff.mp isExact
      obtain ⟨exactCondition, exactBody⟩ := Bool.and_eq_true_iff.mp exactBoth
      exact ⟨trivial, Node.toJson_exact condition exactCondition, Node.allToJson_exact body exactBody,
        Node.allToJson_exact otherwise exactOtherwise, trivial⟩
  | .whileLoop condition body, isExact => by
      obtain ⟨exactCondition, exactBody⟩ := Bool.and_eq_true_iff.mp isExact
      exact ⟨trivial, Node.toJson_exact condition exactCondition, Node.allToJson_exact body exactBody, trivial⟩
  | .forLoop start condition increment body, isExact => by
      obtain ⟨exactHead, exactBody⟩ := Bool.and_eq_true_iff.mp isExact
      obtain ⟨exactBoth, exactIncrement⟩ := Bool.and_eq_true_iff.mp exactHead
      obtain ⟨exactStart, exactCondition⟩ := Bool.and_eq_true_iff.mp exactBoth
      exact ⟨trivial, Node.toJson_exact start exactStart, Node.toJson_exact condition exactCondition,
        Node.toJson_exact increment exactIncrement, Node.allToJson_exact body exactBody, trivial⟩
  | .returning value, isExact => ⟨trivial, Node.toJson_exact value isExact, trivial⟩
  | .attempt body handler, isExact => by
      obtain ⟨exactBody, exactHandler⟩ := Bool.and_eq_true_iff.mp isExact
      exact ⟨trivial, Node.allToJson_exact body exactBody, Node.allToJson_exact handler exactHandler, trivial⟩
  | .literal _, isExact => ⟨trivial, Literal.toJson_exact isExact, trivial⟩
  | .binary left _ right, isExact => by
      obtain ⟨exactLeft, exactRight⟩ := Bool.and_eq_true_iff.mp isExact
      exact ⟨trivial, Node.toJson_exact left exactLeft, trivial, Node.toJson_exact right exactRight, trivial⟩
  | .identifier _, _ => ⟨trivial, trivial, trivial⟩
  | .array elements, isExact => ⟨trivial, Node.allToJson_exact elements isExact, trivial⟩
  | .tuple elements, isExact => ⟨trivial, Node.allToJson_exact elements isExact, trivial⟩
  | .enumeration _ values, _ => ⟨trivial, trivial, Json.allExact_map Json.text_exact values, trivial⟩
  | .record _ fields, _ => ⟨trivial, trivial, Json.allExact_map Field.toJson_exact fields, trivial⟩

theorem Node.allToJson_exact : (nodes : List Node) → Node.allExact nodes = true →
    Json.AllExact (Node.allToJson Literal.toJson nodes)
  | [], _ => trivial
  | node :: rest, isExact => by
      obtain ⟨first, others⟩ := Bool.and_eq_true_iff.mp isExact
      exact ⟨Node.toJson_exact node first, Node.allToJson_exact rest others⟩

theorem Member.toJson_exact : (member : Member) → member.isExact = true → (member.toJson Literal.toJson).Exact
  | .property _ _ value, isExact => ⟨trivial, trivial, trivial, Node.toJson_exact value isExact, trivial⟩
  | .method function, isExact => ⟨trivial, Node.toJson_exact function isExact, trivial⟩

theorem Member.allToJson_exact : (members : List Member) → Member.allExact members = true →
    Json.AllExact (Member.allToJson Literal.toJson members)
  | [], _ => trivial
  | member :: rest, isExact => by
      obtain ⟨first, others⟩ := Bool.and_eq_true_iff.mp isExact
      exact ⟨Member.toJson_exact member first, Member.allToJson_exact rest others⟩

end

/-- The text of a tree, as a run that stops at the tree gives it. -/
def Node.dump (node : Node) : String := (node.toJson Literal.toJson).pretty 0

theorem Node.ofText_dump {node : Node} (isExact : node.isExact = true) {last : String}
    (blank : last.toList.all Json.isBlank = true) : Node.ofText? (node.dump ++ last) = some node := by
  have found := Json.readable_pretty 0 _ (node.toJson_exact isExact)
  rw [Node.ofText?, Node.dump, found.read blank, Option.bind_some, node.ofJson_toJson isExact]

/-- A tree without fractions is found again in its text, so trees with one text are one tree. What a run writes of the
tree of a source shows that tree. -/
theorem tree_found_in_text :
    (∀ node : Node, node.isExact = true → Node.ofText? node.dump = some node) ∧
    (∀ first second : Node, first.isExact = true → second.isExact = true → first.dump = second.dump → first = second) ∧
    ∀ source text notes, Command.Stage.tree.text source = .ok (text, notes) →
      ∃ program, parse (tokensOf source) = .ok program ∧
        (program.isExact = true → Node.ofText? (Command.written text) = some program) := by
  have found : ∀ node : Node, node.isExact = true → Node.ofText? node.dump = some node := by
    intro node isExact
    have read : Node.ofText? (node.dump ++ "") = some node := Node.ofText_dump isExact rfl
    rwa [String.append_empty] at read
  refine ⟨found, ?_, ?_⟩
  · intro first second exactFirst exactSecond same
    have read := congrArg Node.ofText? same
    rw [found first exactFirst, found second exactSecond] at read
    exact Option.some.inj read
  · intro source text notes shown
    cases parsed : parse (tokensOf source) with
    | error fault =>
        rw [Command.Stage.text, parsed] at shown
        cases shown
    | ok program =>
        rw [Command.Stage.text, parsed] at shown
        cases shown
        exact ⟨program, rfl, fun isExact => Node.ofText_dump isExact rfl⟩

/-- Texts that look like other values, names with escapes, and blocks that are missing or empty. -/
def lookalikeTree : Node := .program [
  .conditional (.literal (.text "1")) [.returning (.literal (.text "null"))] none,
  .conditional (.literal (.integer (-1))) [.returning (.literal (.boolean true))] (some []),
  .classType "\"\\\n" [
    .property "int" "a" (.array []),
    .method (.function "f" [⟨"x", none⟩, ⟨"y", some "null"⟩] [.assignment "x" (.tuple [.identifier "é"])])],
  .enumeration "E" [],
  .record "S" [⟨"type", "\u0001"⟩]]

theorem tree_found_in_text_lookalikes : lookalikeTree.isExact = true ∧
    Node.ofText? lookalikeTree.dump = some lookalikeTree ∧
    (Node.literal (.integer 1)).dump ≠ (Node.literal (.text "1")).dump ∧
    ∃ program, parse (tokensOf "return \"1\";") = .ok program ∧ program.isExact = true ∧
      Node.ofText? (Command.written (Node.program [.returning (.literal (.text "1"))]).dump) = some program := by
  obtain ⟨found, same, stage⟩ := tree_found_in_text
  have isExact : lookalikeTree.isExact = true := by decide
  have tokens : tokensOf "return \"1\";" = [⟨.keyword, "return", ⟨1, 1⟩⟩, ⟨.text, "\"1\"", ⟨1, 8⟩⟩,
      ⟨.delimiter, ";", ⟨1, 11⟩⟩] := by decide
  have parsed : parse (tokensOf "return \"1\";") = .ok (.program [.returning (.literal (.text "1"))]) := by
    rw [tokens]
    rfl
  have shown : Command.Stage.tree.text "return \"1\";" =
      .ok ((Node.program [.returning (.literal (.text "1"))]).dump, []) := by
    rw [Command.Stage.text, parsed]
    rfl
  obtain ⟨program, reparsed, read⟩ := stage _ _ _ shown
  rw [parsed] at reparsed
  cases reparsed
  refine ⟨isExact, found _ isExact, ?_, _, parsed, rfl, read rfl⟩
  intro shared
  have one := same _ _ rfl rfl shared
  cases one

end BraceCompiler
