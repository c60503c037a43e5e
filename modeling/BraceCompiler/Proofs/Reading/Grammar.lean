import BraceCompiler.Proofs.Reading.Sequence
import BraceCompiler.Reading.Cursor

/-! The grammar of the language, apart from any reader of it. Every phrase is marked with the depth at
which it stands, and a depth above the limit has no phrases. An operand stands one level deeper than
the operand before it, and a block in braces one level deeper than its statement; the braces of a class
add nothing. -/

namespace BraceCompiler.Grammar

/-- The operations on a first operand, all of one strength, grouped from the left. -/
def chained (first : Node) (operations : List (String × Node)) : Node :=
  operations.foldl (fun left operation => .binary left operation.1 operation.2) first

mutual

/-- A first term and the operations on it. -/
inductive Expression (limit : Nat) : (depth : Nat) → Phrase Node
  | chain {depth word rest first operations} :
      Term limit (depth + 1) word first → Operations limit (depth + 1) rest operations →
      depth + 1 + operations.length ≤ limit →
      Expression limit depth (word ++ rest) (chained first operations)

/-- Operators with their right operands, each one level deeper than the last. -/
inductive Operations (limit : Nat) : (depth : Nat) → Phrase (List (String × Node))
  | nil {depth} : Operations limit depth [] []
  | cons {depth operator word operand rest operations} :
      Term limit (depth + 1) word operand → Operations limit (depth + 1) rest operations →
      Operations limit depth (⟨.operator, operator⟩ :: word ++ rest) ((operator, operand) :: operations)

inductive Term (limit : Nat) : (depth : Nat) → Phrase Node
  | integer {depth lexeme value} : Number.readInteger lexeme.toList = some value →
      Term limit depth [⟨.number, lexeme⟩] (.literal (.integer value))
  | real {depth lexeme value} : Number.readReal lexeme.toList = some value →
      Term limit depth [⟨.float, lexeme⟩] (.literal (.real value))
  | text {depth lexeme} : Term limit depth [⟨.text, lexeme⟩] (.literal (.text (unquoted lexeme)))
  | boolean {depth lexeme} : Term limit depth [⟨.boolean, lexeme⟩] (.literal (.boolean (lexeme == "true")))
  | identifier {depth name} : Term limit depth [⟨.identifier, name⟩] (.identifier name)
  | emptyArray {depth} : Term limit depth [⟨.arrayStart, "["⟩, ⟨.arrayEnd, "]"⟩] (.array [])
  | array {depth word elements} : Elements limit depth word elements →
      Term limit depth (⟨.arrayStart, "["⟩ :: word ++ [⟨.arrayEnd, "]"⟩]) (.array elements)
  | emptyTuple {depth} : Term limit depth [⟨.tupleStart, "("⟩, ⟨.tupleEnd, ")"⟩] (.tuple [])
  /-- One expression in parentheses is that expression. -/
  | group {depth word value} : Expression limit depth word value →
      Term limit depth (⟨.tupleStart, "("⟩ :: word ++ [⟨.tupleEnd, ")"⟩]) value
  /-- A tuple has two elements or more. -/
  | tuple {depth word first rest elements} :
      Expression limit depth word first → Elements limit depth rest elements →
      Term limit depth (⟨.tupleStart, "("⟩ :: word ++ ⟨.comma, ","⟩ :: rest ++ [⟨.tupleEnd, ")"⟩])
        (.tuple (first :: elements))

/-- One expression or more, divided by commas. -/
inductive Elements (limit : Nat) : (depth : Nat) → Phrase (List Node)
  | one {depth word value} : Expression limit depth word value → Elements limit depth word [value]
  | more {depth word value rest values} :
      Expression limit depth word value → Elements limit depth rest values →
      Elements limit depth (word ++ ⟨.comma, ","⟩ :: rest) (value :: values)

end

/-- A parameter with or without its type. -/
inductive OneParameter : Phrase Parameter
  | untyped {name} : OneParameter [⟨.identifier, name⟩] ⟨name, none⟩
  | typed {name type} :
      OneParameter [⟨.identifier, name⟩, ⟨.colon, ":"⟩, ⟨.dataType, type⟩] ⟨name, some type⟩

inductive Parameters : Phrase (List Parameter)
  | none : Parameters [] []
  | some {word parameters} : Separated OneParameter word parameters → Parameters word parameters

/-- A name, an equals sign and a value, with or without a semicolon. -/
inductive Assignment (limit depth : Nat) : Phrase Node
  | plain {name word value} : Expression limit depth word value →
      Assignment limit depth (⟨.identifier, name⟩ :: ⟨.assignment, "="⟩ :: word) (.assignment name value)
  | closed {name word value} : Expression limit depth word value →
      Assignment limit depth
        (⟨.identifier, name⟩ :: ⟨.assignment, "="⟩ :: word ++ [⟨.delimiter, ";"⟩]) (.assignment name value)

mutual

inductive Statement (limit : Nat) : (depth : Nat) → Phrase Node
  | assignment {depth word node} : Assignment limit depth word node → Statement limit depth word node
  /-- A declarator before an assignment is passed over. -/
  | declaration {depth word node} : Assignment limit depth word node →
      Statement limit depth (⟨.identifier, Words.declarator⟩ :: word) node
  | function {depth word node} : Function limit depth word node →
      Statement limit depth (⟨.keyword, "function"⟩ :: word) node
  | classType {depth name word members} : Members limit depth word members →
      Statement limit depth
        (⟨.keyword, "class"⟩ :: ⟨.identifier, name⟩ :: ⟨.delimiter, Reader.opening⟩ :: word ++
          [⟨.delimiter, Reader.closing⟩]) (.classType name members)
  | conditional {depth test condition block body} :
      Expression limit depth test condition → Block limit depth block body →
      Statement limit depth
        (⟨.keyword, "if"⟩ :: ⟨.tupleStart, "("⟩ :: test ++ ⟨.tupleEnd, ")"⟩ :: block)
        (.conditional condition body none)
  | alternative {depth test condition block body block' otherwise} :
      Expression limit depth test condition → Block limit depth block body →
      Block limit depth block' otherwise →
      Statement limit depth
        (⟨.keyword, "if"⟩ :: ⟨.tupleStart, "("⟩ :: test ++ ⟨.tupleEnd, ")"⟩ :: block ++
          ⟨.keyword, "else"⟩ :: block') (.conditional condition body (some otherwise))
  | whileLoop {depth test condition block body} :
      Expression limit depth test condition → Block limit depth block body →
      Statement limit depth
        (⟨.keyword, "while"⟩ :: ⟨.tupleStart, "("⟩ :: test ++ ⟨.tupleEnd, ")"⟩ :: block)
        (.whileLoop condition body)
  | forLoop {depth initial start test condition step increment block body} :
      Assignment limit depth initial start → Expression limit depth test condition →
      Expression limit depth step increment → Block limit depth block body →
      Statement limit depth
        (⟨.keyword, "for"⟩ :: ⟨.tupleStart, "("⟩ :: initial ++ test ++ ⟨.delimiter, ";"⟩ :: step ++
          ⟨.tupleEnd, ")"⟩ :: block) (.forLoop start condition increment body)
  | returning {depth word value} : Expression limit depth word value →
      Statement limit depth (⟨.keyword, "return"⟩ :: word ++ [⟨.delimiter, ";"⟩]) (.returning value)

/-- What follows the word `function`. -/
inductive Function (limit : Nat) : (depth : Nat) → Phrase Node
  | declaration {depth name word parameters block body} :
      Parameters word parameters → Block limit depth block body →
      Function limit depth
        (⟨.identifier, name⟩ :: ⟨.tupleStart, "("⟩ :: word ++ ⟨.tupleEnd, ")"⟩ :: block)
        (.function name parameters body)

/-- A member of a class; a property may have a semicolon after it. -/
inductive OneMember (limit : Nat) : (depth : Nat) → Phrase Member
  | property {depth type name word value} : Expression limit depth word value →
      OneMember limit depth (⟨.dataType, type⟩ :: ⟨.identifier, name⟩ :: ⟨.assignment, "="⟩ :: word)
        (.property type name value)
  | closedProperty {depth type name word value} : Expression limit depth word value →
      OneMember limit depth
        (⟨.dataType, type⟩ :: ⟨.identifier, name⟩ :: ⟨.assignment, "="⟩ :: word ++ [⟨.delimiter, ";"⟩])
        (.property type name value)
  | method {depth word function} : Function limit depth word function →
      OneMember limit depth (⟨.keyword, "function"⟩ :: word) (.method function)

inductive Members (limit : Nat) : (depth : Nat) → Phrase (List Member)
  | nil {depth} : Members limit depth [] []
  | cons {depth word member rest members} :
      OneMember limit depth word member → Members limit depth rest members →
      Members limit depth (word ++ rest) (member :: members)

/-- A block in braces. -/
inductive Block (limit : Nat) : (depth : Nat) → Phrase (List Node)
  | braces {depth word body} : depth < limit → Statements limit (depth + 1) word body →
      Block limit depth (⟨.delimiter, Reader.opening⟩ :: word ++ [⟨.delimiter, Reader.closing⟩]) body

inductive Statements (limit : Nat) : (depth : Nat) → Phrase (List Node)
  | nil {depth} : Statements limit depth [] []
  | cons {depth word node rest nodes} :
      Statement limit depth word node → Statements limit depth rest nodes →
      Statements limit depth (word ++ rest) (node :: nodes)

end

end BraceCompiler.Grammar
