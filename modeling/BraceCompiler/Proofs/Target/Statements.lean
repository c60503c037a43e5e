import BraceCompiler.Proofs.Target.Expressions
import BraceCompiler.Proofs.Target.Lines

/-! The lines that are written for a statement are cut and read back as that statement, without its
empty `else` blocks. Blocks keep their depth, so only expressions can need more levels than before. -/

namespace BraceCompiler

open Grammar Step

variable {limit depth : Nat}

/-- Every expression fits when it is written with all its parentheses. -/
def Fits (limit : Nat) (values : List (Nat × Node)) : Prop :=
  ∀ value ∈ values, value.1 + 2 * value.2.height ≤ limit + 1

namespace Fits

variable {node : Node} {values others : List (Nat × Node)}

theorem head (fits : Fits limit ((depth, node) :: values)) : depth + 2 * node.height ≤ limit + 1 :=
  fits (depth, node) List.mem_cons_self

theorem tail {value : Nat × Node} (fits : Fits limit (value :: values)) : Fits limit values :=
  fun other member => fits other (List.mem_cons_of_mem _ member)

theorem left (fits : Fits limit (values ++ others)) : Fits limit values :=
  fun value member => fits value (List.mem_append_left _ member)

theorem right (fits : Fits limit (values ++ others)) : Fits limit others :=
  fun value member => fits value (List.mem_append_right _ member)

end Fits

theorem Symbol.Plain.name {name : String} (plain : Symbol.Plain ⟨.identifier, name⟩) :
    Word name [⟨.identifier, name⟩] := word_identifier plain.belongs (plain.unreserved rfl)

theorem Symbol.Plain.type {type : String} (plain : Symbol.Plain ⟨.dataType, type⟩) :
    Word type [⟨.dataType, type⟩] := by
  have listed := plain.belongs
  rw [TokenKind.Language, String.ofList_toList] at listed
  exact word_dataType listed

theorem Grammar.OneParameter.word {word : List Symbol} {parameter : Parameter} (plain : PlainWord word)
    (stands : OneParameter word parameter) : Word parameter.render word := by
  cases stands with
  | untyped => exact plain.head.name
  | typed => exact plain.head.name.between mark_colon plain.tail.tail.head.type

theorem Separated.word {word : List Symbol} {parameters : List Parameter} (plain : PlainWord word)
    (stand : Separated OneParameter word parameters) :
    Word (", ".intercalate (parameters.map Parameter.render)) word := by
  induction stand with
  | one stands =>
      rw [List.map_singleton, String.intercalate_singleton]
      exact stands.word plain
  | @more _ _ _ parameters stands others ih =>
      have joined := (stands.word plain.left).between mark_commaSpace (ih plain.right.tail)
      have some : parameters.map Parameter.render ≠ [] := by
        cases others <;> exact List.cons_ne_nil _ _
      rw [List.map_cons, String.intercalate_cons_of_ne_nil some]
      simpa only [List.append_assoc, List.singleton_append] using joined

theorem Grammar.Parameters.word {word : List Symbol} {parameters : List Parameter} (plain : PlainWord word)
    (stand : Parameters word parameters) :
    Word (", ".intercalate (parameters.map Parameter.render)) word := by
  cases stand with
  | none => exact ⟨fun _ _ lexes => lexes⟩
  | some stand => exact stand.word plain

/-- A head with its brace, the lines inside, and the closing brace. -/
theorem Lines.braces {head : String} {lines : List String} {symbols inside : List Symbol}
    (word : Word head symbols) (stand : Lines lines inside) :
    Lines (blockLine head :: lines ++ ["\x7d"])
      (symbols ++ (⟨.delimiter, Reader.opening⟩ :: inside ++ [⟨.delimiter, Reader.closing⟩])) := by
  have opening : Word (blockLine head) (symbols ++ [⟨.delimiter, Reader.opening⟩]) :=
    word.append_mark (mark_space.append mark_opening)
  have closing : Lines ["\x7d"] [⟨.delimiter, Reader.closing⟩] := .one mark_closing.word
  have all := Lines.cons opening (stand.append closing)
  simpa only [List.append_assoc, List.cons_append, List.nil_append] using all

theorem mark_spaceParen : Mark " (" [⟨.tupleStart, "("⟩] := mark_space.append mark_tupleStart

/-- A keyword and an expression in parentheses. -/
theorem Word.condition {word text : String} {symbols : List Symbol} (keyword : Word word [⟨.keyword, word⟩])
    (expression : Word text symbols) :
    Word (word ++ " (" ++ text ++ ")")
      (⟨.keyword, word⟩ :: ⟨.tupleStart, "("⟩ :: symbols ++ [⟨.tupleEnd, ")"⟩]) :=
  (keyword.between mark_spaceParen expression).append_mark mark_tupleEnd

theorem Word.functionHead {name : String} {parameters : List Parameter} {symbols : List Symbol}
    (word : Word name [⟨.identifier, name⟩])
    (inside : Word (", ".intercalate (parameters.map Parameter.render)) symbols) :
    Word (Node.functionHead name parameters) (⟨.keyword, "function"⟩ :: ⟨.identifier, name⟩ ::
      ⟨.tupleStart, "("⟩ :: symbols ++ [⟨.tupleEnd, ")"⟩]) := by
  have keyword : Word "function" [⟨.keyword, "function"⟩] := word_keyword (by decide) (by decide)
  have spaced : "function " = "function" ++ " " := by decide
  rw [Node.functionHead, spaced]
  exact ((keyword.between mark_space word).between mark_tupleStart inside).append_mark mark_tupleEnd

/-- The lines of the statement are read back as the statement. -/
def StatementPrinted (limit depth : Nat) (node : Node) : Prop :=
  ∃ symbols, Lines (linesOf node.steps) symbols ∧ Statement limit depth symbols node.withoutEmptyElse

/-- The lines of the statements, in braces, are read back as a block. -/
def BlockPrinted (limit depth : Nat) (body : List Node) : Prop :=
  ∃ symbols, Lines (linesOf (Node.allSteps body)) symbols ∧
    Block limit depth (⟨.delimiter, Reader.opening⟩ :: symbols ++ [⟨.delimiter, Reader.closing⟩])
      (Node.allWithoutEmptyElse body)

/-- The lines of the function are read back as the function. -/
def FunctionPrinted (limit depth : Nat) (node : Node) : Prop :=
  node.isFunction = true ∧ ∃ symbols, Lines (linesOf node.steps) (⟨.keyword, "function"⟩ :: symbols) ∧
    Function limit depth symbols node.withoutEmptyElse

/-- The lines of the members are read back as the members. -/
def MembersPrinted (limit depth : Nat) (members : List Member) : Prop :=
  ∃ symbols, Lines (linesOf (Node.memberSteps members)) symbols ∧
    Members limit depth symbols (Node.membersWithoutEmptyElse members)

namespace StatementPrinted

variable {condition value : Node} {body : List Node}

theorem assignment {name : String} (word : Word name [⟨.identifier, name⟩]) (printed : Printed value)
    (fits : depth + 2 * value.height ≤ limit + 1) :
    StatementPrinted limit depth (.assignment name value) := by
  obtain ⟨text, symbols, printed⟩ := printed
  refine ⟨_, ?_, .assignment (.closed (printed.expression fits))⟩
  have line : linesOf (Node.assignment name value).steps = [name ++ " = " ++ text ++ ";"] := by
    rw [Node.steps, printed.value]
    rfl
  rw [line]
  exact .one ((word.between mark_assignment printed.word).append_mark mark_semicolon)

theorem returning (printed : Printed value) (fits : depth + 2 * value.height ≤ limit + 1) :
    StatementPrinted limit depth (.returning value) := by
  obtain ⟨text, symbols, printed⟩ := printed
  refine ⟨_, ?_, .returning (printed.expression fits)⟩
  have line : linesOf (Node.returning value).steps = ["return " ++ text ++ ";"] := by
    rw [Node.steps, printed.value]
    rfl
  have keyword : Word "return" [⟨.keyword, "return"⟩] := word_keyword (by decide) (by decide)
  have spaced : "return " = "return" ++ " " := by decide
  rw [line, spaced]
  exact .one ((keyword.between mark_space printed.word).append_mark mark_semicolon)

/-- A keyword, an expression in parentheses and a block. -/
theorem head {word text : String} {symbols inside : List Symbol} {lines : List String}
    (listed : word ∈ Words.keywords) (other : word ≠ Words.declarator) (expression : Word text symbols)
    (stand : Lines lines inside) :
    Lines (blockLine (word ++ " (" ++ text ++ ")") :: lines ++ ["\x7d"])
      (⟨.keyword, word⟩ :: ⟨.tupleStart, "("⟩ :: symbols ++ ⟨.tupleEnd, ")"⟩ ::
        (⟨.delimiter, Reader.opening⟩ :: inside ++ [⟨.delimiter, Reader.closing⟩])) := by
  have all := Lines.braces ((word_keyword listed other).condition expression) stand
  simpa only [List.append_assoc, List.cons_append, List.nil_append] using all

theorem whileLoop (printed : Printed condition) (fits : depth + 2 * condition.height ≤ limit + 1)
    (inside : BlockPrinted limit depth body) : StatementPrinted limit depth (.whileLoop condition body) := by
  obtain ⟨text, symbols, printed⟩ := printed
  obtain ⟨lines, stand, block⟩ := inside
  refine ⟨_, ?_, .whileLoop (printed.expression fits) block⟩
  have written : linesOf (Node.whileLoop condition body).steps =
      blockLine ("while" ++ " (" ++ text ++ ")") :: linesOf (Node.allSteps body) ++ ["\x7d"] := by
    rw [Node.steps, printed.value]
    exact linesOf_inBraces ("while (" ++ text ++ ")") _
  rw [written]
  exact head (by decide) (by decide) printed.word stand

/-- The first block of a conditional. -/
theorem conditionalLines {text : String} {symbols inside : List Symbol}
    (printed : PrintedAs condition text symbols) (stand : Lines (linesOf (Node.allSteps body)) inside) :
    Lines (linesOf (inBraces (do return "if (" ++ (← condition.value) ++ ")") (Node.allSteps body)))
      (⟨.keyword, "if"⟩ :: ⟨.tupleStart, "("⟩ :: symbols ++ ⟨.tupleEnd, ")"⟩ ::
        (⟨.delimiter, Reader.opening⟩ :: inside ++ [⟨.delimiter, Reader.closing⟩])) := by
  have written : linesOf (inBraces (do return "if (" ++ (← condition.value) ++ ")") (Node.allSteps body)) =
      blockLine ("if" ++ " (" ++ text ++ ")") :: linesOf (Node.allSteps body) ++ ["\x7d"] := by
    rw [printed.value]
    exact linesOf_inBraces ("if (" ++ text ++ ")") _
  rw [written]
  exact head (by decide) (by decide) printed.word stand

/-- A conditional without an `else` block, or with an empty one. -/
theorem conditional {otherwise : Option (List Node)} (empty : otherwise = none ∨ otherwise = some [])
    (printed : Printed condition) (fits : depth + 2 * condition.height ≤ limit + 1)
    (inside : BlockPrinted limit depth body) :
    StatementPrinted limit depth (.conditional condition body otherwise) := by
  obtain ⟨text, symbols, printed⟩ := printed
  obtain ⟨lines, stand, block⟩ := inside
  have written := conditionalLines printed stand
  have statement := Statement.conditional (printed.expression fits) block
  rcases empty with rfl | rfl
  all_goals
    refine ⟨_, ?_, statement⟩
    rwa [Node.steps, List.append_nil]

theorem alternative {otherwise : List Node} (printed : Printed condition)
    (fits : depth + 2 * condition.height ≤ limit + 1) (inside : BlockPrinted limit depth body)
    (insideOther : BlockPrinted limit depth otherwise) :
    StatementPrinted limit depth (.conditional condition body (some otherwise)) := by
  cases otherwise with
  | nil => exact conditional (.inr rfl) printed fits inside
  | cons first rest =>
      obtain ⟨text, symbols, printed⟩ := printed
      obtain ⟨lines, stand, block⟩ := inside
      obtain ⟨others, standOthers, blockOther⟩ := insideOther
      have keyword : Word "else" [⟨.keyword, "else"⟩] := word_keyword (by decide) (by decide)
      have written := (conditionalLines printed stand).append (Lines.braces keyword standOthers)
      rw [← linesOf_inBraces, ← linesOf_append] at written
      refine ⟨_, ?_, .alternative (printed.expression fits) block blockOther⟩
      rw [Node.steps, ← Node.allSteps]
      simpa only [List.append_assoc, List.cons_append, List.nil_append] using written

theorem function {node : Node} (printed : FunctionPrinted limit depth node) :
    StatementPrinted limit depth node := by
  obtain ⟨-, symbols, stand, function⟩ := printed
  exact ⟨_, stand, .function function⟩

theorem classType {name : String} {members : List Member} (word : Word name [⟨.identifier, name⟩])
    (printed : MembersPrinted limit depth members) :
    StatementPrinted limit depth (.classType name members) := by
  obtain ⟨symbols, stand, members⟩ := printed
  refine ⟨_, ?_, .classType members⟩
  have keyword : Word "class" [⟨.keyword, "class"⟩] := word_keyword (by decide) (by decide)
  have spaced : "class " = "class" ++ " " := by decide
  rw [Node.steps, linesOf_inBraces, spaced]
  exact Lines.braces (keyword.between mark_space word) stand

theorem forLoop {name : String} {increment : Node} (word : Word name [⟨.identifier, name⟩])
    (printed : Printed value) (fits : depth + 2 * value.height ≤ limit + 1)
    (printedCondition : Printed condition) (fitsCondition : depth + 2 * condition.height ≤ limit + 1)
    (printedIncrement : Printed increment) (fitsIncrement : depth + 2 * increment.height ≤ limit + 1)
    (inside : BlockPrinted limit depth body) :
    StatementPrinted limit depth (.forLoop (.assignment name value) condition increment body) := by
  obtain ⟨text, symbols, printed⟩ := printed
  obtain ⟨conditionText, conditionSymbols, printedCondition⟩ := printedCondition
  obtain ⟨incrementText, incrementSymbols, printedIncrement⟩ := printedIncrement
  obtain ⟨lines, stand, block⟩ := inside
  have start : Assignment limit depth _ (.assignment name value) := .closed (printed.expression fits)
  have headText : Node.forHead (.assignment name value) condition increment =
      .ok ("for" ++ " (" ++ (name ++ " = " ++ text) ++ "; " ++ conditionText ++ "; " ++ incrementText ++
        ")") := by
    rw [Node.forHead, Node.startText, printed.value, printedCondition.value, printedIncrement.value]
    rfl
  have keyword : Word "for" [⟨.keyword, "for"⟩] := word_keyword (by decide) (by decide)
  have semicolon : Mark "; " [⟨.delimiter, ";"⟩] := mark_semicolon.append mark_space
  have first := keyword.between mark_spaceParen (word.between mark_assignment printed.word)
  have head := ((first.between semicolon printedCondition.word).between semicolon
    printedIncrement.word).append_mark mark_tupleEnd
  refine ⟨_, ?_, .forLoop start (printedCondition.expression fitsCondition)
    (printedIncrement.expression fitsIncrement) block⟩
  have unwritten : linesOf [.assign name value.value] = [] := rfl
  rw [Node.steps, Node.startSteps, headText, linesOf_append, linesOf_inBraces, unwritten]
  have all := Lines.braces head stand
  simpa only [List.append_assoc, List.cons_append, List.nil_append] using all

end StatementPrinted

theorem FunctionPrinted.declaration {name : String} {parameters : List Parameter} {symbols : List Symbol}
    {body : List Node} (word : Word name [⟨.identifier, name⟩]) (plain : PlainWord symbols)
    (stand : Parameters symbols parameters) (inside : BlockPrinted limit depth body) :
    FunctionPrinted limit depth (.function name parameters body) := by
  obtain ⟨lines, standLines, block⟩ := inside
  refine ⟨rfl, _, ?_, .declaration stand block⟩
  have unwritten : linesOf (.enter name parameters :: Node.allSteps body) =
      linesOf (Node.allSteps body) := rfl
  have all := Lines.braces (word.functionHead (stand.word plain)) standLines
  rw [Node.steps, linesOf_inBraces, unwritten]
  simpa only [List.append_assoc, List.cons_append, List.nil_append] using all

namespace MembersPrinted

variable {members : List Member}

theorem nil : MembersPrinted limit depth [] := ⟨[], .nil, .nil⟩

theorem property {type name : String} {value : Node} (typeWord : Word type [⟨.dataType, type⟩])
    (word : Word name [⟨.identifier, name⟩]) (printed : Printed value)
    (fits : depth + 2 * value.height ≤ limit + 1) (others : MembersPrinted limit depth members) :
    MembersPrinted limit depth (.property type name value :: members) := by
  obtain ⟨text, symbols, printed⟩ := printed
  obtain ⟨more, stand, members⟩ := others
  refine ⟨_, ?_, .cons (.closedProperty (printed.expression fits)) members⟩
  have line := ((typeWord.between mark_space word).between mark_assignment printed.word).append_mark
    mark_semicolon
  rw [Node.memberSteps, printed.value]
  exact .cons line stand

theorem method {declared : Node} (printed : FunctionPrinted limit depth declared)
    (others : MembersPrinted limit depth members) :
    MembersPrinted limit depth (.method declared :: members) := by
  obtain ⟨isFunction, symbols, stand, function⟩ := printed
  obtain ⟨more, standOthers, members⟩ := others
  refine ⟨_, ?_, .cons (.method function) members⟩
  rw [Node.memberSteps, if_pos isFunction, linesOf_append]
  exact stand.append standOthers

end MembersPrinted

section

variable {more : Nat} {word : List Symbol}

theorem Grammar.Assignment.printed {node : Node} (stands : Assignment limit depth word node)
    (plain : PlainWord word) : ∃ name value, node = .assignment name value ∧
      Word name [⟨.identifier, name⟩] ∧ Printed value := by
  cases stands with
  | plain expression => exact ⟨_, _, rfl, plain.head.name, expression.printed plain.tail.tail⟩
  | closed expression => exact ⟨_, _, rfl, plain.head.name, expression.printed plain.left.tail.tail⟩

mutual

/-- Every statement that plain symbols form is written and read back, if there is room for its
expressions. -/
theorem Grammar.Statement.printed {depth : Nat} {word : List Symbol} {node : Node} (less : limit ≤ more) :
    Statement limit depth word node → PlainWord word → Fits more (node.values depth) →
      StatementPrinted more depth node
  | .assignment stands, plain, fits => by
      obtain ⟨name, value, rfl, word, printed⟩ := stands.printed plain
      exact .assignment word printed fits.head
  | .declaration stands, plain, fits => by
      obtain ⟨name, value, rfl, word, printed⟩ := stands.printed plain.tail
      exact .assignment word printed fits.head
  | .function function, plain, fits => .function (function.printed less plain.tail fits)
  | .classType members, plain, fits =>
      .classType plain.left.tail.head.name (members.printed less plain.left.tail.tail.tail fits)
  | .conditional condition inside, plain, fits =>
      .conditional (.inl rfl) (condition.printed plain.left.tail.tail) fits.head
        (inside.printed less plain.right.tail fits.tail.left)
  | .alternative condition inside otherwise, plain, fits =>
      .alternative (condition.printed plain.left.left.tail.tail) fits.head
        (inside.printed less plain.left.right.tail fits.tail.left)
        (otherwise.printed less plain.right.tail fits.tail.right)
  | .whileLoop condition inside, plain, fits =>
      .whileLoop (condition.printed plain.left.tail.tail) fits.head
        (inside.printed less plain.right.tail fits.tail)
  | .forLoop start condition increment inside, plain, fits => by
      obtain ⟨name, value, rfl, word, printed⟩ := start.printed plain.left.left.left.tail.tail
      exact .forLoop word printed fits.left.head (condition.printed plain.left.left.right) fits.right.head
        (increment.printed plain.left.right.tail) fits.right.tail.head
        (inside.printed less plain.right.tail fits.right.tail.tail)
  | .returning value, plain, fits => .returning (value.printed plain.left.tail) fits.head

theorem Grammar.Function.printed {depth : Nat} {word : List Symbol} {node : Node} (less : limit ≤ more) :
    Function limit depth word node → PlainWord word → Fits more (node.values depth) →
      FunctionPrinted more depth node
  | .declaration parameters inside, plain, fits =>
      .declaration plain.left.head.name plain.left.tail.tail parameters
        (inside.printed less plain.right.tail fits)

theorem Grammar.OneMember.printed {depth : Nat} {word : List Symbol} {member : Member} (less : limit ≤ more) :
    OneMember limit depth word member → PlainWord word → Fits more (Node.memberValues depth [member]) →
      ∀ {members}, MembersPrinted more depth members → MembersPrinted more depth (member :: members)
  | .property value, plain, fits, _, others =>
      .property plain.head.type plain.tail.head.name (value.printed plain.tail.tail.tail) fits.head others
  | .closedProperty value, plain, fits, _, others =>
      .property plain.left.head.type plain.left.tail.head.name (value.printed plain.left.tail.tail.tail)
        fits.head others
  | .method function, plain, fits, _, others => .method (function.printed less plain.tail fits.left) others

theorem Grammar.Members.printed {depth : Nat} {word : List Symbol} {members : List Member}
    (less : limit ≤ more) :
    Members limit depth word members → PlainWord word → Fits more (Node.memberValues depth members) →
      MembersPrinted more depth members
  | .nil, _, _ => .nil
  | .cons member members, plain, fits => by
      rw [Node.memberValues_cons] at fits
      exact member.printed less plain.left fits.left (members.printed less plain.right fits.right)

theorem Grammar.Block.printed {depth : Nat} {word : List Symbol} {body : List Node} (less : limit ≤ more) :
    Block limit depth word body → PlainWord word → Fits more (Node.allValues (depth + 1) body) →
      BlockPrinted more depth body
  | .braces room statements, plain, fits => by
      obtain ⟨symbols, stand, statements⟩ := statements.printed less plain.left.tail fits
      exact ⟨symbols, stand, .braces (Nat.lt_of_lt_of_le room less) statements⟩

theorem Grammar.Statements.printed {depth : Nat} {word : List Symbol} {nodes : List Node}
    (less : limit ≤ more) :
    Statements limit depth word nodes → PlainWord word → Fits more (Node.allValues depth nodes) →
      ∃ symbols, Lines (linesOf (Node.allSteps nodes)) symbols ∧
        Statements more depth symbols (Node.allWithoutEmptyElse nodes)
  | .nil, _, _ => ⟨[], .nil, .nil⟩
  | .cons statement statements, plain, fits => by
      obtain ⟨symbols, stand, statement⟩ := statement.printed less plain.left fits.left
      obtain ⟨others, standOthers, statements⟩ := statements.printed less plain.right fits.right
      refine ⟨_, ?_, .cons statement statements⟩
      rw [Node.allSteps, linesOf_append]
      exact stand.append standOthers

end

end

end BraceCompiler
