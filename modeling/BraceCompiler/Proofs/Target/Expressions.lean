import BraceCompiler.Proofs.Reading.Grammar
import BraceCompiler.Proofs.Token.Spelling
import BraceCompiler.Target.Step

/-! The text that is written for an expression is cut and read back as that expression. Every operation
is written in parentheses, so an expression of height `h` takes up to `2 * h` levels when it is read. -/

namespace BraceCompiler

open Grammar

namespace Node

mutual

/-- The height of an expression; a leaf has height one. -/
def height : Node → Nat
  | .binary left _ right => max left.height right.height + 1
  | .array elements => maxHeight elements + 1
  | .tuple elements => maxHeight elements + 1
  | _ => 1

/-- The height of the highest of some expressions. -/
def maxHeight : List Node → Nat
  | [] => 0
  | node :: rest => max node.height (maxHeight rest)

end

theorem height_pos (node : Node) : 0 < node.height := by
  cases node <;> simp [height]

end Node

/-- The expression is written as the text, the text is cut into the symbols, and these are read back as
the expression wherever its height fits. -/
structure PrintedAs (node : Node) (text : String) (symbols : List Symbol) : Prop where
  value : node.value = .ok text
  word : Word text symbols
  term : ∀ limit depth, depth + 2 * node.height ≤ limit + 2 → Term limit depth symbols node

theorem PrintedAs.expression {node : Node} {text : String} {symbols : List Symbol} {limit depth : Nat}
    (printed : PrintedAs node text symbols) (fits : depth + 2 * node.height ≤ limit + 1) :
    Expression limit depth symbols node := by
  have positive := node.height_pos
  have alone := Expression.chain (printed.term limit (depth + 1) (by omega)) .nil
    (show depth + 1 + 0 ≤ limit by omega)
  rwa [List.append_nil] at alone

/-- The expression can be written and read back. -/
def Printed (node : Node) : Prop := ∃ text symbols, PrintedAs node text symbols

namespace PrintedAs

variable {left right : Node} {leftText rightText operator : String} {leftSymbols rightSymbols : List Symbol}

theorem renderOperation (printedLeft : PrintedAs left leftText leftSymbols)
    (printedRight : PrintedAs right rightText rightSymbols) (grouping : Grouping) :
    Node.render (.binary left operator right) grouping =
      .ok (grouping.wrap (leftText ++ " " ++ operator ++ " " ++ rightText)) := by
  rw [Node.render, ← Node.value, ← Node.value, printedLeft.value, printedRight.value]
  rfl

/-- An operation without parentheses around it. -/
theorem wordOperation (isOperator : IsOperator operator.toList) (printedLeft : PrintedAs left leftText leftSymbols)
    (printedRight : PrintedAs right rightText rightSymbols) :
    Word (leftText ++ " " ++ operator ++ " " ++ rightText) (leftSymbols ++ ⟨.operator, operator⟩ :: rightSymbols) := by
  have word := printedLeft.word.between (mark_operator isOperator) printedRight.word
  simpa only [String.append_assoc, List.append_assoc, List.singleton_append] using word

theorem operation {limit depth : Nat} (printedLeft : PrintedAs left leftText leftSymbols)
    (printedRight : PrintedAs right rightText rightSymbols)
    (fits : depth + 2 * (Node.binary left operator right).height ≤ limit + 2) :
    Expression limit depth (leftSymbols ++ ⟨.operator, operator⟩ :: rightSymbols) (.binary left operator right) := by
  rw [Node.height] at fits
  have positive := right.height_pos
  have operation : Operations limit (depth + 1) (⟨.operator, operator⟩ :: rightSymbols ++ [])
      [(operator, right)] := .cons (printedRight.term limit (depth + 2) (by omega)) .nil
  rw [List.append_nil] at operation
  exact Expression.chain (printedLeft.term limit (depth + 1) (by omega)) operation
    (show depth + 1 + 1 ≤ limit by omega)

end PrintedAs

namespace Printed

theorem identifier {name : String} (isName : IsName name.toList) (unreserved : Unreserved name) :
    Printed (.identifier name) :=
  ⟨name, _, rfl, word_identifier isName unreserved, fun _ _ _ => .identifier⟩

theorem boolean (value : Bool) : Printed (.literal (.boolean value)) := by
  cases value with
  | true =>
      have spelled : Word "true" [⟨.boolean, "true"⟩] := word_name (by decide) (by decide)
      exact ⟨"true", _, rfl, spelled, fun _ _ _ => .boolean⟩
  | false =>
      have spelled : Word "false" [⟨.boolean, "false"⟩] := word_name (by decide) (by decide)
      exact ⟨"false", _, rfl, spelled, fun _ _ _ => .boolean⟩

end Printed

namespace Number

theorem digitsValue_toDigits (value : Nat) : digitsValue (Nat.toDigits 10 value) = value := by
  rw [digitsValue, ← Nat.ofDigitChars_eq_foldl]
  exact Nat.ofDigitChars_toDigits (by decide) (by decide)

theorem isDigits_toDigits (value : Nat) : IsDigits (Nat.toDigits 10 value) :=
  ⟨Nat.toDigits_ne_nil, fun _ member => Nat.isDigit_of_mem_toDigits (by decide) (by decide) member⟩

/-- A text that starts with a digit has no sign. -/
theorem splitSign_of_digit {text : List Char} (digit : ∀ c ∈ text.head?, Text.isDigit c = true) :
    splitSign text = (false, text) := by
  rw [splitSign.eq_def]
  split
  · exact absurd (digit '-' rfl) (by decide)
  · exact absurd (digit '+' rfl) (by decide)
  · rfl

theorem splitSign_digits {text : List Char} (digits : IsDigits text) : splitSign text = (false, text) :=
  splitSign_of_digit fun c first => digits.2 c (List.mem_of_head? first)

theorem readInteger_digits {text : List Char} (digits : IsDigits text) :
    readInteger text = if fitsWord (digitsValue text) then some (digitsValue text : Int) else none := by
  have some : text.isEmpty = false := List.isEmpty_eq_false_iff.mpr digits.1
  have all : text.all Text.isDigit = true := List.all_eq_true.mpr digits.2
  rw [readInteger, splitSign_digits digits]
  simp only [some, all, Bool.not_true, Bool.or_self, Bool.false_eq_true, if_false]
  rfl

/-- A value read from digits is written with digits that are read as the same value. -/
theorem readInteger_toDigits {text : List Char} {value : Int} (digits : IsDigits text)
    (read : readInteger text = some value) :
    ∃ magnitude : Nat, value = magnitude ∧ readInteger (Nat.toDigits 10 magnitude) = some value := by
  rw [readInteger_digits digits] at read
  split at read
  · rename_i fits
    cases read
    refine ⟨digitsValue text, rfl, ?_⟩
    rw [readInteger_digits (isDigits_toDigits _), digitsValue_toDigits, if_pos fits]
  · cases read

end Number

namespace Printed

theorem integer {text : List Char} {value : Int} (digits : IsDigits text)
    (read : Number.readInteger text = some value) : Printed (.literal (.integer value)) := by
  obtain ⟨magnitude, rfl, readBack⟩ := Number.readInteger_toDigits digits read
  refine ⟨_, _, congrArg Except.ok Nat.toString_eq_ofList_toDigits, word_number (Number.isDigits_toDigits _),
    fun _ _ _ => .integer ?_⟩
  rwa [String.toList_ofList]

theorem binary {left right : Node} {operator : String} (isOperator : IsOperator operator.toList)
    (printedLeft : Printed left) (printedRight : Printed right) : Printed (.binary left operator right) := by
  obtain ⟨leftText, leftSymbols, printedLeft⟩ := printedLeft
  obtain ⟨rightText, rightSymbols, printedRight⟩ := printedRight
  have word := (printedLeft.wordOperation isOperator printedRight).enclose mark_tupleStart mark_tupleEnd
  exact ⟨_, _, printedLeft.renderOperation printedRight .parenthesized, word,
    fun limit depth fits => .group (printedLeft.operation printedRight fits)⟩

/-- The elements of an array or tuple, with commas between them. -/
theorem elements {first : Node} {rest : List Node} (printed : ∀ node ∈ first :: rest, Printed node) :
    ∃ text texts symbols, Node.renderAll (first :: rest) = .ok (text :: texts) ∧
      Word (", ".intercalate (text :: texts)) symbols ∧
      ∀ limit depth, depth + 2 * Node.maxHeight (first :: rest) ≤ limit + 1 →
        Elements limit depth symbols (first :: rest) := by
  induction rest generalizing first with
  | nil =>
      obtain ⟨text, symbols, printedFirst⟩ := printed first List.mem_cons_self
      refine ⟨text, [], symbols, ?_, ?_, fun limit depth fits => .one (printedFirst.expression ?_)⟩
      · rw [Node.renderAll, ← Node.value, printedFirst.value]
        rfl
      · rw [String.intercalate_singleton]
        exact printedFirst.word
      · rw [Node.maxHeight, Node.maxHeight] at fits
        omega
  | cons next rest ih =>
      obtain ⟨text, symbols, printedFirst⟩ := printed first List.mem_cons_self
      obtain ⟨nextText, texts, others, rendered, word, elements⟩ := ih fun node member =>
        printed node (List.mem_cons_of_mem _ member)
      have joined := printedFirst.word.between mark_commaSpace word
      rw [← String.intercalate_cons_cons] at joined
      refine ⟨_, _, _, ?_, joined, fun limit depth fits => ?_⟩
      · rw [Node.renderAll, ← Node.value, printedFirst.value, rendered]
        rfl
      · rw [Node.maxHeight] at fits
        rw [List.append_assoc]
        exact .more (printedFirst.expression (by omega)) (elements limit depth (by omega))

theorem array {elements : List Node} (printed : ∀ node ∈ elements, Printed node) :
    Printed (.array elements) := by
  cases elements with
  | nil =>
      exact ⟨"[]", _, rfl, (mark_arrayStart.append mark_arrayEnd).word, fun _ _ _ => .emptyArray⟩
  | cons first rest =>
      obtain ⟨text, texts, symbols, rendered, word, elements⟩ := Printed.elements printed
      refine ⟨_, _, ?_, word.enclose mark_arrayStart mark_arrayEnd, fun limit depth fits => ?_⟩
      · rw [Node.value, Node.render, rendered]
        rfl
      · rw [Node.height] at fits
        exact .array (elements limit depth (by omega))

/-- A tuple of one element would be read back as that element. -/
theorem tuple {elements : List Node} (notOne : elements.length ≠ 1)
    (printed : ∀ node ∈ elements, Printed node) : Printed (.tuple elements) := by
  rcases elements with _ | ⟨first, _ | ⟨second, rest⟩⟩
  · exact ⟨"()", _, rfl, (mark_tupleStart.append mark_tupleEnd).word, fun _ _ _ => .emptyTuple⟩
  · exact absurd rfl notOne
  · obtain ⟨text, texts, symbols, rendered, word, elements⟩ := Printed.elements printed
    refine ⟨_, _, ?_, word.enclose mark_tupleStart mark_tupleEnd, fun limit depth fits => ?_⟩
    · rw [Node.value, Node.render, rendered]
      rfl
    · rw [Node.height] at fits
      cases elements limit depth (by omega) with
      | more expression others =>
          have tuple := Term.tuple expression others
          simpa only [List.singleton_append, List.append_assoc, List.cons_append, List.nil_append] using tuple

end Printed

/-- A symbol that is written as it was read: no text literal, no fraction, no reserved word as a name. -/
structure Symbol.Plain (symbol : Symbol) : Prop where
  kind : symbol.kind ≠ .text ∧ symbol.kind ≠ .float
  belongs : symbol.kind.Language symbol.lexeme.toList
  unreserved : symbol.kind = .identifier → Unreserved symbol.lexeme

/-- All the symbols are plain. -/
def PlainWord (word : List Symbol) : Prop := ∀ symbol ∈ word, symbol.Plain

namespace PlainWord

variable {symbol : Symbol} {word other : List Symbol}

theorem head (plain : PlainWord (symbol :: word)) : symbol.Plain := plain symbol List.mem_cons_self

theorem tail (plain : PlainWord (symbol :: word)) : PlainWord word :=
  fun other member => plain other (List.mem_cons_of_mem _ member)

theorem left (plain : PlainWord (word ++ other)) : PlainWord word :=
  fun symbol member => plain symbol (List.mem_append_left _ member)

theorem right (plain : PlainWord (word ++ other)) : PlainWord other :=
  fun symbol member => plain symbol (List.mem_append_right _ member)

end PlainWord

theorem Grammar.Elements.ne_nil {limit depth : Nat} {word : List Symbol} {nodes : List Node}
    (elements : Elements limit depth word nodes) : nodes ≠ [] := by
  cases elements <;> exact List.cons_ne_nil _ _

mutual

/-- Every expression that plain symbols form can be written and read back. -/
theorem Grammar.Expression.printed {limit depth : Nat} {word : List Symbol} {node : Node} :
    Expression limit depth word node → PlainWord word → Printed node
  | .chain term operations _, plain => operations.printed plain.right (term.printed plain.left)

theorem Grammar.Operations.printed {limit depth : Nat} {word : List Symbol}
    {operations : List (String × Node)} :
    Operations limit depth word operations → PlainWord word → ∀ {first}, Printed first →
      Printed (chained first operations)
  | .nil, _, _, printed => printed
  | .cons term operations, plain, _, printed =>
      operations.printed plain.right
        (.binary plain.left.head.belongs printed (term.printed plain.left.tail))

theorem Grammar.Term.printed {limit depth : Nat} {word : List Symbol} {node : Node} :
    Term limit depth word node → PlainWord word → Printed node
  | .integer read, plain => .integer plain.head.belongs read
  | .real _, plain => absurd rfl plain.head.kind.2
  | .text, plain => absurd rfl plain.head.kind.1
  | .boolean, _ => .boolean _
  | .identifier, plain => .identifier plain.head.belongs (plain.head.unreserved rfl)
  | .emptyArray, _ => .array nofun
  | .array elements, plain => .array (elements.printed plain.left.tail)
  | .emptyTuple, _ => .tuple nofun nofun
  | .group expression, plain => expression.printed plain.left.tail
  | .tuple expression elements, plain =>
      .tuple (fun one => elements.ne_nil (List.length_eq_zero_iff.mp (Nat.succ.inj one)))
        (List.forall_mem_cons.mpr ⟨expression.printed plain.left.left.tail,
          elements.printed plain.left.right.tail⟩)

theorem Grammar.Elements.printed {limit depth : Nat} {word : List Symbol} {nodes : List Node} :
    Elements limit depth word nodes → PlainWord word → ∀ node ∈ nodes, Printed node
  | .one expression, plain => List.forall_mem_singleton.mpr (expression.printed plain)
  | .more expression elements, plain =>
      List.forall_mem_cons.mpr ⟨expression.printed plain.left, elements.printed plain.right.tail⟩

end

end BraceCompiler
