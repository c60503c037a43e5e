import BraceCompiler.Proofs.Reading.Heights
import BraceCompiler.Proofs.Reading.Room
import BraceCompiler.Proofs.Target.Expressions

/-! Expressions that are given as trees, not as sources. Written with either grouping, cut and read again, such a
tree comes back, or the parentheses that writing has put in are too many for the reader. -/

namespace BraceCompiler

open Grammar

/-- Some source has the symbol among its tokens. -/
def Symbol.Occurs (symbol : Symbol) : Prop := ∃ source, symbol ∈ (tokensOf source).map Token.symbol

theorem Symbol.Occurs.language {symbol : Symbol} (occurs : symbol.Occurs) :
    symbol.kind.Language symbol.lexeme.toList := by
  obtain ⟨source, listed⟩ := occurs
  exact language_of_symbol listed

/-- The operators of the table occur: each is cut from the source that spells it. -/
theorem occurs_operator_iff {operator : String} :
    Symbol.Occurs ⟨.operator, operator⟩ ↔ IsOperator operator.toList := by
  constructor
  · intro occurs
    exact occurs.language
  · intro isOperator
    refine ⟨operator, ?_⟩
    rw [(word_operator isOperator).alone.tokensOf.1]
    exact List.mem_cons_self

namespace Node

/-- The expressions that can be told from their text: numbers that a source can hold, truth values, names that are
not reserved, and what operators, brackets and parentheses make of them. A tuple of one element is none, since
its text is that of the element in parentheses. -/
inductive Legible : Node → Prop
  | integer {value : Int} : 0 ≤ value → value ≤ 2 ^ 63 - 1 → Legible (.literal (.integer value))
  | boolean {value} : Legible (.literal (.boolean value))
  | identifier {name} : IsName name.toList → Unreserved name → Legible (.identifier name)
  | binary {left operator right} : Legible left → Symbol.Occurs ⟨.operator, operator⟩ → Legible right →
      Legible (.binary left operator right)
  | array {elements} : (∀ node ∈ elements, Legible node) → Legible (.array elements)
  | tuple {elements} : elements.length ≠ 1 → (∀ node ∈ elements, Legible node) → Legible (.tuple elements)

end Node

theorem Number.readInteger_of_fits {value : Int} (least : 0 ≤ value) (most : value ≤ 2 ^ 63 - 1) :
    readInteger (Nat.toDigits 10 value.toNat) = some value := by
  have same : (value.toNat : Int) = value := Int.toNat_of_nonneg least
  have fits : fitsWord value = true := by
    rw [fitsWord, Bool.and_eq_true, decide_eq_true_iff, decide_eq_true_iff]
    omega
  rw [readInteger_digits (isDigits_toDigits _), digitsValue_toDigits, same, if_pos fits]

namespace Node

theorem Legible.printed {node : Node} (legible : node.Legible) : Printed node := by
  induction legible with
  | integer least most => exact .integer (Number.isDigits_toDigits _) (Number.readInteger_of_fits least most)
  | boolean => exact .boolean _
  | identifier isName unreserved => exact .identifier isName unreserved
  | binary _ occurs _ left right => exact .binary (occurs_operator_iff.mp occurs) left right
  | array _ ih => exact .array ih
  | tuple notOne _ ih => exact .tuple notOne ih

/-- Only an operation at the top is written in two ways. -/
theorem render_bare {node : Node} (noOperation : ∀ left operator right, node ≠ .binary left operator right) :
    node.render .bare = node.value := by
  cases node with
  | binary left operator right => exact absurd rfl (noOperation left operator right)
  | _ => rfl

/-- With either grouping, the text is cut into symbols that are read as the expression, where its height fits. -/
theorem Legible.rendered {node : Node} (legible : node.Legible) (grouping : Grouping) :
    ∃ text symbols, node.render grouping = .ok text ∧ Word text symbols ∧
      ∀ limit depth, depth + 2 * node.height ≤ limit + 1 → Expression limit depth symbols node := by
  obtain ⟨text, symbols, printed⟩ := legible.printed
  have whole : node.render .parenthesized = .ok text ∧ Word text symbols ∧
      ∀ limit depth, depth + 2 * node.height ≤ limit + 1 → Expression limit depth symbols node :=
    ⟨printed.value, printed.word, fun _ _ => printed.expression⟩
  cases grouping with
  | parenthesized => exact ⟨text, symbols, whole⟩
  | bare =>
      cases legible with
      | binary left occurs right =>
          obtain ⟨leftText, leftSymbols, printedLeft⟩ := left.printed
          obtain ⟨rightText, rightSymbols, printedRight⟩ := right.printed
          refine ⟨_, _, printedLeft.renderOperation printedRight .bare,
            printedLeft.wordOperation (occurs_operator_iff.mp occurs) printedRight, fun limit depth fits => ?_⟩
          exact printedLeft.operation printedRight (Nat.le_succ_of_le fits)
      | _ =>
          rw [render_bare (by rintro left operator right ⟨⟩)]
          exact ⟨text, symbols, whole⟩

end Node

/-- With less room an expression is read as with more, or it is nested too deeply. -/
theorem parseExpression_of_more_room {tokens : List Token} {node : Node} {limit : Nat} (more : nestingLimit ≤ limit)
    (derived : Expression limit 0 (tokens.map Token.symbol) node) :
    parseExpression tokens = .ok node ∨
      ∃ place, parseExpression tokens = .error (.syntactic .nestedTooDeeply place) := by
  rw [parseExpression]
  rcases (Reader.soleExpression_built more).lags tokens with same | ⟨left, unfinished, stopped⟩
  · rw [same, Reader.soleExpression_of_derives derived]
    exact .inl rfl
  · rw [stopped]
    exact .inr ⟨_, rfl⟩

/-- An expression that can be told from its text is written without fault. Its text, with parentheses around the top
or without, is cut without a warning and read as the expression, unless the parentheses go beyond the nesting
limit. They do not if the expression has at most 100 levels. -/
theorem rendered_read_back {node : Node} (legible : node.Legible) (grouping : Grouping) :
    ∃ text, node.render grouping = .ok text ∧ warningsOf text = [] ∧
      (parseExpression (tokensOf text) = .ok node ∨
        ∃ place, parseExpression (tokensOf text) = .error (.syntactic .nestedTooDeeply place)) ∧
      (node.height ≤ 100 → parseExpression (tokensOf text) = .ok node) := by
  obtain ⟨text, symbols, rendered, word, derives⟩ := legible.rendered grouping
  obtain ⟨cut, clean⟩ := word.alone.tokensOf
  refine ⟨text, rendered, clean, ?_, fun low => ?_⟩
  · -- Some limit above the real one leaves room for all the parentheses.
    refine parseExpression_of_more_room (Nat.le_add_right nestingLimit (2 * node.height)) ?_
    rw [cut]
    exact derives _ 0 (by omega)
  · refine parseExpression_of_derives ?_
    rw [cut]
    exact derives nestingLimit 0 (by rw [nestingLimit]; omega)

/-- Written without parentheses around it: `(x <= 9223372036854775807) == [true, ()]`. -/
def comparison : Node := .binary
  (.binary (.identifier "x") "<=" (.literal (.integer 9223372036854775807))) "=="
  (.array [.literal (.boolean true), .tuple []])

theorem legible_comparison : comparison.Legible := by
  have atMost : Symbol.Occurs ⟨.operator, "<="⟩ := occurs_operator_iff.mpr (.withEquals (by decide))
  have equal : Symbol.Occurs ⟨.operator, "=="⟩ := occurs_operator_iff.mpr (.withEquals (by decide))
  refine .binary (.binary (.identifier ?_ ?_) atMost (.integer (by decide) (by decide))) equal (.array ?_)
  · decide
  · exact ⟨by decide, by decide, by decide⟩
  · intro node member
    rcases List.mem_cons.mp member with rfl | member
    · exact .boolean
    · rw [List.mem_singleton.mp member]
      exact .tuple (by decide) (List.forall_mem_nil _)

theorem rendered_read_back_comparison :
    comparison.Legible ∧ comparison.height ≤ 100 ∧ ∃ text, comparison.render .bare = .ok text ∧
      warningsOf text = [] ∧ parseExpression (tokensOf text) = .ok comparison := by
  have low : comparison.height ≤ 100 := by decide
  obtain ⟨text, rendered, clean, _, reads⟩ := rendered_read_back legible_comparison .bare
  exact ⟨legible_comparison, low, text, rendered, clean, reads low⟩

end BraceCompiler
