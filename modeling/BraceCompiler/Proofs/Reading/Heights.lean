import BraceCompiler.Proofs.Reading.Expressions
import BraceCompiler.Proofs.Reading.Respelling
import BraceCompiler.Proofs.Reading.Shapes
import Mathlib.Tactic.Ring

/-! How high the tree of an expression can grow. The limit counts the levels that are open while tokens are
read, and brackets close. Operators after a closed bracket are counted anew, although they stand on top of all
that the bracket holds, so the tree grows with the square of the limit. -/

namespace BraceCompiler

open Grammar

theorem two_mul_mostLevels (room : Nat) : 2 * mostLevels room = room * (room + 1) := by
  induction room with
  | zero => rfl
  | succ room ih =>
      calc 2 * mostLevels (room + 1) = 2 * mostLevels room + 2 * (1 + room) := by rw [mostLevels]; ring
        _ = (room + 1) * (room + 1 + 1) := by rw [ih]; ring

theorem mostLevels_eq (room : Nat) : mostLevels room = room * (room + 1) / 2 := by
  have twice := two_mul_mostLevels room
  omega

theorem Reader.soleExpression_eq_ok {room : Nat} {tokens rest : List Token} {node : Node}
    (read : soleExpression room tokens = .ok (node, rest)) : expression room tokens = .ok (node, []) := by
  obtain ⟨value, left, readFirst, after⟩ := bind_eq_ok_iff.mp read
  cases left with
  | nil =>
      cases after
      exact readFirst
  | cons token left => cases after

theorem parseExpression_within {tokens : List Token} {node : Node} (parsed : parseExpression tokens = .ok node) :
    node.Within (mostLevels nestingLimit) := by
  rw [parseExpression] at parsed
  split at parsed
  · rename_i read
    cases parsed
    exact Reader.expression_within (Reader.soleExpression_eq_ok read)
  · cases parsed

theorem Reader.soleExpression_of_derives {limit : Nat} {tokens : List Token} {node : Node}
    (derived : Expression limit 0 (tokens.map Token.symbol) node) : soleExpression limit tokens = .ok (node, []) := by
  have read := (expression_reads (Nat.zero_add limit)).complete [] derived nofun
  rw [List.append_nil] at read
  rw [soleExpression, bind_of_ok read]
  rfl

theorem parseExpression_of_derives {tokens : List Token} {node : Node}
    (derived : Expression nestingLimit 0 (tokens.map Token.symbol) node) : parseExpression tokens = .ok node := by
  rw [parseExpression, Reader.soleExpression_of_derives derived]

/-- So many times `+ a`, from this column on. -/
def additions : (column count : Nat) → List Token
  | _, 0 => []
  | column, count + 1 =>
    ⟨.operator, "+", ⟨1, column⟩⟩ :: ⟨.identifier, "a", ⟨1, column + 2⟩⟩ :: additions (column + 4) count

def addends (count : Nat) : List (String × Node) := List.replicate count ("+", .identifier "a")

variable {limit depth : Nat}

theorem additions_derive (column count : Nat) :
    Operations limit depth ((additions column count).map Token.symbol) (addends count) := by
  induction count generalizing column depth with
  | zero => exact .nil
  | succ count ih => exact .cons .identifier (ih (column + 4))

theorem height_chained_addends (first : Node) (count : Nat) :
    (chained first (addends count)).height = first.height + count := by
  induction count generalizing first with
  | zero => rfl
  | succ count ih =>
      have positive := first.height_pos
      have added : (Node.binary first "+" (.identifier "a")).height = first.height + 1 := by
        change max first.height 1 + 1 = first.height + 1
        omega
      calc (chained first (addends (count + 1))).height
          = (chained (.binary first "+" (.identifier "a")) (addends count)).height := rfl
        _ = first.height + (count + 1) := by rw [ih, added]; omega

/-- An expression in brackets and a sum on top of it. The brackets take one level and close, and all levels but
that one are there for the sum. -/
theorem bracketed_derives {tokens : List Token} {node : Node} (first last : Position)
    (column count : Nat) (inside : Expression limit (depth + 1) (tokens.map Token.symbol) node)
    (fits : depth + 1 + count ≤ limit) :
    Expression limit depth
      ((⟨.arrayStart, "[", first⟩ :: tokens ++ ⟨.arrayEnd, "]", last⟩ :: additions column count).map Token.symbol)
      (chained (.array [node]) (addends count)) := by
  have brackets : Term limit (depth + 1)
      (⟨.arrayStart, "["⟩ :: tokens.map Token.symbol ++ [⟨.arrayEnd, "]"⟩]) (.array [node]) :=
    .array (.one inside)
  have whole := Expression.chain brackets (additions_derive column count)
    (by rw [addends, List.length_replicate]; exact fits)
  rw [List.append_assoc] at whole
  rw [List.map_append]
  exact whole

theorem height_bracketed (node : Node) (count : Nat) :
    (chained (.array [node]) (addends count)).height = node.height + 1 + count := by
  rw [height_chained_addends, Node.height, Node.maxHeight, Node.maxHeight, Nat.max_eq_left (Nat.zero_le _)]

theorem exists_highest (room : Nat) (levels : depth + (room + 1) = limit) :
    ∃ (tokens : List Token) (node : Node), Expression limit depth (tokens.map Token.symbol) node ∧
      node.height = mostLevels (room + 1) := by
  induction room generalizing depth with
  | zero =>
      have leaf := Expression.chain (.identifier : Term limit (depth + 1) _ (.identifier "a")) .nil
        (Nat.le_of_eq levels)
      exact ⟨[⟨.identifier, "a", .origin⟩], .identifier "a", leaf, rfl⟩
  | succ room ih =>
      -- The sum is as long as the room allows, and so is the one inside the brackets.
      obtain ⟨tokens, node, inside, height⟩ := ih (by omega : depth + 1 + (room + 1) = limit)
      refine ⟨_, _, bracketed_derives .origin .origin 1 (room + 1) inside (by omega), ?_⟩
      rw [height_bracketed, height]
      rfl

/-- The bound is reached. -/
theorem exists_parsed_highest : ∃ tokens node, parseExpression tokens = .ok node ∧
    node.height = nestingLimit * (nestingLimit + 1) / 2 := by
  obtain ⟨tokens, node, derived, height⟩ := exists_highest 199 (Nat.zero_add nestingLimit)
  rw [← mostLevels_eq]
  exact ⟨tokens, node, parseExpression_of_derives derived, height⟩

/-- A bracket that is open: the levels before it in its chain, and those of its elements before the last comma. -/
structure Bracket where
  before : Nat
  highest : Nat
  several : Bool

/-- The levels of the chain so far, and the brackets around it. An operator adds a level to all that stands before it
in its chain, not to what comes after it. -/
structure Tally where
  level : Nat
  brackets : List Bracket

/-- A chain with one more operand. -/
def joined (level height : Nat) : Nat := if level = 0 then height else max level height + 1

namespace Tally

def step : Tally → TokenKind → Tally
  | ⟨level, brackets⟩, .arrayStart | ⟨level, brackets⟩, .tupleStart => ⟨0, ⟨level, 0, false⟩ :: brackets⟩
  | ⟨level, bracket :: brackets⟩, .comma =>
    ⟨0, ⟨bracket.before, max bracket.highest level, true⟩ :: brackets⟩
  | ⟨level, bracket :: brackets⟩, .arrayEnd =>
    ⟨joined bracket.before (max bracket.highest level + 1), brackets⟩
  | ⟨level, bracket :: brackets⟩, .tupleEnd =>
    -- One expression in parentheses adds no level.
    ⟨joined bracket.before
      (if bracket.several = false ∧ 0 < level then level else max bracket.highest level + 1), brackets⟩
  | tally, .operator => tally
  | ⟨level, brackets⟩, _ => ⟨joined level 1, brackets⟩

def along (tally : Tally) (word : List Symbol) : Tally := word.foldl (fun tally symbol => tally.step symbol.kind) tally

theorem along_append (tally : Tally) (word rest : List Symbol) :
    tally.along (word ++ rest) = (tally.along word).along rest := List.foldl_append

theorem along_cons (tally : Tally) (symbol : Symbol) (rest : List Symbol) :
    tally.along (symbol :: rest) = (tally.step symbol.kind).along rest := rfl

end Tally

/-- The levels of the tree of an expression. -/
def levels (tokens : List Token) : Nat := (Tally.along ⟨0, []⟩ (tokens.map Token.symbol)).level

theorem joined_height (first operand : Node) (operator : String) :
    joined first.height operand.height = (Node.binary first operator operand).height := by
  rw [joined, if_neg (Nat.ne_of_gt first.height_pos), Node.height]

namespace Grammar

mutual

theorem Expression.tally {depth : Nat} {word : List Symbol} {node : Node} :
    Expression limit depth word node → ∀ brackets, Tally.along ⟨0, brackets⟩ word = ⟨node.height, brackets⟩
  | .chain first rest _, brackets => by
      rw [Tally.along_append, first.tally, joined, if_pos rfl, rest.tally]

theorem Operations.tally {depth : Nat} {word : List Symbol} {operations : List (String × Node)} :
    Operations limit depth word operations → ∀ first brackets,
      Tally.along ⟨first.height, brackets⟩ word = ⟨(chained first operations).height, brackets⟩
  | .nil, first, brackets => rfl
  | .cons operand rest, first, brackets => by
      rw [List.cons_append, Tally.along_cons, Tally.along_append, Tally.step, operand.tally,
        joined_height first, rest.tally]
      rfl

theorem Term.tally {depth : Nat} {word : List Symbol} {node : Node} :
    Term limit depth word node → ∀ level brackets,
      Tally.along ⟨level, brackets⟩ word = ⟨joined level node.height, brackets⟩
  | .integer _, level, brackets | .real _, level, brackets | .text, level, brackets
  | .boolean, level, brackets | .identifier, level, brackets => rfl
  | .emptyArray, level, brackets | .emptyTuple, level, brackets => rfl
  | .array elements, level, brackets => by
      obtain ⟨last, highest, several, inside, most, -⟩ := elements.tally level 0 false brackets
      rw [List.cons_append, Tally.along_cons, Tally.along_append, Tally.step, inside, Tally.along_cons, Tally.step,
        most, Nat.zero_max, Node.height]
      rfl
  | .group expression, level, brackets => by
      rw [List.cons_append, Tally.along_cons, Tally.along_append, Tally.step, expression.tally, Tally.along_cons,
        Tally.step, if_pos ⟨rfl, Node.height_pos _⟩]
      rfl
  | .tuple expression elements, level, brackets => by
      rw [List.append_assoc, List.cons_append, Tally.along_cons, Tally.along_append, Tally.step, expression.tally,
        List.cons_append, Tally.along_cons, Tally.along_append, Tally.step]
      obtain ⟨last, highest, several, inside, most, kept⟩ := elements.tally level (max 0 _) true brackets
      rw [inside, Tally.along_cons, Tally.step, if_neg (by simp [kept rfl]), most, Nat.zero_max, Node.height,
        Node.maxHeight]
      rfl

theorem Elements.tally {depth : Nat} {word : List Symbol} {nodes : List Node} :
    Elements limit depth word nodes → ∀ before highest several brackets, ∃ level highest' several',
      Tally.along ⟨0, ⟨before, highest, several⟩ :: brackets⟩ word =
          ⟨level, ⟨before, highest', several'⟩ :: brackets⟩ ∧
        max highest' level = max highest (Node.maxHeight nodes) ∧ (several = true → several' = true)
  | .one expression, before, highest, several, brackets => by
      refine ⟨_, highest, several, expression.tally _, ?_, id⟩
      rw [Node.maxHeight, Node.maxHeight, Nat.max_zero]
  | .more expression elements, before, highest, several, brackets => by
      rw [Tally.along_append, expression.tally, Tally.along_cons, Tally.step]
      obtain ⟨level, highest', several', inside, most, kept⟩ :=
        elements.tally before (max highest _) true brackets
      refine ⟨level, highest', several', inside, ?_, fun _ => kept rfl⟩
      rw [most, Node.maxHeight, Nat.max_assoc]

end

end Grammar

theorem levels_respelled (tokens : List Token) : levels (tokens.map Token.respelled) = levels tokens := by
  simp only [levels, Tally.along, List.foldl_map]
  rfl

theorem parsed_height_eq {tokens : List Token} {node : Node} (parsed : parseExpression tokens = .ok node) :
    node.height = levels tokens := by
  rw [parseExpression] at parsed
  split at parsed
  · rename_i read
    cases parsed
    -- The grammar tells of spelled tokens only, and the levels do not depend on the spelling.
    have respelled := (Reader.expression_built (Nat.le_refl nestingLimit)).indifferent.ok
      (Reader.soleExpression_eq_ok read)
    obtain ⟨used, split, derived⟩ := (Reader.expression_reads (Nat.zero_add nestingLimit)).sound
      (Nat.le_refl _) (spelled_respelled tokens) respelled
    rw [List.map_nil, List.append_nil] at split
    rw [← levels_respelled, split, levels, derived.tally]
  · cases parsed

/-- The tree of an expression stays within the limit exactly if the levels counted along its tokens do, and no
tree is higher than `200 * 201 / 2`. -/
theorem parsed_height_le_iff {tokens : List Token} {node : Node} (parsed : parseExpression tokens = .ok node) :
    (node.height ≤ nestingLimit ↔ levels tokens ≤ nestingLimit) ∧
      node.height ≤ nestingLimit * (nestingLimit + 1) / 2 := by
  constructor
  · rw [parsed_height_eq parsed]
  · rw [← mostLevels_eq]
    exact (parseExpression_within parsed).2

/-- The tokens of `[a] + a + a`, and so on for 199 additions. -/
def bracketedSum : List Token :=
  ⟨.arrayStart, "[", ⟨1, 1⟩⟩ :: [⟨.identifier, "a", ⟨1, 2⟩⟩] ++ ⟨.arrayEnd, "]", ⟨1, 3⟩⟩ :: additions 5 199

def bracketedSumNode : Node := chained (.array [.identifier "a"]) (addends 199)

theorem parse_bracketedSum : parseExpression bracketedSum = .ok bracketedSumNode :=
  parseExpression_of_derives
    (bracketed_derives _ _ _ _ (Expression.chain .identifier .nil (by decide)) (by decide))

theorem parsed_height_le_iff_bracketedSum :
    parseExpression bracketedSum = .ok bracketedSumNode ∧ levels bracketedSum = 201 ∧
      ¬ bracketedSumNode.height ≤ nestingLimit ∧
      bracketedSumNode.height ≤ nestingLimit * (nestingLimit + 1) / 2 := by
  have counted : levels bracketedSum = 201 := by decide +kernel
  obtain ⟨within, most⟩ := parsed_height_le_iff parse_bracketedSum
  refine ⟨parse_bracketedSum, counted, ?_, most⟩
  rw [within, counted]
  decide

/-- The limit itself bounds the open levels only, not the tree. -/
theorem nestingLimit_lt_height :
    ∃ node, parseExpression bracketedSum = .ok node ∧ nestingLimit < node.height := by
  refine ⟨_, parse_bracketedSum, ?_⟩
  rw [bracketedSumNode, height_bracketed]
  decide

end BraceCompiler
