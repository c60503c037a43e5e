import BraceCompiler.Proofs.Reading.Programs
import BraceCompiler.Proofs.Reading.Respelling
import BraceCompiler.Proofs.Target.Expressions

/-! The shapes of the trees that are read. What the grammar derives stands where it may stand, and what is read is
derived from the respelled tokens, whether the punctuation carried its own lexeme or not. -/

namespace BraceCompiler

namespace Node

/-- Literals and names, and what operators, brackets and parentheses make of them. One expression in
parentheses is no tuple. -/
inductive IsExpression : Node → Prop
  | literal {value} : IsExpression (.literal value)
  | identifier {name} : IsExpression (.identifier name)
  | binary {left operator right} : IsExpression left → IsExpression right →
      IsExpression (.binary left operator right)
  | array {elements} : (∀ node ∈ elements, IsExpression node) → IsExpression (.array elements)
  | tuple {elements} : elements.length ≠ 1 → (∀ node ∈ elements, IsExpression node) →
      IsExpression (.tuple elements)

end Node

mutual

/-- What may stand in a body. A loop starts with an assignment. -/
inductive Node.IsStatement : Node → Prop
  | function {name parameters body} : (∀ node ∈ body, Node.IsStatement node) →
      Node.IsStatement (.function name parameters body)
  | classType {name members} : (∀ member ∈ members, Member.IsMember member) →
      Node.IsStatement (.classType name members)
  | assignment {name value} : value.IsExpression → Node.IsStatement (.assignment name value)
  | conditional {condition body otherwise} : condition.IsExpression →
      (∀ node ∈ body, Node.IsStatement node) →
      (∀ nodes ∈ otherwise, ∀ node ∈ nodes, Node.IsStatement node) →
      Node.IsStatement (.conditional condition body otherwise)
  | whileLoop {condition body} : condition.IsExpression → (∀ node ∈ body, Node.IsStatement node) →
      Node.IsStatement (.whileLoop condition body)
  | forLoop {name value condition increment body} : value.IsExpression → condition.IsExpression →
      increment.IsExpression → (∀ node ∈ body, Node.IsStatement node) →
      Node.IsStatement (.forLoop (.assignment name value) condition increment body)
  | returning {value} : value.IsExpression → Node.IsStatement (.returning value)

/-- What may stand in a class. A method is a function. -/
inductive Member.IsMember : Member → Prop
  | property {type name value} : value.IsExpression → Member.IsMember (.property type name value)
  | method {name parameters body} : Node.IsStatement (.function name parameters body) →
      Member.IsMember (.method (.function name parameters body))

end

/-- A program is the root of its tree and holds statements. -/
def Node.IsProgram (node : Node) : Prop := ∃ body, node = .program body ∧ ∀ statement ∈ body, statement.IsStatement

/-- The most levels of a tree that is read with this room. The operators after the first operand take as
many as there is room for. They do so again inside the brackets of that operand, which take one. -/
def mostLevels : (room : Nat) → Nat
  | 0 => 0
  | room + 1 => mostLevels room + 1 + room

theorem mostLevels_le {room more : Nat} (less : room ≤ more) : mostLevels room ≤ mostLevels more := by
  induction less with
  | refl => exact Nat.le_refl _
  | step _ ih =>
      refine Nat.le_trans ih ?_
      rw [mostLevels]
      omega

theorem Node.maxHeight_le {nodes : List Node} {bound : Nat} (below : ∀ node ∈ nodes, node.height ≤ bound) :
    maxHeight nodes ≤ bound := by
  induction nodes with
  | nil => exact Nat.zero_le _
  | cons node rest ih =>
      obtain ⟨first, others⟩ := List.forall_mem_cons.mp below
      exact Nat.max_le.mpr ⟨first, ih others⟩

/-- An expression of at most so many levels. -/
def Node.Within (bound : Nat) (node : Node) : Prop := node.IsExpression ∧ node.height ≤ bound

namespace Node.Within

variable {bound : Nat}

theorem leaf {node : Node} (expression : node.IsExpression) (level : node.height = 1) :
    Within (bound + 1) node := ⟨expression, by omega⟩

theorem array {elements : List Node} (within : ∀ node ∈ elements, Within bound node) :
    Within (bound + 1) (.array elements) := by
  refine ⟨.array fun node member => (within node member).1, ?_⟩
  rw [height]
  exact Nat.succ_le_succ (maxHeight_le fun node member => (within node member).2)

theorem tuple {elements : List Node} (notOne : elements.length ≠ 1)
    (within : ∀ node ∈ elements, Within bound node) : Within (bound + 1) (.tuple elements) := by
  refine ⟨.tuple notOne fun node member => (within node member).1, ?_⟩
  rw [height]
  exact Nat.succ_le_succ (maxHeight_le fun node member => (within node member).2)

theorem mono {node : Node} {more : Nat} (within : Within bound node) (less : bound ≤ more) : Within more node :=
  ⟨within.1, Nat.le_trans within.2 less⟩

/-- Every operator adds a level to what stands before it, however high that is. -/
theorem chained {first : Node} {operations : List (String × Node)} (within : Within bound first)
    (operands : ∀ operation ∈ operations, Within bound operation.2) :
    Within (bound + operations.length) (Grammar.chained first operations) := by
  induction operations generalizing first bound with
  | nil => exact within
  | cons operation rest ih =>
      obtain ⟨right, others⟩ := List.forall_mem_cons.mp operands
      have joined : Within (bound + 1) (.binary first operation.1 operation.2) := by
        refine ⟨.binary within.1 right.1, ?_⟩
        rw [height]
        have := within.2
        have := right.2
        omega
      have wider := ih joined fun other member => (others other member).mono (Nat.le_succ bound)
      rw [List.length_cons, Nat.add_comm rest.length, ← Nat.add_assoc]
      exact wider

end Node.Within

namespace Grammar

variable {limit : Nat}

mutual

theorem Expression.within {depth : Nat} {word : List Symbol} {node : Node} :
    Expression limit depth word node → node.Within (mostLevels (limit - depth))
  | .chain term others fits => by
      have room : limit - depth = limit - (depth + 1) + 1 := by omega
      rw [room, mostLevels]
      exact (Node.Within.chained term.within others.within).mono (by omega)

/-- The operands of an operator stand one level deeper than it. -/
theorem Operations.within {depth : Nat} {word : List Symbol} {operations : List (String × Node)} :
    Operations limit depth word operations →
      ∀ operation ∈ operations, operation.2.Within (mostLevels (limit - depth) + 1)
  | .nil => nofun
  | .cons term others => by
      have less : mostLevels (limit - (depth + 1)) + 1 ≤ mostLevels (limit - depth) + 1 :=
        Nat.succ_le_succ (mostLevels_le (by omega))
      exact List.forall_mem_cons.mpr
        ⟨term.within.mono less, fun operation member => (others.within operation member).mono less⟩

theorem Term.within {depth : Nat} {word : List Symbol} {node : Node} :
    Term limit depth word node → node.Within (mostLevels (limit - depth) + 1)
  | .integer _ | .real _ | .text | .boolean => .leaf .literal rfl
  | .identifier => .leaf .identifier rfl
  | .emptyArray => .array nofun
  | .array elements => .array elements.within
  | .emptyTuple => .tuple Nat.zero_ne_one nofun
  | .group expression => expression.within.mono (Nat.le_succ _)
  | .tuple expression elements =>
      .tuple (fun one => elements.ne_nil (List.length_eq_zero_iff.mp (Nat.succ.inj one)))
        (List.forall_mem_cons.mpr ⟨expression.within, elements.within⟩)

theorem Elements.within {depth : Nat} {word : List Symbol} {nodes : List Node} :
    Elements limit depth word nodes → ∀ node ∈ nodes, node.Within (mostLevels (limit - depth))
  | .one expression => List.forall_mem_singleton.mpr expression.within
  | .more expression elements => List.forall_mem_cons.mpr ⟨expression.within, elements.within⟩

end

theorem Expression.isExpression {depth : Nat} {word : List Symbol} {node : Node}
    (expression : Expression limit depth word node) : node.IsExpression := expression.within.1

theorem Assignment.assigns {depth : Nat} {word : List Symbol} {node : Node}
    (assignment : Assignment limit depth word node) :
    ∃ name value, node = .assignment name value ∧ value.IsExpression := by
  cases assignment with
  | plain expression => exact ⟨_, _, rfl, expression.isExpression⟩
  | closed expression => exact ⟨_, _, rfl, expression.isExpression⟩

theorem Assignment.isStatement {depth : Nat} {word : List Symbol} {node : Node}
    (assignment : Assignment limit depth word node) : node.IsStatement := by
  obtain ⟨name, value, rfl, isExpression⟩ := assignment.assigns
  exact .assignment isExpression

mutual

theorem Statement.isStatement {depth : Nat} {word : List Symbol} {node : Node} :
    Statement limit depth word node → node.IsStatement
  | .assignment assignment | .declaration assignment => assignment.isStatement
  | .function function => by
      obtain ⟨name, parameters, body, rfl, all⟩ := function.declares
      exact .function all
  | .classType members => .classType members.areMembers
  | .conditional test block => .conditional test.isExpression block.areStatements nofun
  | .alternative test block other => .conditional test.isExpression block.areStatements (by
      rintro nodes ⟨⟩
      exact other.areStatements)
  | .whileLoop test block => .whileLoop test.isExpression block.areStatements
  | .forLoop initial test step block => by
      obtain ⟨name, value, rfl, isExpression⟩ := initial.assigns
      exact .forLoop isExpression test.isExpression step.isExpression block.areStatements
  | .returning expression => .returning expression.isExpression

theorem Function.declares {depth : Nat} {word : List Symbol} {node : Node} : Function limit depth word node →
    ∃ name parameters body, node = .function name parameters body ∧ ∀ statement ∈ body, statement.IsStatement
  | .declaration _ block => ⟨_, _, _, rfl, block.areStatements⟩

theorem OneMember.isMember {depth : Nat} {word : List Symbol} {made : Member} :
    OneMember limit depth word made → made.IsMember
  | .property expression | .closedProperty expression => .property expression.isExpression
  | .method function => by
      obtain ⟨name, parameters, body, rfl, all⟩ := function.declares
      exact .method (.function all)

theorem Members.areMembers {depth : Nat} {word : List Symbol} {members : List Member} :
    Members limit depth word members → ∀ made ∈ members, made.IsMember
  | .nil => nofun
  | .cons one others => List.forall_mem_cons.mpr ⟨one.isMember, others.areMembers⟩

theorem Block.areStatements {depth : Nat} {word : List Symbol} {body : List Node} :
    Block limit depth word body → ∀ node ∈ body, node.IsStatement
  | .braces _ statements => statements.areStatements

theorem Statements.areStatements {depth : Nat} {word : List Symbol} {body : List Node} :
    Statements limit depth word body → ∀ node ∈ body, node.IsStatement
  | .nil => nofun
  | .cons statement others => List.forall_mem_cons.mpr ⟨statement.isStatement, others.areStatements⟩

end

end Grammar

namespace Reader

variable {room : Nat} {tokens rest : List Token} {node : Node}

theorem expression_within (read : expression room tokens = .ok (node, rest)) : node.Within (mostLevels room) := by
  have respelled := (expression_built (Nat.le_refl room)).indifferent.ok read
  obtain ⟨used, -, derived⟩ := (expression_reads (Nat.zero_add room)).sound (Nat.le_refl room)
    (spelled_respelled tokens) respelled
  exact derived.within

theorem program_isProgram (read : program room tokens = .ok (node, rest)) : node.IsProgram := by
  have respelled := (program_built (Nat.le_refl room)).indifferent.ok read
  obtain ⟨-, body, rfl, derived⟩ := (program_eq_ok_iff (Nat.zero_add room) (spelled_respelled tokens)).mp respelled
  exact ⟨body, rfl, derived.areStatements⟩

end Reader

end BraceCompiler
