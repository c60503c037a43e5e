import BraceCompiler.Proofs.Reading.Expressions

/-! The readers of statements read the statements of the grammar. Each construct is handed the readers
of its values and of its blocks; the induction on the room left is only in `block`. -/

namespace BraceCompiler

open Grammar

variable {limit depth : Nat}

namespace Grammar

/-- What may follow a statement whose end is left open: nothing that would belong to it. -/
def Ends : Follow := fun rest => ∀ symbol ∈ rest.head?,
  symbol.kind ≠ .operator ∧ symbol ≠ ⟨.delimiter, ";"⟩ ∧ symbol ≠ ⟨.keyword, "else"⟩

/-- The symbols end, or a closing brace comes. -/
def AtClose : Follow := fun rest => ∀ symbol ∈ rest.head?, symbol = ⟨.delimiter, Reader.closing⟩

theorem Ends.notOperator {rest : List Symbol} (ends : Ends rest) : Follow.notKind .operator rest :=
  fun symbol first => (ends symbol first).1

theorem Ends.notSemicolon {rest : List Symbol} (ends : Ends rest) :
    Follow.notSymbol ⟨.delimiter, ";"⟩ rest := fun symbol first => (ends symbol first).2.1

theorem Ends.notElse {rest : List Symbol} (ends : Ends rest) : Follow.notSymbol ⟨.keyword, "else"⟩ rest :=
  fun symbol first => (ends symbol first).2.2

theorem AtClose.ends {rest : List Symbol} (close : AtClose rest) : Ends rest := by
  intro symbol first
  rw [close symbol first]
  decide

/-- A symbol of no kind that could belong to the statement. -/
theorem Ends.of_kind {symbol : Symbol} {rest : List Symbol}
    (other : symbol.kind ∉ [TokenKind.operator, .delimiter, .keyword]) : Ends (symbol :: rest) := by
  rintro _ ⟨⟩
  refine ⟨?_, ?_, ?_⟩
  · intro kind
    rw [kind] at other
    exact other (by decide)
  · rintro rfl
    exact other (by decide)
  · rintro rfl
    exact other (by decide)

/-- The words that a statement can begin with. -/
def statementWords : List String := ["function", "class", "if", "while", "for", "return"]

theorem Assignment.starts {word : List Symbol} {node : Node} (assignment : Assignment limit depth word node) :
    ∃ name tail, word = ⟨.identifier, name⟩ :: ⟨.assignment, "="⟩ :: tail := by
  cases assignment <;> exact ⟨_, _, rfl⟩

theorem Statement.starts {word : List Symbol} {node : Node} (statement : Statement limit depth word node) :
    ∃ symbol tail, word = symbol :: tail ∧
      (symbol.kind = .identifier ∨ symbol.kind = .keyword ∧ symbol.lexeme ∈ statementWords) := by
  cases statement with
  | assignment assignment =>
      obtain ⟨name, tail, rfl⟩ := assignment.starts
      exact ⟨_, _, rfl, .inl rfl⟩
  | declaration _ => exact ⟨_, _, rfl, .inl rfl⟩
  | _ => exact ⟨_, _, rfl, .inr ⟨rfl, by decide⟩⟩

theorem Statement.ne_nil {word : List Symbol} {node : Node} (statement : Statement limit depth word node) :
    word ≠ [] := by
  obtain ⟨symbol, tail, rfl, -⟩ := statement.starts
  exact List.cons_ne_nil _ _

theorem Statement.ends {word rest : List Symbol} {node : Node} (statement : Statement limit depth word node) :
    Ends (word ++ rest) := by
  obtain ⟨symbol, tail, rfl, starts⟩ := statement.starts
  rcases starts with kind | ⟨kind, lexeme⟩
  · exact .of_kind (by rw [kind]; decide)
  · rintro _ ⟨⟩
    refine ⟨by rw [kind]; decide, ?_, ?_⟩
    · rintro rfl; cases kind
    · rintro rfl; exact absurd lexeme (by decide)

theorem OneMember.starts {word : List Symbol} {value : Member} (one : OneMember limit depth word value) :
    ∃ symbol tail, word = symbol :: tail ∧ (symbol.kind = .dataType ∨ symbol = ⟨.keyword, "function"⟩) := by
  cases one with
  | method => exact ⟨_, _, rfl, .inr rfl⟩
  | _ => exact ⟨_, _, rfl, .inl rfl⟩

theorem OneMember.ne_nil {word : List Symbol} {value : Member} (one : OneMember limit depth word value) :
    word ≠ [] := by
  obtain ⟨symbol, tail, rfl, -⟩ := one.starts
  exact List.cons_ne_nil _ _

theorem OneMember.ends {word rest : List Symbol} {value : Member} (one : OneMember limit depth word value) :
    Ends (word ++ rest) := by
  obtain ⟨symbol, tail, rfl, starts⟩ := one.starts
  rcases starts with kind | rfl
  · exact .of_kind (by rw [kind]; decide)
  · rintro _ ⟨⟩
    decide

theorem Expression.ends {word rest : List Symbol} {node : Node}
    (expression : Expression limit depth word node) : Ends (word ++ rest) := by
  obtain ⟨symbol, tail, rfl, starts⟩ := expression.starts
  refine .of_kind fun listed => ?_
  simp only [List.mem_cons, List.not_mem_nil, or_false] at listed
  rcases listed with kind | kind | kind <;> rw [kind] at starts <;> cases starts

/-- What follows the opening brace of a block. -/
def BlockTail (limit depth : Nat) : Phrase (List Node) := fun word body =>
  depth < limit ∧ ∃ inside, word = inside ++ [⟨.delimiter, Reader.closing⟩] ∧ Statements limit (depth + 1) inside body

theorem block_iff {word : List Symbol} {body : List Node} : Block limit depth word body ↔
    ∃ tail, word = ⟨.delimiter, Reader.opening⟩ :: tail ∧ BlockTail limit depth tail body := by
  constructor
  · intro block
    cases block with
    | braces fits stands => exact ⟨_, rfl, fits, _, rfl, stands⟩
  · rintro ⟨_, rfl, fits, inside, rfl, stands⟩
    exact .braces fits stands

/-- What follows the word `class`. -/
def ClassTail (limit depth : Nat) : Phrase Node := fun word node =>
  ∃ name inside members,
    word = ⟨.identifier, name⟩ :: ⟨.delimiter, Reader.opening⟩ :: inside ++ [⟨.delimiter, Reader.closing⟩] ∧
    Members limit depth inside members ∧ node = .classType name members

/-- What follows the word `if`. -/
def ConditionalTail (limit depth : Nat) : Phrase Node := fun word node =>
  ∃ test condition block body tail,
    word = ⟨.tupleStart, "("⟩ :: test ++ ⟨.tupleEnd, ")"⟩ :: block ++ tail ∧
    Expression limit depth test condition ∧ Block limit depth block body ∧
    (tail = [] ∧ node = .conditional condition body none ∨
      ∃ block' otherwise, tail = ⟨.keyword, "else"⟩ :: block' ∧ Block limit depth block' otherwise ∧
        node = .conditional condition body (some otherwise))

/-- What follows the word `while`. -/
def WhileTail (limit depth : Nat) : Phrase Node := fun word node =>
  ∃ test condition block body,
    word = ⟨.tupleStart, "("⟩ :: test ++ ⟨.tupleEnd, ")"⟩ :: block ∧
    Expression limit depth test condition ∧ Block limit depth block body ∧
    node = .whileLoop condition body

/-- What follows the word `for`. -/
def ForTail (limit depth : Nat) : Phrase Node := fun word node =>
  ∃ initial start test condition step increment block body,
    word = ⟨.tupleStart, "("⟩ :: initial ++ test ++ ⟨.delimiter, ";"⟩ :: step ++ ⟨.tupleEnd, ")"⟩ :: block ∧
    Assignment limit depth initial start ∧ Expression limit depth test condition ∧
    Expression limit depth step increment ∧ Block limit depth block body ∧
    node = .forLoop start condition increment body

/-- What follows the word `return`. -/
def ReturnTail (limit depth : Nat) : Phrase Node := fun word node =>
  ∃ inside value, word = inside ++ [⟨.delimiter, ";"⟩] ∧ Expression limit depth inside value ∧
    node = .returning value

/-- A statement without a declarator, by its first symbol. -/
def Dispatched (limit depth : Nat) : Phrase Node := fun word node =>
  Assignment limit depth word node ∨
  (∃ tail, word = ⟨.keyword, "function"⟩ :: tail ∧ Function limit depth tail node) ∨
  (∃ tail, word = ⟨.keyword, "class"⟩ :: tail ∧ ClassTail limit depth tail node) ∨
  (∃ tail, word = ⟨.keyword, "if"⟩ :: tail ∧ ConditionalTail limit depth tail node) ∨
  (∃ tail, word = ⟨.keyword, "while"⟩ :: tail ∧ WhileTail limit depth tail node) ∨
  (∃ tail, word = ⟨.keyword, "for"⟩ :: tail ∧ ForTail limit depth tail node) ∨
  (∃ tail, word = ⟨.keyword, "return"⟩ :: tail ∧ ReturnTail limit depth tail node)

theorem Dispatched.starts {word : List Symbol} {node : Node}
    (dispatched : Dispatched limit depth word node) :
    Assignment limit depth word node ∨ ∃ lexeme tail, word = ⟨.keyword, lexeme⟩ :: tail := by
  rcases dispatched with assignment | ⟨_, rfl, -⟩ | ⟨_, rfl, -⟩ | ⟨_, rfl, -⟩ | ⟨_, rfl, -⟩ |
    ⟨_, rfl, -⟩ | ⟨_, rfl, -⟩
  · exact .inl assignment
  all_goals exact .inr ⟨_, _, rfl⟩

theorem repeated_iff_statements {word : List Symbol} {nodes : List Node} :
    Repeated (Statement limit depth) word nodes ↔ Statements limit depth word nodes := by
  constructor
  · intro stands
    induction stands with
    | nil => exact .nil
    | cons statement _ ih => exact .cons statement ih
  · intro stands
    induction nodes generalizing word with
    | nil => cases stands; exact .nil
    | cons node nodes ih =>
        cases stands with
        | cons statement rest => exact .cons statement (ih rest)

theorem repeated_iff_members {word : List Symbol} {members : List Member} :
    Repeated (OneMember limit depth) word members ↔ Members limit depth word members := by
  constructor
  · intro stands
    induction stands with
    | nil => exact .nil
    | cons one _ ih => exact .cons one ih
  · intro stands
    induction members generalizing word with
    | nil => cases stands; exact .nil
    | cons member members ih =>
        cases stands with
        | cons one rest => exact .cons one (ih rest)

end Grammar

namespace Reader

theorem parameter_reads : Reads parameter (fun _ => OneParameter) limit (.notKind .colon) := by
  refine (Reads.expectKindThen .identifier "for parameter name" fun name =>
    Reads.choice (Accepts.accept .colon rfl)
      (Reads.map (Reads.expectKind .dataType "for parameter type"))
      (Reads.pure (⟨name, none⟩ : Parameter)) ?_).congr ?_
  · rintro word made rest ⟨rfl, -⟩ next
    exact next
  · intro more _ word made
    constructor
    · rintro ⟨name, _, rfl, ⟨_, rfl, type, rfl, rfl⟩ | ⟨rfl, rfl⟩⟩
      · exact .typed
      · exact .untyped
    · intro one
      cases one with
      | untyped => exact ⟨_, _, rfl, .inr ⟨rfl, rfl⟩⟩
      | typed => exact ⟨_, _, rfl, .inl ⟨_, rfl, _, rfl, rfl⟩⟩

theorem parameters_reads : Reads parameters (fun _ => Parameters) limit (.isKind .tupleEnd) := by
  have several := (parameter_reads : Reads parameter (fun _ => OneParameter) limit _).separated
    (fun _ => by rintro _ ⟨⟩ ⟨⟩)
  refine (Reads.check (Reads.pure []) (several.narrow ?_) ?_ ?_).congr ?_
  · exact fun rest closes =>
      ⟨Follow.notKind_of_isKind closes (by decide), Follow.notKind_of_isKind closes (by decide)⟩
  · rintro word made rest ⟨rfl, -⟩ next
    exact next
  · rintro word made rest stands -
    cases stands with
    | one one => cases one <;> rintro _ ⟨⟩ ⟨⟩
    | more one _ => cases one <;> rintro _ ⟨⟩ ⟨⟩
  · intro more _ word made
    constructor
    · rintro (⟨rfl, rfl⟩ | stands)
      · exact .none
      · exact .some stands
    · intro stands
      cases stands with
      | none => exact .inl ⟨rfl, rfl⟩
      | some stands => exact .inr stands

variable {value : Reader Node} {body : String → Reader (List Node)}

theorem functionTail_reads (readsBody : ∀ what, Reads (body what) (Block · depth) limit .any) :
    Reads (functionTail body) (Function · depth) limit .any := by
  refine (Reads.expectKindThen .identifier _ fun name => Reads.expectThen .tupleStart "(" _
    (Reads.bind parameters_reads (fun parameters => Reads.expectThen .tupleEnd ")" _
      (Reads.map (readsBody "function body"))) ?_)).congr ?_
  · rintro parameters word node rest ⟨tail, rfl, -⟩ -
    exact ⟨_, rfl, rfl⟩
  · intro more _ word node
    constructor
    · rintro ⟨name, _, rfl, _, rfl, parameters, head, _, rfl, stands, block, rfl, nodes, inside, rfl⟩
      exact .declaration stands inside
    · intro function
      cases function with
      | declaration stands inside =>
          exact ⟨_, _, rfl, _, rfl, _, _, _, rfl, stands, _, rfl, _, inside, rfl⟩

/-- The end of what may have a semicolon after it. -/
theorem skipSemicolon_reads {α : Type} (made : α) :
    Reads (skipSemicolon >>= fun _ => pure made)
      (fun _ word node => (word = [] ∨ word = [⟨.delimiter, ";"⟩]) ∧ node = made) limit
      (.notSymbol ⟨.delimiter, ";"⟩) := by
  have chosen : (skipSemicolon >>= fun _ => pure made : Reader α) =
      acceptLexeme .delimiter ";" >>= fun taken => if taken = true then pure made else pure made := by
    rw [skipSemicolon, bind_assoc]
    simp only [pure_bind, ite_self]
  rw [chosen]
  refine (Reads.choice (Accepts.acceptLexeme .delimiter ";")
    (Reads.pure made)
    (Reads.pure made) ?_).congr ?_
  · rintro word node rest ⟨rfl, -⟩ next
    exact next
  · intro more _ word node
    constructor
    · rintro (⟨_, rfl, rfl, rfl⟩ | ⟨rfl, rfl⟩)
      · exact ⟨.inr rfl, rfl⟩
      · exact ⟨.inl rfl, rfl⟩
    · rintro ⟨rfl | rfl, rfl⟩
      · exact .inr ⟨rfl, rfl⟩
      · exact .inl ⟨[], rfl, rfl, rfl⟩

/-- A value and, maybe, a semicolon. -/
theorem closedValue_reads {α : Type} {made : Node → α}
    (reads : Reads value (Expression · depth) limit (.notKind .operator)) :
    Reads (value >>= fun node => skipSemicolon >>= fun _ => pure (made node))
      (fun more word item => ∃ node tail, Expression more depth tail node ∧
        (word = tail ∨ word = tail ++ [⟨.delimiter, ";"⟩]) ∧ item = made node) limit Ends := by
  refine (Reads.bind reads (fun node => (skipSemicolon_reads (made node)).narrow
    (fun _ ends => Ends.notSemicolon ends)) ?_).congr ?_
  · rintro node word item rest ⟨rfl | rfl, -⟩ ends
    · exact ends.notOperator
    · rintro _ ⟨⟩ ⟨⟩
  · intro more _ word item
    constructor
    · rintro ⟨node, head, tail, rfl, expression, rfl | rfl, rfl⟩
      · exact ⟨node, head, expression, .inl (List.append_nil head), rfl⟩
      · exact ⟨node, head, expression, .inr rfl, rfl⟩
    · rintro ⟨node, tail, expression, rfl | rfl, rfl⟩
      · exact ⟨node, word, [], (List.append_nil word).symm, expression, .inl rfl, rfl⟩
      · exact ⟨node, tail, _, rfl, expression, .inr rfl, rfl⟩

theorem assignment_reads (reads : Reads value (Expression · depth) limit (.notKind .operator)) :
    Reads (assignment value) (Assignment · depth) limit Ends := by
  refine (Reads.expectKindThen .identifier _ fun name => Reads.expectThen .assignment "=" _
    (closedValue_reads reads)).congr ?_
  intro more _ word node
  constructor
  · rintro ⟨name, _, rfl, _, rfl, value, tail, expression, rfl | rfl, rfl⟩
    · exact .plain expression
    · exact .closed expression
  · intro assignment
    cases assignment with
    | plain expression => exact ⟨_, _, rfl, _, rfl, _, _, expression, .inl rfl, rfl⟩
    | closed expression => exact ⟨_, _, rfl, _, rfl, _, _, expression, .inr rfl, rfl⟩

theorem member_reads (reads : Reads value (Expression · depth) limit (.notKind .operator))
    (readsBody : ∀ what, Reads (body what) (Block · depth) limit .any) :
    Reads (member value body) (OneMember · depth) limit Ends := by
  refine (Reads.check
    (Reads.expectKindThen .dataType _ fun type => Reads.expectKindThen .identifier _ fun name =>
      Reads.expectThen .assignment "=" _ (closedValue_reads reads))
    (Reads.choiceOnly (Accepts.acceptLexeme .keyword "function")
      (Reads.map (functionTail_reads readsBody).anywhere)) ?_ ?_).congr ?_
  · rintro word made rest ⟨type, tail, rfl, -⟩ -
    exact ⟨_, rfl, rfl⟩
  · rintro word made rest ⟨tail, rfl, -⟩ -
    rintro _ ⟨⟩ ⟨⟩
  · intro more _ word made
    constructor
    · rintro (⟨type, _, rfl, name, _, rfl, _, rfl, node, tail, expression, rfl | rfl, rfl⟩ |
        ⟨_, rfl, node, function, rfl⟩)
      · exact .property expression
      · exact .closedProperty expression
      · exact .method function
    · intro one
      cases one with
      | property expression =>
          exact .inl ⟨_, _, rfl, _, _, rfl, _, rfl, _, _, expression, .inl rfl, rfl⟩
      | closedProperty expression =>
          exact .inl ⟨_, _, rfl, _, _, rfl, _, rfl, _, _, expression, .inr rfl, rfl⟩
      | method function => exact .inr ⟨_, rfl, _, function, rfl⟩

theorem blockDone_iff {tokens : List Token} :
    blockDone tokens = true ↔ AtClose (tokens.map Token.symbol) := by
  cases tokens with
  | nil => exact ⟨fun _ => by rintro _ ⟨⟩, fun _ => rfl⟩
  | cons token tokens =>
      constructor
      · rintro closes _ ⟨⟩
        exact Token.is_iff.mp closes
      · intro close
        exact Token.is_iff.mpr (close _ rfl)

/-- Whatever begins with another symbol than a closing brace is not the end of a block. -/
theorem blockDone_eq_false {used rest : List Token} {symbol : Symbol} {tail : List Symbol}
    (starts : used.map Token.symbol = symbol :: tail) (other : symbol ≠ ⟨.delimiter, closing⟩) :
    blockDone (used ++ rest) = false := by
  rw [Bool.eq_false_iff]
  intro done
  have close := blockDone_iff.mp done
  rw [List.map_append, starts] at close
  exact other (close _ rfl)

theorem members_reads (reads : Reads value (Expression · depth) limit (.notKind .operator))
    (readsBody : ∀ what, Reads (body what) (Block · depth) limit .any) :
    Reads (repeated blockDone (member value body)) (Members · depth) limit AtClose := by
  refine (Reads.repeated (member_reads reads readsBody) ?_ ?_ ?_ ?_ ?_).congr
    (fun _ _ _ _ => repeated_iff_members)
  · exact fun _ _ one => one.ne_nil
  · intro used made rest one
    obtain ⟨symbol, tail, starts, kind⟩ := one.starts
    refine blockDone_eq_false starts ?_
    rintro rfl
    rcases kind with kind | kind <;> cases kind
  · exact fun _ _ _ one => one.ends
  · exact fun close => blockDone_iff.mpr close
  · exact fun _ close => close.ends

theorem statements_read {item : Reader Node} (reads : Reads item (Statement · depth) limit Ends) :
    Reads (repeated blockDone item) (Statements · depth) limit AtClose := by
  refine (Reads.repeated reads ?_ ?_ ?_ ?_ ?_).congr (fun _ _ _ _ => repeated_iff_statements)
  · exact fun _ _ statement => statement.ne_nil
  · intro used node rest statement
    obtain ⟨symbol, tail, starts, kind⟩ := statement.starts
    refine blockDone_eq_false starts ?_
    rintro rfl
    rcases kind with kind | ⟨kind, -⟩ <;> cases kind
  · exact fun _ _ _ statement => statement.ends
  · exact fun close => blockDone_iff.mpr close
  · exact fun _ close => close.ends

theorem classTail_reads (reads : Reads value (Expression · depth) limit (.notKind .operator))
    (readsBody : ∀ what, Reads (body what) (Block · depth) limit .any) :
    Reads (classTail value body) (ClassTail · depth) limit .any := by
  refine (Reads.expectKindThen .identifier _ fun name => Reads.expectThen .delimiter opening _
    (Reads.bind (members_reads reads readsBody) (fun members => Reads.expectLast ..) ?_)).congr ?_
  · rintro members word node rest ⟨rfl, -⟩ -
    rintro _ ⟨⟩
    rfl
  · intro more _ word node
    constructor
    · rintro ⟨name, _, rfl, _, rfl, members, inside, _, rfl, stands, rfl, rfl⟩
      exact ⟨name, inside, members, rfl, stands, rfl⟩
    · rintro ⟨name, inside, members, rfl, stands, rfl⟩
      exact ⟨_, _, rfl, _, rfl, _, _, _, rfl, stands, rfl, rfl⟩

/-- A value in parentheses. -/
theorem condition_reads (keyword : String)
    (reads : Reads value (Expression · depth) limit (.notKind .operator)) :
    Reads (condition value keyword)
      (fun more word node => ∃ test, word = ⟨.tupleStart, "("⟩ :: test ++ [⟨.tupleEnd, ")"⟩] ∧
        Expression more depth test node) limit .any := by
  refine (Reads.expectThen .tupleStart "(" _
    (Reads.bind reads (fun node => Reads.expectLast ..) ?_)).congr ?_
  · rintro node word made rest ⟨rfl, -⟩ -
    rintro _ ⟨⟩ ⟨⟩
  · intro more _ word node
    constructor
    · rintro ⟨_, rfl, made, test, _, rfl, expression, rfl, rfl⟩
      exact ⟨test, rfl, expression⟩
    · rintro ⟨test, rfl, expression⟩
      exact ⟨_, rfl, _, test, _, rfl, expression, rfl, rfl⟩

theorem conditionalTail_reads (reads : Reads value (Expression · depth) limit (.notKind .operator))
    (readsBody : ∀ what, Reads (body what) (Block · depth) limit .any) :
    Reads (conditionalTail value body) (ConditionalTail · depth) limit (.notSymbol ⟨.keyword, "else"⟩) := by
  refine (Reads.bind (condition_reads "if" reads) (fun test =>
    Reads.bind (readsBody "if body") (fun taken =>
      Reads.choice (Accepts.acceptLexeme .keyword "else") (Reads.map (readsBody "else body").anywhere)
        (Reads.pure _) ?_) (fun _ _ _ _ _ _ => trivial)) (fun _ _ _ _ _ _ => trivial)).congr ?_
  · rintro word node rest ⟨rfl, -⟩ next
    exact next
  · intro more _ word node
    constructor
    · rintro ⟨condition, _, _, rfl, ⟨test, rfl, expression⟩, taken, block, tail, rfl, inside, chosen⟩
      refine ⟨test, condition, block, taken, tail, by simp only [List.cons_append, List.append_assoc,
        List.nil_append], expression, inside, ?_⟩
      rcases chosen with ⟨block', rfl, otherwise, inside', rfl⟩ | ⟨rfl, rfl⟩
      · exact .inr ⟨block', otherwise, rfl, inside', rfl⟩
      · exact .inl ⟨rfl, rfl⟩
    · rintro ⟨test, condition, block, taken, tail, rfl, expression, inside, chosen⟩
      refine ⟨condition, _, block ++ tail, by simp only [List.cons_append, List.append_assoc,
        List.nil_append], ⟨test, rfl, expression⟩, taken, block, tail, rfl, inside, ?_⟩
      rcases chosen with ⟨rfl, rfl⟩ | ⟨block', otherwise, rfl, inside', rfl⟩
      · exact .inr ⟨rfl, rfl⟩
      · exact .inl ⟨block', rfl, otherwise, inside', rfl⟩

theorem whileTail_reads (reads : Reads value (Expression · depth) limit (.notKind .operator))
    (readsBody : ∀ what, Reads (body what) (Block · depth) limit .any) :
    Reads (whileTail value body) (WhileTail · depth) limit .any := by
  refine (Reads.bind (condition_reads "while" reads) (fun test => Reads.map (readsBody "while body"))
    (fun _ _ _ _ _ _ => trivial)).congr ?_
  intro more _ word node
  constructor
  · rintro ⟨condition, _, block, rfl, ⟨test, rfl, expression⟩, nodes, inside, rfl⟩
    exact ⟨test, condition, block, nodes, by simp only [List.cons_append, List.append_assoc,
      List.nil_append], expression, inside, rfl⟩
  · rintro ⟨test, condition, block, nodes, rfl, expression, inside, rfl⟩
    exact ⟨condition, _, block, by simp only [List.cons_append, List.append_assoc, List.nil_append],
      ⟨test, rfl, expression⟩, nodes, inside, rfl⟩

theorem forTail_reads (reads : Reads value (Expression · depth) limit (.notKind .operator))
    (readsBody : ∀ what, Reads (body what) (Block · depth) limit .any) :
    Reads (forTail value body) (ForTail · depth) limit .any := by
  refine (Reads.expectThen .tupleStart "(" _ (Reads.bind (assignment_reads reads) (fun start =>
    Reads.bind reads (fun test => Reads.expectThen .delimiter ";" _
      (Reads.bind reads (fun increment => Reads.expectThen .tupleEnd ")" _
        (Reads.map (readsBody "for body"))) ?_)) ?_) ?_)).congr ?_
  · rintro increment word node rest ⟨tail, rfl, -⟩ -
    rintro _ ⟨⟩ ⟨⟩
  · rintro condition word node rest ⟨tail, rfl, -⟩ -
    rintro _ ⟨⟩ ⟨⟩
  · -- Without a semicolon the start of the loop ends where the condition begins.
    rintro start word node rest ⟨condition, test, tail, rfl, expression, -⟩ -
    rw [List.append_assoc]
    exact expression.ends
  · intro more _ word node
    constructor
    · rintro ⟨_, rfl, start, initial, _, rfl, assignment, condition, test, _, rfl, expression, _, rfl,
        increment, step, _, rfl, expression', block, rfl, nodes, inside, rfl⟩
      exact ⟨initial, start, test, condition, step, increment, block, nodes,
        by simp only [List.cons_append, List.append_assoc], assignment, expression, expression', inside, rfl⟩
    · rintro ⟨initial, start, test, condition, step, increment, block, nodes, rfl, assignment, expression,
        expression', inside, rfl⟩
      exact ⟨_, rfl, start, initial, _, by simp only [List.append_eq, List.cons_append, List.append_assoc],
        assignment, condition, test, _, rfl, expression, _, rfl, increment, step, _, rfl, expression', block,
        rfl, nodes, inside, rfl⟩

theorem returnTail_reads (reads : Reads value (Expression · depth) limit (.notKind .operator)) :
    Reads (returnTail value) (ReturnTail · depth) limit .any := by
  refine (Reads.bind reads (fun node => Reads.expectLast ..) ?_).congr ?_
  · rintro node word made rest ⟨rfl, -⟩ -
    rintro _ ⟨⟩ ⟨⟩
  · intro more _ word node
    constructor
    · rintro ⟨made, head, _, rfl, expression, rfl, rfl⟩
      exact ⟨head, made, rfl, expression, rfl⟩
    · rintro ⟨head, made, rfl, expression, rfl⟩
      exact ⟨made, head, _, rfl, expression, rfl, rfl⟩

/-- The choice of a statement by its first symbol, once a declarator has been passed over. -/
def dispatch (value : Reader Node) (body : String → Reader (List Node)) : Reader Node := do
  if ← check .identifier then assignment value
  else if ← acceptKeyword "function" then functionTail body
  else if ← acceptKeyword "class" then classTail value body
  else if ← acceptKeyword "if" then conditionalTail value body
  else if ← acceptKeyword "while" then whileTail value body
  else if ← acceptKeyword "for" then forTail value body
  else if ← acceptKeyword "return" then returnTail value
  else unexpected (.fitting "at start of statement")

theorem statementWith_eq : statementWith value body = skipDeclarator >>= fun _ => dispatch value body := rfl

theorem statementWith_eq_dispatch (tokens : List Token) :
    statementWith value body tokens = dispatch value body (afterDeclarator tokens) := by
  rw [statementWith_eq, bind_of_ok (skipDeclarator_eq tokens)]

theorem dispatch_of_name {first : Token} {rest : List Token} (name : first.kind = .identifier) :
    dispatch value body (first :: rest) = assignment value (first :: rest) := by
  have found : check .identifier (first :: rest) = .ok (true, first :: rest) := by
    simp [check, name]
  rw [dispatch, bind_of_ok found, if_pos rfl]

theorem dispatch_reads (reads : Reads value (Expression · depth) limit (.notKind .operator))
    (readsBody : ∀ what, Reads (body what) (Block · depth) limit .any) :
    Reads (dispatch value body) (Dispatched · depth) limit Ends := by
  refine Reads.check (assignment_reads reads)
    (Reads.choice (Accepts.acceptLexeme .keyword "function") (functionTail_reads readsBody).anywhere
      (Reads.choice (Accepts.acceptLexeme .keyword "class") (classTail_reads reads readsBody).anywhere
        (Reads.choice (Accepts.acceptLexeme .keyword "if")
          ((conditionalTail_reads reads readsBody).narrow fun _ ends => Ends.notElse ends)
          (Reads.choice (Accepts.acceptLexeme .keyword "while") (whileTail_reads reads readsBody).anywhere
            (Reads.choice (Accepts.acceptLexeme .keyword "for") (forTail_reads reads readsBody).anywhere
              (Reads.choiceOnly (Accepts.acceptLexeme .keyword "return") (returnTail_reads reads).anywhere)
              ?_) ?_) ?_) ?_) ?_) ?_ ?_
  · rintro word node rest ⟨_, rfl, -⟩ -
    exact Follow.notSymbol_cons (by decide)
  · rintro word node rest (⟨_, rfl, -⟩ | ⟨_, rfl, -⟩) - <;> exact Follow.notSymbol_cons (by decide)
  · rintro word node rest (⟨_, rfl, -⟩ | ⟨_, rfl, -⟩ | ⟨_, rfl, -⟩) - <;>
      exact Follow.notSymbol_cons (by decide)
  · rintro word node rest (⟨_, rfl, -⟩ | ⟨_, rfl, -⟩ | ⟨_, rfl, -⟩ | ⟨_, rfl, -⟩) - <;>
      exact Follow.notSymbol_cons (by decide)
  · rintro word node rest (⟨_, rfl, -⟩ | ⟨_, rfl, -⟩ | ⟨_, rfl, -⟩ | ⟨_, rfl, -⟩ | ⟨_, rfl, -⟩) - <;>
      exact Follow.notSymbol_cons (by decide)
  · rintro word node rest assignment -
    obtain ⟨name, tail, rfl⟩ := assignment.starts
    exact ⟨_, rfl, rfl⟩
  · rintro word node rest (⟨_, rfl, -⟩ | ⟨_, rfl, -⟩ | ⟨_, rfl, -⟩ | ⟨_, rfl, -⟩ | ⟨_, rfl, -⟩ |
      ⟨_, rfl, -⟩) - <;> exact Follow.notKind_cons (by decide)

theorem statement_iff {word : List Symbol} {node : Node} :
    Statement limit depth word node ↔ Dispatched limit depth word node ∨
      ∃ tail, word = ⟨.identifier, Words.declarator⟩ :: tail ∧ Assignment limit depth tail node := by
  constructor
  · intro statement
    cases statement with
    | assignment assignment => exact .inl (.inl assignment)
    | declaration assignment => exact .inr ⟨_, rfl, assignment⟩
    | function function => exact .inl (.inr (.inl ⟨_, rfl, function⟩))
    | classType members => exact .inl (.inr (.inr (.inl ⟨_, rfl, _, _, _, rfl, members, rfl⟩)))
    | conditional expression inside =>
        exact .inl (.inr (.inr (.inr (.inl ⟨_, rfl, _, _, _, _, [], (List.append_nil _).symm, expression,
          inside, .inl ⟨rfl, rfl⟩⟩))))
    | alternative expression inside inside' =>
        exact .inl (.inr (.inr (.inr (.inl ⟨_, rfl, _, _, _, _, _, rfl, expression, inside,
          .inr ⟨_, _, rfl, inside', rfl⟩⟩))))
    | whileLoop expression inside =>
        exact .inl (.inr (.inr (.inr (.inr (.inl ⟨_, rfl, _, _, _, _, rfl, expression, inside, rfl⟩)))))
    | forLoop start test step inside =>
        exact .inl (.inr (.inr (.inr (.inr (.inr (.inl
          ⟨_, rfl, _, _, _, _, _, _, _, _, rfl, start, test, step, inside, rfl⟩))))))
    | returning expression =>
        exact .inl (.inr (.inr (.inr (.inr (.inr (.inr ⟨_, rfl, _, _, rfl, expression, rfl⟩))))))
  · rintro ((assignment | ⟨_, rfl, function⟩ | ⟨_, rfl, name, inside, members, rfl, stands, rfl⟩ |
      ⟨_, rfl, test, condition, block, body, tail, rfl, expression, inside, chosen⟩ |
      ⟨_, rfl, test, condition, block, body, rfl, expression, inside, rfl⟩ |
      ⟨_, rfl, initial, start, test, condition, step, increment, block, body, rfl, assignment, expression,
        expression', inside, rfl⟩ |
      ⟨_, rfl, inside, value, rfl, expression, rfl⟩) | ⟨_, rfl, assignment⟩)
    · exact .assignment assignment
    · exact .function function
    · exact .classType stands
    · rcases chosen with ⟨rfl, rfl⟩ | ⟨block', otherwise, rfl, inside', rfl⟩
      · rw [List.append_nil]
        exact .conditional expression inside
      · exact .alternative expression inside inside'
    · exact .whileLoop expression inside
    · exact .forLoop assignment expression expression' inside
    · exact .returning expression
    · exact .declaration assignment

theorem afterDeclarator_of_dispatched {used : List Token} (rest : List Token) {node : Node}
    (dispatched : Dispatched limit depth (used.map Token.symbol) node) :
    afterDeclarator (used ++ rest) = used ++ rest := by
  rcases dispatched.starts with assignment | ⟨lexeme, tail, starts⟩
  · obtain ⟨name, tail, starts⟩ := assignment.starts
    obtain ⟨first, used, rfl, -, starts⟩ := List.map_eq_cons_iff.mp starts
    obtain ⟨second, used, rfl, symbol, -⟩ := List.map_eq_cons_iff.mp starts
    refine afterDeclarator_eq_self _ (.inr ?_)
    rw [(Token.symbol_eq_iff.mp symbol).1]
    decide
  · obtain ⟨first, used, rfl, symbol, -⟩ := List.map_eq_cons_iff.mp starts
    cases left : used ++ rest with
    | nil => rw [List.cons_append, left]; rfl
    | cons second rest =>
        rw [List.cons_append, left]
        refine afterDeclarator_eq_self _ (.inl ?_)
        rw [(Token.symbol_eq_iff.mp symbol).1]
        decide

theorem afterDeclarator_of_statement {used : List Token} (rest : List Token) {node : Node}
    (statement : Statement limit depth (used.map Token.symbol) node) :
    ∃ left, afterDeclarator (used ++ rest) = left ++ rest ∧
      Dispatched limit depth (left.map Token.symbol) node := by
  rcases statement_iff.mp statement with dispatched | ⟨tail, starts, assignment⟩
  · exact ⟨used, afterDeclarator_of_dispatched rest dispatched, dispatched⟩
  · obtain ⟨first, used, rfl, declarator, rfl⟩ := List.map_eq_cons_iff.mp starts
    refine ⟨used, ?_, .inl assignment⟩
    obtain ⟨name, tail, starts⟩ := assignment.starts
    obtain ⟨second, used, rfl, symbol, -⟩ := List.map_eq_cons_iff.mp starts
    exact if_pos ⟨declarator, (Token.symbol_eq_iff.mp symbol).1⟩

/-- A declarator is passed over only before a name, and so before an assignment. -/
theorem statementWith_reads (reads : Reads value (Expression · depth) limit (.notKind .operator))
    (readsBody : ∀ what, Reads (body what) (Block · depth) limit .any) :
    Reads (statementWith value body) (Statement · depth) limit Ends where
  sound := by
    intro more tokens rest node less spelled read
    rw [statementWith_eq_dispatch] at read
    rcases afterDeclarator_cases tokens with same | ⟨first, second, left, rfl, declarator, name, same⟩
    · rw [same] at read
      obtain ⟨used, split, dispatched⟩ := (dispatch_reads reads readsBody).sound less spelled read
      exact ⟨used, split, statement_iff.mpr (.inl dispatched)⟩
    · rw [same, dispatch_of_name name] at read
      obtain ⟨used, split, assignment⟩ := (assignment_reads reads).sound less spelled.tail read
      refine ⟨first :: used, by rw [split]; rfl, ?_⟩
      rw [List.map_cons, declarator]
      exact .declaration assignment
  complete := by
    intro used node rest statement ends
    obtain ⟨left, same, dispatched⟩ := afterDeclarator_of_statement rest statement
    rw [statementWith_eq_dispatch, same]
    exact (dispatch_reads reads readsBody).complete rest dispatched ends
  live := by
    obtain ⟨word, node, assignment⟩ := (assignment_reads reads).live
    exact ⟨word, node, .assignment assignment⟩
  stops := by
    intro tokens stop found wanted spelled failed cause
    rw [statementWith_eq_dispatch] at failed
    rcases afterDeclarator_cases tokens with same | ⟨first, second, left, rfl, declarator, name, same⟩
    · rw [same] at failed
      obtain ⟨named, used, split, word, node, dispatched⟩ := (dispatch_reads reads readsBody).stops spelled failed cause
      exact ⟨named, used, split, word, node, statement_iff.mpr (.inl dispatched)⟩
    · rw [same, dispatch_of_name name] at failed
      obtain ⟨named, used, split, word, node, assignment⟩ := (assignment_reads reads).stops spelled.tail failed cause
      refine ⟨named, first :: used, by rw [split]; rfl, word, node, ?_⟩
      rw [List.map_cons, declarator]
      exact .declaration assignment

theorem block_reads {room : Nat} (levels : depth + room = limit) (what : String) :
    Reads (block room what) (Block · depth) limit .any := by
  induction room generalizing depth what with
  | zero =>
      -- The inside has no room, but with one level more it may be empty.
      refine (Reads.expectThen .delimiter opening _ (.tooDeep ?_ ?_)).congr fun _ _ _ _ => block_iff.symm
      · rintro word nodes ⟨fits, -⟩
        omega
      · exact ⟨_, [], by omega, [], rfl, .nil⟩
  | succ room ih =>
      have deeper : depth + 1 + room = limit := by omega
      have inside := statements_read (statementWith_reads (expression_reads deeper) (ih deeper))
      have upToBrace : Reads (inBlock (repeated blockDone (statementWith (expression room) (block room))) >>=
          fun nodes => expect .delimiter closing ("to close " ++ what) >>= fun _ => pure nodes)
          (BlockTail · depth) limit .any := by
        refine (Reads.bind inside.inBlock (fun nodes => Reads.expectLast ..) ?_).congr ?_
        · rintro nodes word made rest ⟨rfl, -⟩ -
          rintro _ ⟨⟩
          rfl
        · intro more less word nodes
          constructor
          · rintro ⟨made, head, _, rfl, stands, rfl, rfl⟩
            exact ⟨by omega, head, rfl, stands⟩
          · rintro ⟨-, head, rfl, stands⟩
            exact ⟨_, _, _, rfl, stands, rfl, rfl⟩
      exact (Reads.expectThen .delimiter opening _ upToBrace).congr fun _ _ _ _ => block_iff.symm

theorem statement_reads {room : Nat} (levels : depth + room = limit) :
    Reads (statement room) (Statement · depth) limit Ends :=
  statementWith_reads (expression_reads levels) (block_reads levels)

end Reader

end BraceCompiler
