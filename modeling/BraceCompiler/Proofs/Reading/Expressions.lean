import BraceCompiler.Proofs.Reading.Built
import BraceCompiler.Proofs.Reading.Grammar

/-! The readers of expressions read the expressions of the grammar. The induction is on the room left,
which with the depth makes up the limit. -/

namespace BraceCompiler

open Grammar

variable {limit depth : Nat}

/-- The kinds that a term can begin with. -/
def TokenKind.startsTerm : TokenKind → Bool
  | .number | .float | .text | .boolean | .identifier | .arrayStart | .tupleStart => true
  | _ => false

namespace Grammar

theorem Term.starts {word : List Symbol} {node : Node} (term : Term limit depth word node) :
    ∃ symbol tail, word = symbol :: tail ∧ symbol.kind.startsTerm = true := by
  cases term <;> exact ⟨_, _, rfl, rfl⟩

theorem Expression.starts {word : List Symbol} {node : Node} (expression : Expression limit depth word node) :
    ∃ symbol tail, word = symbol :: tail ∧ symbol.kind.startsTerm = true := by
  cases expression with
  | chain first _ _ =>
      obtain ⟨symbol, tail, rfl, starts⟩ := first.starts
      exact ⟨symbol, _, rfl, starts⟩

theorem Expression.notKind {word rest : List Symbol} {node : Node} {kind : TokenKind}
    (expression : Expression limit depth word node) (other : kind.startsTerm = false) :
    Follow.notKind kind (word ++ rest) := by
  obtain ⟨symbol, tail, rfl, starts⟩ := expression.starts
  rintro _ ⟨⟩ rfl
  rw [starts] at other
  cases other

/-- The operations on a first operand that was read before. -/
def Chain (limit depth : Nat) (first : Node) : Phrase Node := fun word node =>
  ∃ operations, Operations limit depth word operations ∧ depth + operations.length ≤ limit ∧
    node = chained first operations

/-- An operator, its right operand and the operations after them. -/
def Operated (limit depth : Nat) (first : Node) : Phrase Node := fun word node =>
  ∃ operator tail, word = ⟨.operator, operator⟩ :: tail ∧ ∃ right head rest, tail = head ++ rest ∧
    Term limit (depth + 1) head right ∧ Chain limit (depth + 1) (.binary first operator right) rest node

theorem expression_iff {word : List Symbol} {node : Node} : Expression limit depth word node ↔
    ∃ first head tail, word = head ++ tail ∧ Term limit (depth + 1) head first ∧
      Chain limit (depth + 1) first tail node := by
  constructor
  · intro expression
    cases expression with
    | chain stands rest fits => exact ⟨_, _, _, rfl, stands, _, rest, fits, rfl⟩
  · rintro ⟨first, head, tail, rfl, stands, list, rest, fits, rfl⟩
    exact .chain stands rest fits

/-- Either there is a first operation, or the operand stands alone. -/
theorem chain_iff {first : Node} {word : List Symbol} {node : Node} (within : depth ≤ limit) :
    Chain limit depth first word node ↔ Operated limit depth first word node ∨ word = [] ∧ node = first := by
  constructor
  · rintro ⟨list, stands, fits, rfl⟩
    cases stands with
    | nil => exact .inr ⟨rfl, rfl⟩
    | cons stands rest =>
        simp only [List.length_cons] at fits
        exact .inl ⟨_, _, rfl, _, _, _, rfl, stands, _, rest, by omega, rfl⟩
  · rintro (⟨operator, _, rfl, right, head, tail, rfl, stands, list, rest, fits, rfl⟩ | ⟨rfl, rfl⟩)
    · exact ⟨(operator, right) :: list, .cons stands rest, by simp only [List.length_cons]; omega, rfl⟩
    · exact ⟨[], .nil, by simp only [List.length_nil]; omega, rfl⟩

theorem separated_of_elements {word : List Symbol} {values : List Node}
    (elements : Elements limit depth word values) : Separated (Expression limit depth) word values := by
  induction values generalizing word with
  | nil => cases elements
  | cons value values ih =>
      cases elements with
      | one expression => exact .one expression
      | more expression elements => exact .more expression (ih elements)

theorem elements_of_separated {word : List Symbol} {values : List Node}
    (elements : Separated (Expression limit depth) word values) : Elements limit depth word values := by
  induction elements with
  | one expression => exact .one expression
  | more expression _ ih => exact .more expression ih

theorem elements_iff {word : List Symbol} {values : List Node} :
    Separated (Expression limit depth) word values ↔ Elements limit depth word values :=
  ⟨elements_of_separated, separated_of_elements⟩

end Grammar

namespace Reader

variable {nested : Reader Node}

theorem elements_reads (reads : Reads nested (Expression · depth) limit (.notKind .operator)) :
    Reads (separated nested) (Elements · depth) limit
      (fun rest => Follow.notKind .operator rest ∧ Follow.notKind .comma rest) :=
  (reads.separated (fun _ => by rintro _ ⟨⟩ ⟨⟩)).congr (fun _ _ _ _ => elements_iff)

/-- After an opening bracket. -/
theorem arrayTail_reads (reads : Reads nested (Expression · depth) limit (.notKind .operator)) :
    Reads (arrayTail nested) (fun more word node => Term more depth (⟨.arrayStart, "["⟩ :: word) node) limit .any := by
  refine (Reads.check (Reads.expectLast ..)
    (Reads.bind (elements_reads reads) (fun elements => Reads.expectLast ..) ?_) ?_ ?_).congr ?_
  · rintro elements word node rest ⟨rfl, -⟩ -
    exact ⟨by rintro _ ⟨⟩ ⟨⟩, by rintro _ ⟨⟩ ⟨⟩⟩
  · rintro word node rest ⟨rfl, -⟩ -
    exact ⟨_, rfl, rfl⟩
  · rintro word node rest ⟨elements, head, tail, rfl, stands, -⟩ -
    rw [List.append_assoc]
    cases stands with
    | one expression => exact expression.notKind rfl
    | more expression _ => rw [List.append_assoc]; exact expression.notKind rfl
  · intro more _ word node
    constructor
    · rintro (⟨rfl, rfl⟩ | ⟨elements, head, tail, rfl, stands, rfl, rfl⟩)
      · exact .emptyArray
      · exact .array stands
    · generalize same : (⟨.arrayStart, "["⟩ :: word : List Symbol) = whole
      intro term
      cases term <;> cases same
      · exact .inl ⟨rfl, rfl⟩
      · rename_i elements
        exact .inr ⟨_, _, _, rfl, elements, rfl, rfl⟩

/-- After an opening parenthesis. -/
theorem tupleTail_reads (reads : Reads nested (Expression · depth) limit (.notKind .operator)) :
    Reads (tupleTail nested) (fun more word node => Term more depth (⟨.tupleStart, "("⟩ :: word) node) limit .any := by
  -- After the first expression, a comma decides between a tuple and a group.
  refine (Reads.choice (Accepts.accept .tupleEnd rfl) (Reads.pure (Node.tuple []))
    (Reads.bind reads (fun first => Reads.choice (Accepts.accept .comma rfl)
      (Reads.bind (elements_reads reads) (fun others => Reads.expectLast ..) ?_)
      (Reads.expectLast ..) ?_) ?_) ?_).congr ?_
  · rintro elements word node rest ⟨rfl, -⟩ -
    exact ⟨by rintro _ ⟨⟩ ⟨⟩, by rintro _ ⟨⟩ ⟨⟩⟩
  · rintro word node rest ⟨rfl, -⟩ -
    rintro _ ⟨⟩ ⟨⟩
  · rintro first word node rest (⟨tail, rfl, -⟩ | ⟨rfl, -⟩) -
    · rintro _ ⟨⟩ ⟨⟩
    · rintro _ ⟨⟩ ⟨⟩
  · rintro word node rest ⟨first, head, tail, rfl, expression, -⟩ -
    rw [List.append_assoc]
    exact expression.notKind rfl
  · intro more _ word node
    constructor
    · rintro (⟨_, rfl, rfl, rfl⟩ | ⟨first, head, _, rfl, expression,
        ⟨_, rfl, elements, word, _, rfl, stands, rfl, rfl⟩ | ⟨rfl, rfl⟩⟩)
      · exact .emptyTuple
      · have tuple := Term.tuple expression stands
        simpa only [List.cons_append, List.append_assoc] using tuple
      · exact .group expression
    · generalize same : (⟨.tupleStart, "("⟩ :: word : List Symbol) = whole
      intro term
      cases term <;> cases same
      · exact .inl ⟨_, rfl, rfl, rfl⟩
      · rename_i expression
        exact .inr ⟨_, _, _, rfl, expression, .inr ⟨rfl, rfl⟩⟩
      · rename_i expression elements
        refine .inr ⟨_, _, _, ?_, expression, .inl ⟨_, rfl, _, _, _, rfl, elements, rfl, rfl⟩⟩
        simp only [List.append_eq, List.append_assoc, List.cons_append]

theorem term_sound (reads : Reads nested (Expression · depth) limit (.notKind .operator)) {more : Nat}
    {tokens rest : List Token} {node : Node} (less : limit ≤ more) (spelled : Spelled tokens)
    (read : term nested tokens = .ok (node, rest)) :
    ∃ used, tokens = used ++ rest ∧ Term more depth (used.map Token.symbol) node := by
  cases tokens with
  | nil => cases read
  | cons token tokens =>
      -- A term of one token, once its symbol is known.
      have single {lexeme : TokenKind} (kind : token.kind = lexeme)
          (stands : Term more depth [⟨lexeme, token.lexeme⟩] node) (left : tokens = rest) :
          ∃ used, token :: tokens = used ++ rest ∧ Term more depth (used.map Token.symbol) node := by
        subst left
        rw [← Token.symbol_of_kind kind] at stands
        exact ⟨[token], rfl, stands⟩
      rw [term] at read
      split at read
      all_goals rename_i kind
      · split at read
        · rename_i made
          cases read
          exact single kind (.integer made) rfl
        · cases read
      · split at read
        · rename_i made
          cases read
          exact single kind (.real made) rfl
        · cases read
      · cases read
        exact single kind .text rfl
      · cases read
        exact single kind .identifier rfl
      · cases read
        exact single kind .boolean rfl
      · obtain ⟨used, rfl, stands⟩ := (arrayTail_reads reads).sound less spelled.tail read
        rw [← spelled.symbol_eq kind rfl] at stands
        exact ⟨token :: used, rfl, stands⟩
      · obtain ⟨used, rfl, stands⟩ := (tupleTail_reads reads).sound less spelled.tail read
        rw [← spelled.symbol_eq kind rfl] at stands
        exact ⟨token :: used, rfl, stands⟩
      · cases read

/-- What opens with a bracket or a parenthesis goes to the reader of what comes after it. -/
theorem term_of_opened {opener : Symbol} {inside : Reader Node}
    (enters : ∀ {token : Token}, token.kind = opener.kind → ∀ tokens, term nested (token :: tokens) = inside tokens)
    (readsInside : Reads inside (fun more word node => Term more depth (opener :: word) node) limit .any)
    {used : List Token} {tail : List Symbol} {node : Node} (rest : List Token)
    (starts : used.map Token.symbol = opener :: tail) (stands : Term limit depth (opener :: tail) node) :
    term nested (used ++ rest) = .ok (node, rest) := by
  obtain ⟨token, used, rfl, symbol, rfl⟩ := List.map_eq_cons_iff.mp starts
  rw [List.cons_append, enters (congrArg Symbol.kind symbol)]
  exact readsInside.complete rest stands trivial

theorem term_complete (reads : Reads nested (Expression · depth) limit (.notKind .operator))
    {used : List Token} {node : Node} (rest : List Token)
    (stands : Term limit depth (used.map Token.symbol) node) :
    term nested (used ++ rest) = .ok (node, rest) := by
  generalize same : used.map Token.symbol = word at stands
  cases stands with
  | emptyArray => exact term_of_opened term_arrayStart (arrayTail_reads reads) rest same .emptyArray
  | array elements => exact term_of_opened term_arrayStart (arrayTail_reads reads) rest same (.array elements)
  | emptyTuple => exact term_of_opened term_tupleStart (tupleTail_reads reads) rest same .emptyTuple
  | group expression => exact term_of_opened term_tupleStart (tupleTail_reads reads) rest same (.group expression)
  | tuple expression elements =>
      exact term_of_opened term_tupleStart (tupleTail_reads reads) rest same (.tuple expression elements)
  | _ =>
      obtain ⟨token, rfl, symbol⟩ := List.map_eq_singleton_iff.mp same
      obtain ⟨kind, rfl⟩ := Token.symbol_eq_iff.mp symbol
      simp only [List.singleton_append, term, *]

theorem term_reads (reads : Reads nested (Expression · depth) limit (.notKind .operator)) :
    Reads (term nested) (Term · depth) limit .any where
  sound := term_sound reads
  complete rest stands _ := term_complete reads rest stands
  live := ⟨_, .identifier "", .identifier⟩
  stops := by
    intro tokens stop found wanted spelled failed cause
    cases tokens with
    | nil =>
        cases failed
        cases cause
        exact ⟨rfl, [], rfl, _, .identifier "", .identifier⟩
    | cons token tokens =>
        cases termStart token with
        | leaf _ taken => cases (taken nested tokens).symm.trans failed
        | array opens =>
            rw [term_arrayStart opens] at failed
            obtain ⟨named, used, rfl, word, node, stands⟩ := (arrayTail_reads reads).stops spelled.tail failed cause
            rw [← spelled.symbol_eq opens rfl] at stands
            exact ⟨named, token :: used, rfl, word, node, stands⟩
        | tuple opens =>
            rw [term_tupleStart opens] at failed
            obtain ⟨named, used, rfl, word, node, stands⟩ := (tupleTail_reads reads).stops spelled.tail failed cause
            rw [← spelled.symbol_eq opens rfl] at stands
            exact ⟨named, token :: used, rfl, word, node, stands⟩
        | oversize _ _ stops | unreadable _ _ stops =>
            cases (stops nested tokens).symm.trans failed
            cases cause
        | misfit stops =>
            cases (stops nested tokens).symm.trans failed
            cases cause
            exact ⟨rfl, [], rfl, _, .identifier "", .identifier⟩

/-- The operations on a first operand, if the first operator and what comes after it are read. -/
theorem chain_reads {first : Node} {operated : Reader Node} (within : depth ≤ limit)
    (reads : Reads operated (Operated · depth first) limit (.notKind .operator)) :
    Reads (check .operator >>= fun found => if found = true then operated else pure first) (Chain · depth first) limit
      (.notKind .operator) := by
  refine (Reads.check reads (Reads.pure first) ?_ ?_).congr fun more less word node =>
    (chain_iff (Nat.le_trans within less)).symm
  · rintro word node rest ⟨operator, tail, rfl, -⟩ -
    exact ⟨_, rfl, rfl⟩
  · rintro word node rest ⟨rfl, -⟩ next
    exact next

/-- Both readers at once: each calls the other with one level less. -/
theorem expression_operations_read {room : Nat} (levels : depth + room = limit) :
    Reads (expression room) (Expression · depth) limit (.notKind .operator) ∧
      ∀ first, Reads (operations room first) (Chain · depth first) limit (.notKind .operator) := by
  induction room generalizing depth with
  | zero =>
      -- Nothing has room here, but with one level more a name has, and so has one operation.
      refine ⟨.tooDeep ?_ ?_, fun first => chain_reads (by omega) (.tooDeep ?_ ?_)⟩
      · intro word node expression
        cases expression with
        | chain _ _ fits => omega
      · exact ⟨_, _, .chain (.identifier : Term _ _ _ (.identifier "")) .nil (by simp only [List.length_nil]; omega)⟩
      · rintro word node ⟨operator, _, -, right, head, tail, -, -, list, -, fits, -⟩
        omega
      · exact ⟨_, _, "", _, rfl, .identifier "", _, _, rfl, .identifier, [], .nil,
          by simp only [List.length_nil]; omega, rfl⟩
  | succ room ih =>
      have deeper := ih (by omega : depth + 1 + room = limit)
      refine ⟨?_, fun first => chain_reads (by omega) ?_⟩
      · exact (Reads.bind (term_reads deeper.1) deeper.2 (fun _ _ _ _ _ _ => trivial)).congr
          fun _ _ _ _ => expression_iff.symm
      · exact Reads.expectKindThen .operator "in expression" fun operator =>
          Reads.bind (term_reads deeper.1) (fun right => deeper.2 (.binary first operator right))
            (fun _ _ _ _ _ _ => trivial)

theorem expression_reads {room : Nat} (levels : depth + room = limit) :
    Reads (expression room) (Expression · depth) limit (.notKind .operator) :=
  (expression_operations_read levels).1

end Reader

end BraceCompiler
