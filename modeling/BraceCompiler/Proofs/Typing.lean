import BraceCompiler.Proofs.Reading.Programs
import BraceCompiler.Proofs.Target.Expressions
import BraceCompiler.Proofs.Target.Landmarks
import BraceCompiler.Proofs.Target.Text
import BraceCompiler.Proofs.Token.Declarator

/-! What the check of a declared type accepts. It compares the type with the first word of the value's text. No value
but a text literal can start with the name of a type, because of the source a clean program is read from: a declared
type is always a reserved word, and a name never is. -/

namespace BraceCompiler

open Text

/-- A digit, a minus sign or an opening bracket. -/
def opensValue (c : Char) : Bool := isDigit c || c == '-' || c == '(' || c == '['

theorem opensValue_not_isBlank {c : Char} (opens : opensValue c = true) : isBlank c = false := by
  simp only [opensValue, Bool.or_eq_true, beq_iff_eq] at opens
  rcases opens with ((digit | rfl) | rfl) | rfl
  · by_contra blank
    have continues := continuesName_of_isDigit digit
    rw [isBlank_not_continuesName (Bool.not_eq_false _ ▸ blank)] at continues
    cases continues
  · decide
  · decide
  · decide

theorem head_of_type {type : String} (isType : type ∈ Words.dataTypes) :
    type.toList.head?.all (!opensValue ·) = true := by
  have all : Words.dataTypes.all (fun type => type.toList.head?.all (!opensValue ·)) = true := by decide
  exact List.all_eq_true.mp all type isType

/-- The text starts with a character of a number or a bracket, as no type does. -/
def OpensValue (text : String) : Prop := ∃ c, text.toList.head? = some c ∧ opensValue c = true

theorem OpensValue.append {text : String} (opens : OpensValue text) (rest : String) : OpensValue (text ++ rest) := by
  obtain ⟨c, first, isOpening⟩ := opens
  refine ⟨c, ?_, isOpening⟩
  rw [String.toList_append, List.head?_append, first, Option.some_or]

/-- A first word starts where the text does, if the text does not start with a blank. -/
theorem FirstWord.head? {text word : String} {c : Char} (first : FirstWord text word)
    (starts : text.toList.head? = some c) (solid : isBlank c = false) : word.toList.head? = some c := by
  obtain ⟨before, after, same, blanks, -, -, whole⟩ := first
  rw [same] at starts
  cases before with
  | cons blank others =>
      cases starts
      rw [blanks c List.mem_cons_self] at solid
      cases solid
  | nil =>
      cases letters : word.toList with
      | nil =>
          rw [letters, whole (String.toList_eq_nil_iff.mp letters)] at starts
          cases starts
      | cons d rest =>
          rw [letters] at starts
          exact starts

theorem OpensValue.firstWord_ne {text word : String} (opens : OpensValue text) (first : FirstWord text word) :
    word ∉ Words.dataTypes := by
  obtain ⟨c, starts, isOpening⟩ := opens
  intro isType
  have noValue := head_of_type isType
  rw [first.head? starts (opensValue_not_isBlank isOpening), Option.all_some, isOpening] at noValue
  cases noValue

theorem opensValue_digits {digits : List Char} (isDigits : IsDigits digits) : OpensValue (String.ofList digits) := by
  obtain ⟨c, rest, rfl⟩ := List.exists_cons_of_ne_nil isDigits.1
  refine ⟨c, by rw [String.toList_ofList, List.head?_cons], ?_⟩
  simp [opensValue, isDigits.2 c List.mem_cons_self]

theorem opensValue_integer (value : Int) : OpensValue (toString value) := by
  cases value with
  | ofNat magnitude =>
      have shown : toString (Int.ofNat magnitude) = String.ofList (Nat.toDigits 10 magnitude) :=
        Nat.toString_eq_ofList_toDigits
      rw [shown]
      exact opensValue_digits (Number.isDigits_toDigits magnitude)
  | negSucc magnitude => exact OpensValue.append ⟨'-', rfl, rfl⟩ _

theorem opensValue_positional (decimal : Number.Decimal) : OpensValue (Number.positionalText decimal) := by
  have isDigits := Number.isDigits_toDigits decimal.digits
  rw [Number.positionalText]
  split
  · exact ((opensValue_digits isDigits).append _).append _
  · split
    · rename_i whole
      refine ((opensValue_digits ⟨?_, ?_⟩).append _).append _
      · simp only [ne_eq, List.take_eq_nil_iff, isDigits.1, or_false]
        omega
      · intro c member
        exact isDigits.2 c (List.mem_of_mem_take member)
    · exact (OpensValue.append ⟨'0', rfl, rfl⟩ _).append _

theorem opensValue_finite (negative : Bool) (mantissa : Nat) (exponent : Int) :
    OpensValue (Number.finiteText Number.programLayout negative mantissa exponent) := by
  have minus : OpensValue "-" := ⟨'-', rfl, rfl⟩
  simp only [Number.finiteText, Number.programLayout, if_true]
  split
  · cases negative with
    | true => exact minus.append _
    | false => exact ⟨'0', rfl, rfl⟩
  · cases negative with
    | true => exact minus.append _
    | false =>
        rw [if_neg Bool.false_ne_true, String.empty_append]
        exact opensValue_positional _

/-- Neither a number nor a truth value starts with a type. -/
theorem Literal.firstWord_ne {literal : Literal} {word : String} (first : FirstWord literal.display word)
    (noText : ∀ text, literal ≠ .text text) : word ∉ Words.dataTypes := by
  cases literal with
  | integer value => exact (opensValue_integer value).firstWord_ne first
  | real value =>
      cases value with
      | nan =>
          rw [← first.eq]
          decide
      | infinite negative =>
          rw [← first.eq]
          cases negative <;> decide
      | finite negative mantissa exponent => exact (opensValue_finite negative mantissa exponent).firstWord_ne first
  | text text => exact absurd rfl (noText text)
  | boolean value =>
      rw [← first.eq]
      cases value <;> decide

/-- A value whose text starts with a type is a text or a name. -/
theorem Node.text_or_name {value : Node} {text word : String} (rendered : value.value = .ok text)
    (first : FirstWord text word) (isType : word ∈ Words.dataTypes) :
    (∃ text, value = .literal (.text text)) ∨ ∃ name, value = .identifier name := by
  have same := value.value_gives text rendered
  rw [same] at first
  cases value with
  | literal literal =>
      by_contra other
      rw [not_or] at other
      refine Literal.firstWord_ne first ?_ isType
      rintro text rfl
      exact other.1 ⟨text, rfl⟩
  | identifier name => exact .inr ⟨name, rfl⟩
  | binary left operator right =>
      exact absurd isType (((OpensValue.append ⟨'(', rfl, rfl⟩ _).append _).firstWord_ne first)
  | array elements =>
      exact absurd isType (((OpensValue.append ⟨'[', rfl, rfl⟩ _).append _).firstWord_ne first)
  | tuple elements =>
      exact absurd isType (((OpensValue.append ⟨'(', rfl, rfl⟩ _).append _).firstWord_ne first)
  | _ => cases rendered

theorem IsName.continuesName {name : List Char} (isName : IsName name) : ∀ c ∈ name, continuesName c = true := by
  cases isName with
  | spelled starts continues =>
      exact List.forall_mem_cons.mpr ⟨continuesName_of_startsName starts, continues⟩

theorem firstWord_of_name {name : String} (isName : IsName name.toList) : FirstWord name name := by
  have solid : ∀ c ∈ name.toList, isBlank c = false := by
    intro c member
    by_contra blank
    have continues := isName.continuesName c member
    rw [isBlank_not_continuesName (Bool.not_eq_false _ ▸ blank)] at continues
    cases continues
  exact ⟨[], [], (List.append_nil _).symm, nofun, solid, nofun, fun _ => rfl⟩

/-- The types in a header, and the name that is a value, stand among these symbols. -/
def Landmark.From (word : List Symbol) : Landmark → Prop
  | .header entry => ∀ parameter ∈ entry.parameters, ∀ type ∈ parameter.type, ⟨.dataType, type⟩ ∈ word
  | .site _ value => ∀ name, value = .identifier name → ⟨.identifier, name⟩ ∈ word

def AllFrom (word : List Symbol) (landmarks : List Landmark) : Prop := ∀ landmark ∈ landmarks, landmark.From word

namespace AllFrom

variable {word other : List Symbol} {landmarks more : List Landmark}

theorem mono (all : AllFrom word landmarks) (within : ∀ symbol, symbol ∈ word → symbol ∈ other) :
    AllFrom other landmarks := by
  intro landmark member
  cases landmark with
  | header entry =>
      intro parameter listed type typed
      exact within _ (all _ member parameter listed type typed)
  | site name value =>
      intro name isName
      exact within _ (all _ member name isName)

theorem nil : AllFrom word [] := List.forall_mem_nil _

theorem cons {landmark : Landmark} (first : landmark.From word) (all : AllFrom word landmarks) :
    AllFrom word (landmark :: landmarks) := List.forall_mem_cons.mpr ⟨first, all⟩

theorem append (all : AllFrom word landmarks) (allMore : AllFrom word more) : AllFrom word (landmarks ++ more) :=
  List.forall_mem_append.mpr ⟨all, allMore⟩

/-- A type that the last header declares stands among the symbols. -/
theorem declared {name type : String} (all : AllFrom word landmarks)
    (found : Landmark.declared landmarks name = some (some type)) : ⟨.dataType, type⟩ ∈ word := by
  obtain ⟨entry, nearest, typed⟩ := Option.bind_eq_some_iff.mp found
  obtain ⟨landmark, member, isHeader⟩ := List.mem_filterMap.mp (List.mem_of_getLast? nearest)
  obtain ⟨parameter, chosen, hasType⟩ := Option.map_eq_some_iff.mp typed
  cases landmark with
  | site => cases isHeader
  | header =>
      cases isHeader
      exact all _ member parameter (List.mem_reverse.mp (List.mem_of_find?_eq_some chosen)) type hasType

end AllFrom

theorem Node.memberLandmarks_cons (member : Member) (members : List Member) :
    memberLandmarks (member :: members) = memberLandmarks [member] ++ memberLandmarks members := by
  cases member with
  | property => rfl
  | method declared => simp only [memberLandmarks, List.append_nil]

namespace Grammar

theorem chained_eq_identifier {first : Node} {operations : List (String × Node)} {name : String}
    (isName : chained first operations = .identifier name) : first = .identifier name := by
  induction operations using List.reverseRecOn with
  | nil => exact isName
  | append_singleton operations operation _ =>
      rw [chained, List.foldl_append] at isName
      cases isName

mutual

/-- An expression that is a name has it among its symbols, however many parentheses stand around it. -/
theorem Expression.name_mem {limit depth : Nat} {word : List Symbol} {value : Node} :
    Expression limit depth word value → ∀ name, value = .identifier name → ⟨.identifier, name⟩ ∈ word
  | .chain term _ _ => by
      intro name isName
      exact List.mem_append_left _ (term.name_mem name (chained_eq_identifier isName))

theorem Term.name_mem {limit depth : Nat} {word : List Symbol} {value : Node} :
    Term limit depth word value → ∀ name, value = .identifier name → ⟨.identifier, name⟩ ∈ word
  | .identifier => by
      intro name isName
      cases isName
      exact List.mem_singleton_self _
  | .group derived => by
      intro name isName
      have member := derived.name_mem name isName
      simp [member]
  | .integer _ | .real _ | .text | .boolean | .emptyArray | .array _ | .emptyTuple | .tuple _ _ => nofun

end

theorem OneParameter.type_mem {word : List Symbol} {parameter : Parameter} (derived : OneParameter word parameter) :
    ∀ type ∈ parameter.type, ⟨.dataType, type⟩ ∈ word := by
  intro type typed
  cases derived with
  | untyped => cases typed
  | typed =>
      cases typed
      simp

theorem Parameters.type_mem {word : List Symbol} {parameters : List Parameter} (derived : Parameters word parameters) :
    ∀ parameter ∈ parameters, ∀ type ∈ parameter.type, ⟨.dataType, type⟩ ∈ word := by
  cases derived with
  | none => exact nofun
  | some derived =>
      induction derived with
      | one derived =>
          intro parameter listed
          rw [List.mem_singleton.mp listed]
          exact derived.type_mem
      | more derived _ ih =>
          intro parameter listed type typed
          rcases List.mem_cons.mp listed with rfl | listed
          · exact List.mem_append_left _ (derived.type_mem type typed)
          · exact List.mem_append_right _ (List.mem_cons_of_mem _ (ih parameter listed type typed))

theorem Assignment.landmarks_from {limit depth : Nat} {word : List Symbol} {node : Node}
    (derived : Assignment limit depth word node) : AllFrom word node.landmarks := by
  cases derived with
  | plain derived =>
      refine .cons ?_ .nil
      intro name isName
      have member := derived.name_mem _ isName
      simp [member]
  | closed derived =>
      refine .cons ?_ .nil
      intro name isName
      have member := derived.name_mem _ isName
      simp [member]

theorem Assignment.startLandmarks_eq {limit depth : Nat} {word : List Symbol} {node : Node}
    (derived : Assignment limit depth word node) : node.startLandmarks = node.landmarks := by
  cases derived with
  | plain => rfl
  | closed => rfl

mutual

theorem Statement.landmarks_from {limit depth : Nat} {word : List Symbol} {node : Node} :
    Statement limit depth word node → AllFrom word node.landmarks
  | .assignment derived => derived.landmarks_from
  | .declaration derived => derived.landmarks_from.mono (by simp +contextual)
  | .function derived => derived.landmarks_from.mono (by simp +contextual)
  | .classType derived => derived.landmarks_from.mono (by simp +contextual)
  | .conditional _ block => block.landmarks_from.mono (by simp +contextual)
  | .alternative _ block other =>
      (block.landmarks_from.mono (by simp +contextual)).append (other.landmarks_from.mono (by simp +contextual))
  | .whileLoop _ block => block.landmarks_from.mono (by simp +contextual)
  | .forLoop initial _ _ block => by
      rw [Node.landmarks, initial.startLandmarks_eq]
      exact (initial.landmarks_from.mono (by simp +contextual)).append (block.landmarks_from.mono (by simp +contextual))
  | .returning _ => .nil

theorem Function.landmarks_from {limit depth : Nat} {word : List Symbol} {node : Node} :
    Function limit depth word node → AllFrom word node.landmarks
  | .declaration parameters block => by
      refine .cons ?_ (block.landmarks_from.mono (by simp +contextual))
      intro parameter listed type typed
      have member := parameters.type_mem parameter listed type typed
      simp [member]

theorem OneMember.landmarks_from {limit depth : Nat} {word : List Symbol} {member : Member} :
    OneMember limit depth word member → AllFrom word (Node.memberLandmarks [member])
  | .property _ => .nil
  | .closedProperty _ => .nil
  | .method derived => by
      rw [Node.memberLandmarks]
      refine .append ?_ .nil
      split
      · exact derived.landmarks_from.mono (by simp +contextual)
      · exact .nil

theorem Members.landmarks_from {limit depth : Nat} {word : List Symbol} {members : List Member} :
    Members limit depth word members → AllFrom word (Node.memberLandmarks members)
  | .nil => .nil
  | .cons first others => by
      rw [Node.memberLandmarks_cons]
      exact (first.landmarks_from.mono (by simp +contextual)).append (others.landmarks_from.mono (by simp +contextual))

theorem Block.landmarks_from {limit depth : Nat} {word : List Symbol} {nodes : List Node} :
    Block limit depth word nodes → AllFrom word (Node.allLandmarks nodes)
  | .braces _ derived => derived.landmarks_from.mono (by simp +contextual)

theorem Statements.landmarks_from {limit depth : Nat} {word : List Symbol} {nodes : List Node} :
    Statements limit depth word nodes → AllFrom word (Node.allLandmarks nodes)
  | .nil => .nil
  | .cons first others =>
      (first.landmarks_from.mono (by simp +contextual)).append (others.landmarks_from.mono (by simp +contextual))

end

end Grammar

/-- The writer comes to the assignment with these bindings: all before it has been written, and nothing of it. -/
def Node.Reaches (program : Node) (name : String) (value : Node) (bindings : Bindings) : Prop :=
  ∃ before after done later, program.landmarks = before ++ .site name value :: after ∧
    program.steps = done ++ .assign name value.value :: later ∧ Marked done before ∧
    (Step.runAll done .empty).fault = none ∧ (Step.runAll done .empty).bindings = bindings

section

variable {source name type : String} {program value : Node} {bindings : Bindings}

theorem landmarks_from_source (parsed : parse (tokensOf source) = .ok program) :
    AllFrom ((tokensOf source).map Token.symbol) program.landmarks := by
  obtain ⟨body, rfl, derived⟩ := (parse_eq_ok_iff (spelled_tokensOf source)).mp parsed
  exact derived.landmarks_from

theorem dataType_of_mem (listed : ⟨.dataType, type⟩ ∈ (tokensOf source).map Token.symbol) :
    type ∈ Words.dataTypes := by
  have isType : String.ofList type.toList ∈ Words.dataTypes := language_of_symbol listed
  rwa [String.ofList_toList] at isType

theorem name_of_mem (clean : warningsOf source = [])
    (listed : ⟨.identifier, name⟩ ∈ (tokensOf source).map Token.symbol) :
    IsName name.toList ∧ name ∉ Words.dataTypes := by
  refine ⟨language_of_symbol listed, ?_⟩
  rcases (lexes_of_clean clean).names nofun _ listed rfl with declarator | unreserved
  · rw [show name = Words.declarator from declarator]
    decide
  · exact unreserved.2.1

/-- A declared type is the first word of a value only if the value is a text. -/
theorem isText_of_firstWord {text : String} (clean : warningsOf source = [])
    (parsed : parse (tokensOf source) = .ok program) (listed : .site name value ∈ program.landmarks)
    (isType : type ∈ Words.dataTypes) (rendered : value.value = .ok text) (first : FirstWord text type) :
    value = .literal (.text text) := by
  rcases Node.text_or_name rendered first isType with ⟨text, rfl⟩ | ⟨name, rfl⟩
  · cases rendered
    rfl
  · cases rendered
    obtain ⟨isName, noType⟩ := name_of_mem clean (landmarks_from_source parsed _ listed _ rfl)
    rw [← first.eq, (firstWord_of_name isName).eq] at isType
    exact absurd isType noType

end

/-- Where an assignment goes to a variable with a declared type, it passes if and only if its value is a text literal
whose first word is the type. All other values end the writing with a mismatch of types. -/
theorem typed_assignment_iff {source name type : String} {program value : Node} {bindings : Bindings}
    (clean : warningsOf source = []) (parsed : parse (tokensOf source) = .ok program)
    (reached : program.Reaches name value bindings) (typed : bindings.get? name = some (some type)) :
    ((∃ next, checkAssignment bindings name value.value = .ok next) ↔
      ∃ text, value = .literal (.text text) ∧ FirstWord text type) ∧
    ((¬∃ text, value = .literal (.text text) ∧ FirstWord text type) →
      ∃ word, checkAssignment bindings name value.value = .error (.typeMismatch name type word) ∧
        generate program = .error (.typeMismatch name type word) ∧
        (Fault.typeMismatch name type word).complaint.code = "E_TYPE") := by
  obtain ⟨before, after, done, later, marks, steps, marked, finished, rfl⟩ := reached
  have allClean := (parse_shaped parsed).steps_clean
  rw [steps] at allClean
  obtain ⟨text, rendered⟩ : ∃ text, value.value = .ok text :=
    allClean _ (List.mem_append_right _ List.mem_cons_self)
  have isType : type ∈ Words.dataTypes := by
    have all := landmarks_from_source parsed
    rw [marks] at all
    rw [marked.get?_bindings finished] at typed
    exact dataType_of_mem (AllFrom.declared (List.forall_mem_append.mp all).1 typed)
  have listed : .site name value ∈ program.landmarks := by
    rw [marks]
    exact List.mem_append_right _ List.mem_cons_self
  have isText : FirstWord text type ↔ ∃ text, value = .literal (.text text) ∧ FirstWord text type := by
    constructor
    · intro first
      exact ⟨text, isText_of_firstWord clean parsed listed isType rendered first, first⟩
    · rintro ⟨text, rfl, first⟩
      cases rendered
      exact first
  have checked : checkAssignment (Step.runAll done .empty).bindings name value.value =
      if type = Text.firstWord text then .ok (Step.runAll done .empty).bindings
      else .error (.typeMismatch name type (Text.firstWord text)) := by
    rw [rendered, checkAssignment_eq, typed]
  rw [← isText, ← firstWord_eq_iff]
  constructor
  · constructor
    · intro ⟨next, passed⟩
      rw [checked] at passed
      split at passed
      · rename_i same
        exact same.symm
      · cases passed
    · intro same
      exact ⟨_, checked.trans (if_pos same.symm)⟩
  · intro other
    have refused := checked.trans (if_neg (Ne.symm other))
    have stops := Step.fault_eq_some_iff.mpr ⟨done, _, later, steps, finished, refused⟩
    refine ⟨Text.firstWord text, refused, ?_, rfl⟩
    rw [generate_eq, stops]

/-- What the method of the class leaves bound. -/
def methodBindings : Bindings := .ofParameters [⟨"a", some "int"⟩, ⟨"a", some "string"⟩]

theorem reaches_method : methodProgram.Reaches "a" (.literal (.integer 12)) methodBindings :=
  ⟨methodProgram.landmarks.take 2, methodProgram.landmarks.drop 3, methodProgram.steps.take 7,
    methodProgram.steps.drop 8, rfl, rfl, rfl, rfl, rfl⟩

/-- The start of the loop is reached with the type of the method's parameter, and its value is a number. -/
theorem typed_assignment_iff_method :
    warningsOf methodSource = [] ∧ parse (tokensOf methodSource) = .ok methodProgram ∧
    methodProgram.Reaches "a" (.literal (.integer 12)) methodBindings ∧
    methodBindings.get? "a" = some (some "string") ∧
    (¬∃ next, checkAssignment methodBindings "a" (Node.literal (.integer 12)).value = .ok next) ∧
    ∃ word, generate methodProgram = .error (.typeMismatch "a" "string" word) := by
  have clean : warningsOf methodSource = [] := by decide +kernel
  have parsed : parse (tokensOf methodSource) = .ok methodProgram := by
    rw [tokensOf_methodSource, parse_methodTokens]
  have typed : methodBindings.get? "a" = some (some "string") := by decide
  have noText : ¬∃ text, Node.literal (.integer 12) = .literal (.text text) ∧ FirstWord text "string" := by
    intro ⟨text, same, _⟩
    cases same
  obtain ⟨passes, refused⟩ := typed_assignment_iff clean parsed reaches_method typed
  obtain ⟨word, -, stops, -⟩ := refused noText
  exact ⟨clean, parsed, reaches_method, typed, passes.not.mpr noText, word, stops⟩

end BraceCompiler
