import BraceCompiler.Proofs.Target.Text

/-! Brackets in program text. If no name, type, operator, value or text in a program has a bracket in it, the brackets
of its text are those of its constructs, and they close each other in order. -/

namespace BraceCompiler

inductive BracketShape where
  | round
  | square
  | curly
  deriving DecidableEq

/-- A bracket as it stands in a text. -/
inductive Edge where
  | opening (shape : BracketShape)
  | closing (shape : BracketShape)
  deriving DecidableEq

namespace Edge

def shape : Edge → BracketShape
  | .opening shape => shape
  | .closing shape => shape

def ofChar? : Char → Option Edge
  | '(' => some (.opening .round)
  | ')' => some (.closing .round)
  | '[' => some (.opening .square)
  | ']' => some (.closing .square)
  | '\x7b' => some (.opening .curly)
  | '\x7d' => some (.closing .curly)
  | _ => none

end Edge

/-- The brackets of a text in their order. -/
def edges (text : String) : List Edge := text.toList.filterMap Edge.ofChar?

/-- The brackets that are open at the end, the latest first. There is no end if a bracket is closed that is not the
latest open one. -/
def openAfter : (opened : List BracketShape) → List Edge → Option (List BracketShape)
  | opened, [] => some opened
  | opened, .opening shape :: rest => openAfter (shape :: opened) rest
  | [], .closing _ :: _ => none
  | latest :: opened, .closing shape :: rest => if latest = shape then openAfter opened rest else none

/-- Every bracket that closes matches the latest open one, and none is left open. -/
def WellNested (word : List Edge) : Prop := openAfter [] word = some []

instance (word : List Edge) : Decidable (WellNested word) := inferInstanceAs (Decidable (_ = _))

/-- The words that are built from pairs, side by side and inside each other. -/
inductive Nested : List Edge → Prop where
  | nil : Nested []
  | append {word other : List Edge} : Nested word → Nested other → Nested (word ++ other)
  | between (shape : BracketShape) {word : List Edge} : Nested word →
      Nested (.opening shape :: word ++ [.closing shape])

namespace Nested

/-- Such a word opens nothing and closes nothing of what stands around it. -/
theorem openAfter_append {word : List Edge} (nested : Nested word) (opened : List BracketShape) (rest : List Edge) :
    openAfter opened (word ++ rest) = openAfter opened rest := by
  induction nested generalizing opened rest with
  | nil => rfl
  | append _ _ ihFirst ihSecond => rw [List.append_assoc, ihFirst, ihSecond]
  | between shape _ ih =>
      rw [List.cons_append, List.cons_append, List.append_assoc, openAfter, ih, List.singleton_append, openAfter,
        if_pos rfl]

theorem wellNested {word : List Edge} (nested : Nested word) : WellNested word := by
  rw [WellNested, ← List.append_nil word, nested.openAfter_append]
  rfl

/-- The brackets of some shapes, without the others. -/
theorem filter {word : List Edge} (nested : Nested word) (kept : BracketShape → Bool) :
    Nested (word.filter fun edge => kept edge.shape) := by
  induction nested with
  | nil => exact nil
  | append _ _ ihFirst ihSecond =>
      rw [List.filter_append]
      exact ihFirst.append ihSecond
  | between shape _ ih =>
      rw [List.cons_append, List.filter_cons, List.filter_append, List.filter_cons, List.filter_nil]
      cases counted : kept shape with
      | true =>
          simp only [Edge.shape, counted, if_true]
          exact ih.between shape
      | false => simpa [Edge.shape, counted] using ih

theorem flatMap {α : Type} {items : List α} {word : α → List Edge} (nested : ∀ item ∈ items, Nested (word item)) :
    Nested (items.flatMap word) := by
  induction items with
  | nil => exact nil
  | cons item rest ih =>
      rw [List.flatMap_cons]
      exact (nested item List.mem_cons_self).append (ih fun other member => nested other (List.mem_cons_of_mem item member))

end Nested

@[simp] theorem edges_append (text other : String) : edges (text ++ other) = edges text ++ edges other := by
  rw [edges, String.toList_append, List.filterMap_append, edges, edges]

theorem edges_intercalate {separator : String} (plain : edges separator = []) (texts : List String) :
    edges (separator.intercalate texts) = texts.flatMap edges := by
  induction texts with
  | nil => rfl
  | cons text rest ih =>
      cases rest with
      | nil => simp
      | cons next rest => simp [String.intercalate_cons_cons, plain, ih]

theorem edges_ofList_digits {digits : List Char} (isDigits : ∀ c ∈ digits, c.isDigit = true) :
    edges (String.ofList digits) = [] := by
  rw [edges, String.toList_ofList, List.filterMap_eq_nil_iff]
  intro c member
  have digit := isDigits c member
  unfold Edge.ofChar?
  split
  case h_7 => rfl
  all_goals cases digit

theorem edges_toString (value : Int) : edges (toString value) = [] := by
  have digits (magnitude : Nat) : edges (String.ofList (Nat.toDigits 10 magnitude)) = [] :=
    edges_ofList_digits fun _ => Nat.isDigit_of_mem_toDigits (by decide) (by decide)
  cases value with
  | ofNat magnitude => exact (congrArg edges Nat.toString_eq_ofList_toDigits).trans (digits magnitude)
  | negSucc magnitude =>
      have shown : toString (Int.negSucc magnitude) = "-" ++ String.ofList (Nat.toDigits 10 (magnitude + 1)) :=
        congrArg ("-" ++ ·) Nat.repr_eq_ofList_toDigits
      rw [shown, edges_append, digits]
      rfl

namespace Number

theorem edges_zeros (count : Nat) : edges (zeros count) = [] := by
  refine edges_ofList_digits fun c member => ?_
  rw [List.eq_of_mem_replicate member]
  rfl

theorem edges_positionalText (decimal : Decimal) : edges (positionalText decimal) = [] := by
  have isDigits : ∀ c ∈ Nat.toDigits 10 decimal.digits, c.isDigit = true :=
    fun _ => Nat.isDigit_of_mem_toDigits (by decide) (by decide)
  have first (count : Nat) : edges (String.ofList ((Nat.toDigits 10 decimal.digits).take count)) = [] :=
    edges_ofList_digits fun c member => isDigits c (List.mem_of_mem_take member)
  have last (count : Nat) : edges (String.ofList ((Nat.toDigits 10 decimal.digits).drop count)) = [] :=
    edges_ofList_digits fun c member => isDigits c (List.mem_of_mem_drop member)
  have point : edges ".0" = [] ∧ edges "." = [] ∧ edges "0." = [] := ⟨rfl, rfl, rfl⟩
  rw [positionalText]
  split
  · simp [edges_ofList_digits isDigits, edges_zeros, point]
  · split
    · simp [first, last, point]
    · simp [edges_ofList_digits isDigits, edges_zeros, point]

theorem edges_programText (value : Binary64) : edges value.programText = [] := by
  cases value with
  | nan => rfl
  | infinite negative => cases negative <;> rfl
  | finite negative mantissa exponent =>
      have sign : edges (if negative then "-" else "") = [] := by cases negative <;> rfl
      simp only [Binary64.programText, finiteText, programLayout, if_true]
      split
      · rw [edges_append, sign]
        rfl
      · rw [edges_append, sign, edges_positionalText]
        rfl

end Number

namespace Literal

/-- The text that a literal stands for as it is. -/
def spellings : Literal → List String
  | .text value => [value]
  | _ => []

theorem edges_display {literal : Literal} (plain : ∀ word ∈ literal.spellings, edges word = []) :
    edges literal.display = [] := by
  cases literal with
  | integer value => exact edges_toString value
  | real value => exact Number.edges_programText value
  | text value => exact plain value List.mem_cons_self
  | boolean value => cases value <;> rfl

end Literal

def Parameter.spellings (parameter : Parameter) : List String := parameter.name :: parameter.type.toList

namespace Node

mutual

/-- Every name, type, operator, value of an enumeration and literal text in a program. -/
def spellings : Node → List String
  | .program body => allSpellings body
  | .function name parameters body => name :: parameters.flatMap Parameter.spellings ++ allSpellings body
  | .classType name members => name :: memberSpellings members
  | .assignment name value => name :: value.spellings
  | .conditional condition body none => condition.spellings ++ allSpellings body
  | .conditional condition body (some otherwise) =>
    condition.spellings ++ allSpellings body ++ allSpellings otherwise
  | .whileLoop condition body => condition.spellings ++ allSpellings body
  | .forLoop start condition increment body =>
    start.spellings ++ condition.spellings ++ increment.spellings ++ allSpellings body
  | .returning value => value.spellings
  | .attempt body handler => allSpellings body ++ allSpellings handler
  | .literal value => value.spellings
  | .binary left operator right => operator :: left.spellings ++ right.spellings
  | .identifier name => [name]
  | .array elements => allSpellings elements
  | .tuple elements => allSpellings elements
  | .enumeration name values => name :: values
  | .record name fields => name :: fields.flatMap fun field => [field.name, field.type]

def allSpellings : List Node → List String
  | [] => []
  | node :: rest => node.spellings ++ allSpellings rest

def memberSpellings : List Member → List String
  | [] => []
  | .property type name value :: rest => type :: name :: value.spellings ++ memberSpellings rest
  | .method declared :: rest => declared.spellings ++ memberSpellings rest

end

end Node

/-- No bracket stands in these words. -/
def Plain (words : List String) : Prop := ∀ word ∈ words, edges word = []

instance (words : List String) : Decidable (Plain words) := inferInstanceAs (Decidable (∀ word ∈ words, _))

@[simp] theorem plain_cons {word : String} {words : List String} :
    Plain (word :: words) ↔ edges word = [] ∧ Plain words := List.forall_mem_cons

@[simp] theorem plain_append {words others : List String} : Plain (words ++ others) ↔ Plain words ∧ Plain others :=
  List.forall_mem_append

namespace Node

theorem nested_wrap (grouping : Grouping) {text : String} (nested : Nested (edges text)) :
    Nested (edges (grouping.wrap text)) := by
  cases grouping with
  | bare => exact nested
  | parenthesized =>
      rw [Grouping.wrap, edges_append, edges_append]
      exact nested.between .round

mutual

theorem wording_nested : (node : Node) → (grouping : Grouping) → Plain node.spellings →
    Nested (edges (node.wording grouping))
  | .literal value, _, plain => by
      rw [wording, Literal.edges_display plain]
      exact .nil
  | .identifier name, _, plain => by
      rw [wording, plain name List.mem_cons_self]
      exact .nil
  | .binary left operator right, grouping, plain => by
      rw [spellings, List.cons_append, plain_cons, plain_append] at plain
      obtain ⟨plainOperator, plainLeft, plainRight⟩ := plain
      have blank : edges " " = [] := rfl
      rw [wording]
      refine nested_wrap grouping ?_
      simp only [edges_append, blank, plainOperator, List.append_nil]
      exact (wording_nested left .parenthesized plainLeft).append (wording_nested right .parenthesized plainRight)
  | .array elements, _, plain => by
      rw [wording, edges_append, edges_append, edges_intercalate rfl]
      exact (Nested.flatMap (allWordings_nested elements plain)).between .square
  | .tuple elements, _, plain => by
      rw [wording, edges_append, edges_append, edges_intercalate rfl]
      exact (Nested.flatMap (allWordings_nested elements plain)).between .round
  | .program _, _, _ | .function .., _, _ | .classType .., _, _ | .assignment .., _, _ | .conditional .., _, _
  | .whileLoop .., _, _ | .forLoop .., _, _ | .returning _, _, _ | .attempt .., _, _ | .enumeration .., _, _
  | .record .., _, _ => .nil

theorem allWordings_nested : (nodes : List Node) → Plain (allSpellings nodes) →
    ∀ text ∈ allWordings nodes, Nested (edges text)
  | [], _ => fun _ member => absurd member List.not_mem_nil
  | node :: rest, plain => by
      rw [allSpellings, plain_append] at plain
      rw [allWordings, List.forall_mem_cons]
      exact ⟨wording_nested node .parenthesized plain.1, allWordings_nested rest plain.2⟩

end

theorem startWording_nested (start : Node) (plain : Plain start.spellings) : Nested (edges start.startWording) := by
  cases start with
  | assignment name value =>
      rw [spellings, plain_cons] at plain
      rw [startWording, edges_append, edges_append, plain.1]
      exact value.wording_nested .parenthesized plain.2
  | _ => exact wording_nested _ .parenthesized plain

end Node

/-- The brackets of a line, without the braces of blocks. -/
def lineEdges (line : String) : List Edge := (edges line).filter fun edge => edge.shape ≠ .curly

/-- The lines are well nested together, and so is each of them but for the braces of blocks. -/
structure NestedLines (lines : List String) : Prop where
  whole : Nested (lines.flatMap edges)
  each : ∀ line ∈ lines, Nested (lineEdges line)

namespace NestedLines

theorem nil : NestedLines [] := ⟨.nil, fun _ member => absurd member List.not_mem_nil⟩

theorem append {lines others : List String} (nested : NestedLines lines) (nestedOthers : NestedLines others) :
    NestedLines (lines ++ others) where
  whole := by
    rw [List.flatMap_append]
    exact nested.whole.append nestedOthers.whole
  each := List.forall_mem_append.mpr ⟨nested.each, nestedOthers.each⟩

theorem line {text : String} (nested : Nested (edges text)) : NestedLines [text] where
  whole := by rwa [List.flatMap_singleton]
  each := by
    rw [List.forall_mem_singleton]
    exact nested.filter fun shape => shape ≠ .curly

/-- A line around a text that is well nested. -/
theorem around {first text last : String} (plainFirst : edges first = []) (nested : Nested (edges text))
    (plainLast : edges last = []) : NestedLines [first ++ text ++ last] := by
  refine line ?_
  rwa [edges_append, edges_append, plainFirst, plainLast, List.append_nil]

theorem map {α : Type} {items : List α} {text : α → String} (plain : ∀ item ∈ items, edges (text item) = []) :
    NestedLines (items.map text) := by
  induction items with
  | nil => exact nil
  | cons item rest ih =>
      have first : NestedLines [text item] := line (plain item List.mem_cons_self ▸ .nil)
      exact first.append (ih fun other member => plain other (List.mem_cons_of_mem item member))

theorem edges_blockLine (head : String) : edges (blockLine head) = edges head ++ [.opening .curly] := by
  rw [blockLine, edges_append]
  rfl

theorem edges_blockEnd : edges "\x7d" = [.closing .curly] := rfl

/-- In a block, only the head and the lines inside have other brackets than its braces. -/
theorem each_braced {head : String} {lines : List String} (nestedHead : Nested (lineEdges head))
    (each : ∀ line ∈ lines, Nested (lineEdges line)) : ∀ line ∈ braced head lines, Nested (lineEdges line) := by
  have first : lineEdges (blockLine head) = lineEdges head := by
    rw [lineEdges, edges_blockLine, List.filter_append, lineEdges]
    exact List.append_nil _
  refine List.forall_mem_cons.mpr ⟨first ▸ nestedHead, List.forall_mem_append.mpr ⟨each, ?_⟩⟩
  exact List.forall_mem_singleton.mpr .nil

theorem braced {head : String} {lines : List String} (nestedHead : Nested (edges head))
    (nested : NestedLines lines) : NestedLines (braced head lines) where
  whole := by
    have pair : (BraceCompiler.braced head lines).flatMap edges =
        edges head ++ (.opening .curly :: lines.flatMap edges ++ [.closing .curly]) := by
      simp [BraceCompiler.braced, edges_blockLine, edges_blockEnd]
    rw [pair]
    exact nestedHead.append (nested.whole.between .curly)
  each := each_braced (nestedHead.filter fun shape => shape ≠ .curly) nested.each

/-- The brace that ends the first block stands in the line that starts the second. -/
theorem attempt {lines others : List String} (nested : NestedLines lines) (nestedOthers : NestedLines others) :
    NestedLines (blockLine "try" :: lines ++ BraceCompiler.braced "\x7d catch (error)" others) where
  whole := by
    have first : edges "try" = [] := rfl
    have second : edges "\x7d catch (error)" = [.closing .curly, .opening .round, .closing .round] := rfl
    have pairs : (blockLine "try" :: lines ++ BraceCompiler.braced "\x7d catch (error)" others).flatMap edges =
        (.opening .curly :: lines.flatMap edges ++ [.closing .curly]) ++ (.opening .round :: [] ++ [.closing .round]) ++
          (.opening .curly :: others.flatMap edges ++ [.closing .curly]) := by
      simp [BraceCompiler.braced, edges_blockLine, edges_blockEnd, first, second]
    rw [pairs]
    exact ((nested.whole.between .curly).append (Nested.nil.between .round)).append (nestedOthers.whole.between .curly)
  each := List.forall_mem_append.mpr ⟨List.forall_mem_cons.mpr ⟨.nil, nested.each⟩,
    each_braced (Nested.nil.between .round) nestedOthers.each⟩

end NestedLines

theorem Parameter.edges_render {parameter : Parameter} (plain : Plain parameter.spellings) :
    edges parameter.render = [] := by
  obtain ⟨name, type⟩ := parameter
  cases type with
  | none => exact (plain_cons.mp plain).1
  | some type =>
      obtain ⟨plainName, plainType⟩ := plain_cons.mp plain
      rw [render, edges_append, edges_append, plainName, plainType type List.mem_cons_self]
      rfl

namespace Node

theorem functionHead_nested {name : String} {parameters : List Parameter} (plainName : edges name = [])
    (plain : Plain (parameters.flatMap Parameter.spellings)) : Nested (edges (functionHead name parameters)) := by
  have inside : edges (", ".intercalate (parameters.map Parameter.render)) = [] := by
    rw [edges_intercalate rfl, List.flatMap_map, List.flatMap_eq_nil_iff]
    intro parameter member
    exact Parameter.edges_render fun word spelled => plain word (List.mem_flatMap.mpr ⟨parameter, member, spelled⟩)
  rw [functionHead, edges_append, edges_append, edges_append, edges_append, inside, plainName]
  exact Nested.nil.between .round

/-- The head of a type: its word and its name. -/
theorem typeHead_nested {word name : String} (plainWord : edges word = []) (plainName : edges name = []) :
    Nested (edges (word ++ name)) := by
  rw [edges_append, plainWord, plainName]
  exact .nil

/-- A condition in parentheses after its word. -/
theorem conditionHead_nested {word : String} (opens : edges word = [.opening .round]) {condition : Node}
    (plain : Plain condition.spellings) : Nested (edges (word ++ condition.wording .parenthesized ++ ")")) := by
  rw [edges_append, edges_append, opens]
  exact (condition.wording_nested .parenthesized plain).between .round

theorem forHead_nested {start condition increment : Node} (plainStart : Plain start.spellings)
    (plainCondition : Plain condition.spellings) (plainIncrement : Plain increment.spellings) :
    Nested (edges ("for (" ++ start.startWording ++ "; " ++ condition.wording .parenthesized ++ "; " ++
      increment.wording .parenthesized ++ ")")) := by
  have opens : edges "for (" = [.opening .round] := rfl
  have divides : edges "; " = [] := rfl
  have closes : edges ")" = [.closing .round] := rfl
  have nested := (((start.startWording_nested plainStart).append
    (condition.wording_nested .parenthesized plainCondition)).append
    (increment.wording_nested .parenthesized plainIncrement)).between .round
  simpa [opens, divides, closes] using nested

mutual

theorem text_nested : (node : Node) → Plain node.spellings → NestedLines node.text
  | .program body, plain => by
      rw [text]
      exact allText_nested body plain
  | .function name parameters body, plain => by
      rw [spellings, List.cons_append, plain_cons, plain_append] at plain
      obtain ⟨plainName, plainParameters, plainBody⟩ := plain
      rw [text]
      exact (allText_nested body plainBody).braced (functionHead_nested plainName plainParameters)
  | .classType name members, plain => by
      rw [spellings, plain_cons] at plain
      rw [text]
      exact (memberText_nested members plain.2).braced (typeHead_nested rfl plain.1)
  | .assignment name value, plain => by
      rw [spellings, plain_cons] at plain
      rw [text]
      refine .around ?_ (value.wording_nested .parenthesized plain.2) rfl
      rw [edges_append, plain.1]
      rfl
  | .conditional condition body none, plain => by
      rw [spellings, plain_append] at plain
      rw [text]
      exact (allText_nested body plain.2).braced (conditionHead_nested rfl plain.1)
  | .conditional condition body (some []), plain => by
      rw [spellings, plain_append, plain_append] at plain
      obtain ⟨⟨plainCondition, plainBody⟩, -⟩ := plain
      rw [text]
      exact (allText_nested body plainBody).braced (conditionHead_nested rfl plainCondition)
  | .conditional condition body (some (first :: rest)), plain => by
      rw [spellings, allSpellings, plain_append, plain_append, plain_append] at plain
      obtain ⟨⟨plainCondition, plainBody⟩, plainFirst, plainRest⟩ := plain
      rw [text]
      refine .append ((allText_nested body plainBody).braced (conditionHead_nested rfl plainCondition)) ?_
      exact ((text_nested first plainFirst).append (allText_nested rest plainRest)).braced .nil
  | .whileLoop condition body, plain => by
      rw [spellings, plain_append] at plain
      rw [text]
      exact (allText_nested body plain.2).braced (conditionHead_nested rfl plain.1)
  | .forLoop start condition increment body, plain => by
      rw [spellings, plain_append, plain_append, plain_append] at plain
      obtain ⟨⟨⟨plainStart, plainCondition⟩, plainIncrement⟩, plainBody⟩ := plain
      rw [text]
      exact (allText_nested body plainBody).braced (forHead_nested plainStart plainCondition plainIncrement)
  | .returning value, plain => by
      rw [text]
      exact .around rfl (value.wording_nested .parenthesized plain) rfl
  | .attempt body handler, plain => by
      rw [spellings, plain_append] at plain
      rw [text]
      exact (allText_nested body plain.1).attempt (allText_nested handler plain.2)
  | .enumeration name values, plain => by
      rw [spellings, plain_cons] at plain
      rw [text]
      refine .braced (typeHead_nested rfl plain.1) (.map fun value member => ?_)
      rw [edges_append, edges_append, plain.2 value member]
      rfl
  | .record name fields, plain => by
      rw [spellings, plain_cons] at plain
      rw [text]
      refine .braced (typeHead_nested rfl plain.1) (.map fun field member => ?_)
      have plainName := plain.2 field.name (List.mem_flatMap.mpr ⟨field, member, by simp⟩)
      have plainType := plain.2 field.type (List.mem_flatMap.mpr ⟨field, member, by simp⟩)
      rw [edges_append, edges_append, edges_append, edges_append, plainName, plainType]
      rfl
  | .literal value, plain => .line (wording_nested _ _ plain)
  | .binary left operator right, plain => .line (wording_nested _ _ plain)
  | .identifier name, plain => .line (wording_nested _ _ plain)
  | .array elements, plain => .line (wording_nested _ _ plain)
  | .tuple elements, plain => .line (wording_nested _ _ plain)

theorem allText_nested : (nodes : List Node) → Plain (allSpellings nodes) → NestedLines (allText nodes)
  | [], _ => .nil
  | node :: rest, plain => by
      rw [allSpellings, plain_append] at plain
      rw [allText]
      exact (text_nested node plain.1).append (allText_nested rest plain.2)

theorem memberText_nested : (members : List Member) → Plain (memberSpellings members) →
    NestedLines (memberText members)
  | [], _ => .nil
  | .property type name value :: rest, plain => by
      rw [memberSpellings, List.cons_append, List.cons_append, plain_cons, plain_cons, plain_append] at plain
      obtain ⟨plainType, plainName, plainValue, plainRest⟩ := plain
      rw [memberText]
      refine NestedLines.append (.around ?_ (value.wording_nested .parenthesized plainValue) rfl)
        (memberText_nested rest plainRest)
      rw [edges_append, edges_append, edges_append, plainType, plainName]
      rfl
  | .method declared :: rest, plain => by
      rw [memberSpellings, plain_append] at plain
      rw [memberText]
      exact (text_nested declared plain.1).append (memberText_nested rest plain.2)

end

end Node

theorem text_of_generate {node : Node} {lines : List String} (written : generate node = .ok lines) :
    lines = node.text := by
  have added := Writer.initial.write_lines node
  rw [generate] at written
  split at written
  case h_1 writer outcome =>
    rw [outcome, if_pos rfl] at added
    cases written
    exact added
  case h_2 => cases written

/-- If no name, type, operator, value or text in a program has a bracket in it, the brackets of its text are well nested,
and in each line those that are no braces are well nested. -/
theorem generate_wellNested {node : Node} {lines : List String} (plain : Plain node.spellings)
    (written : generate node = .ok lines) :
    WellNested (edges ("\n".intercalate lines)) ∧ ∀ line ∈ lines, WellNested (lineEdges line) := by
  have nested := node.text_nested plain
  rw [← text_of_generate written] at nested
  rw [edges_intercalate rfl]
  exact ⟨nested.whole.wellNested, fun line member => (nested.each line member).wellNested⟩

/-- Blocks of every sort, one in the other, with all brackets in their heads. -/
def blocksProgram : Node := .program [
  .classType "C" [
    .property "list" "a" (.array [.literal (.integer (-1)), .tuple [.identifier "b", .literal (.text "c")]]),
    .method (.function "f" [⟨"x", some "int"⟩, ⟨"y", none⟩] [
      .conditional (.binary (.identifier "x") "<" (.binary (.identifier "y") "+" (.literal (.real .nan))))
        [.returning (.tuple [])] (some [.assignment "y" (.array [])]),
      .attempt [.forLoop (.assignment "y" (.literal (.integer 0))) (.identifier "y") (.identifier "y") []]
        [.whileLoop (.literal (.boolean true)) []]])],
  .enumeration "E" ["A", "B"],
  .record "S" [⟨"n", "T"⟩]]

def blocksLines : List String := [
  "class C \x7b",
  "list a = [-1, (b, c)];",
  "function f(x:int, y) \x7b",
  "if ((x < (y + NaN))) \x7b",
  "return ();",
  "\x7d",
  "else \x7b",
  "y = [];",
  "\x7d",
  "try \x7b",
  "for (y = 0; y; y) \x7b",
  "\x7d",
  "\x7d catch (error) \x7b",
  "while (true) \x7b",
  "\x7d",
  "\x7d",
  "\x7d",
  "\x7d",
  "enum E \x7b",
  "    A,",
  "    B,",
  "\x7d",
  "struct S \x7b",
  "    n : T;",
  "\x7d"]

theorem generate_wellNested_blocks : Plain blocksProgram.spellings ∧ generate blocksProgram = .ok blocksLines ∧
    WellNested (edges ("\n".intercalate blocksLines)) ∧ ∀ line ∈ blocksLines, WellNested (lineEdges line) := by
  have plain : Plain blocksProgram.spellings := by decide
  have written : generate blocksProgram = .ok blocksLines := by rfl
  exact ⟨plain, written, generate_wellNested plain written⟩

end BraceCompiler
