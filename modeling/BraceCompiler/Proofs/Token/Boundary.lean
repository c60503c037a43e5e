import BraceCompiler.Proofs.Token.Lexicon
import BraceCompiler.Proofs.Token.Spelling

/-! The boundary before a word. The rules of words ask the character before them with `precedesWord`; a pattern that sees
the whole text asks it with `extendsWord`. The two tests part on the characters of `isDisputed`, and there only. -/

namespace BraceCompiler

namespace Text

/-- Whether no code point is in both. What lies below the first range lies below the later ones too, so it is dropped
for good. -/
def Ranges.apart : Ranges → Ranges → Bool
  | [], _ => true
  | (low, high) :: rest, others =>
      match others.dropWhile (·.2 < low) with
      | [] => true
      | (start, stop) :: later => high < start && Ranges.apart rest ((start, stop) :: later)

theorem Ranges.covers_dropWhile {others : Ranges} {low code : Nat} (above : low ≤ code)
    (covered : others.covers code = true) : Ranges.covers (others.dropWhile (·.2 < low)) code = true := by
  induction others with
  | nil => cases covered
  | cons range others ih =>
      obtain ⟨start, stop⟩ := range
      rw [List.dropWhile_cons]
      split
      · rename_i below
        simp only [covers, Bool.and_eq_true, Bool.or_eq_true, decide_eq_true_eq] at covered below
        rcases covered.2 with inside | later
        · omega
        · exact ih later
      · exact covered

theorem Ranges.not_covers_of_apart {ranges others : Ranges} (apart : ranges.apart others = true) {code : Nat}
    (covered : ranges.covers code = true) : others.covers code = false := by
  refine Bool.eq_false_iff.mpr fun shared => ?_
  induction ranges generalizing others with
  | nil => cases covered
  | cons range ranges ih =>
      obtain ⟨low, high⟩ := range
      simp only [covers, Bool.and_eq_true, Bool.or_eq_true, decide_eq_true_eq] at covered
      have left := covers_dropWhile covered.1 shared
      rw [Ranges.apart] at apart
      split at apart
      · rename_i none
        rw [none] at left
        cases left
      · rename_i start stop later some
        rw [some] at left
        simp only [Bool.and_eq_true, decide_eq_true_eq] at apart
        rcases covered.2 with inside | further
        · simp only [covers, Bool.and_eq_true, decide_eq_true_eq] at left
          omega
        · exact ih apart.2 further left

/-- Marks, connectors and join controls: they go on with a word, letters or not. -/
def joinsWord (c : Char) : Bool :=
  mark.covers c.toNat || connector.covers c.toNat || joinControl.covers c.toNat

/-- The characters that only one of the two tests takes for a part of a word: fractions and other numbers that are no
decimal digits, letters and digits that were added last, and what joins words without being a letter. The underscore is
the one connector that both tests know. -/
def isDisputed (c : Char) : Bool :=
  otherNumber.covers c.toNat ||
    (addedLast.covers c.toNat && (alphabetic.covers c.toNat || decimalDigit.covers c.toNat)) ||
    (!addedLast.covers c.toNat && !alphabetic.covers c.toNat && c != '_' && joinsWord c)

theorem otherNumber_apart {c : Char} (number : otherNumber.covers c.toNat = true) :
    alphabetic.covers c.toNat = false ∧ decimalDigit.covers c.toNat = false ∧ joinsWord c = false := by
  have apart : ∀ others ∈ [alphabetic, decimalDigit, mark, connector, joinControl],
      otherNumber.apart others = true := by decide +kernel
  have outside := fun others listed => Ranges.not_covers_of_apart (apart others listed) number
  refine ⟨outside _ (by simp), outside _ (by simp), ?_⟩
  rw [joinsWord, outside mark (by simp), outside connector (by simp), outside joinControl (by simp)]
  rfl

theorem joinsWord_apart {c : Char} (joins : joinsWord c = true) : decimalDigit.covers c.toNat = false := by
  have apart : ∀ ranges ∈ [mark, connector, joinControl], ranges.apart decimalDigit = true := by decide +kernel
  simp only [joinsWord, Bool.or_eq_true] at joins
  rcases joins with (joins | joins) | joins
  all_goals exact Ranges.not_covers_of_apart (apart _ (by simp)) joins

theorem extendsWord_eq_joinsWord (c : Char) : extendsWord c =
    (!addedLast.covers c.toNat && (alphabetic.covers c.toNat || decimalDigit.covers c.toNat || joinsWord c)) := by
  rw [extendsWord, joinsWord]
  ac_rfl

theorem isDisputed_eq (c : Char) : isDisputed c = (precedesWord c != extendsWord c) := by
  rw [isDisputed, precedesWord, extendsWord_eq_joinsWord]
  cases number : otherNumber.covers c.toNat with
  | true =>
      obtain ⟨noLetter, noDigit, noJoin⟩ := otherNumber_apart number
      simp [noLetter, noDigit, noJoin]
  | false =>
      by_cases line : c = '_'
      · subst line
        decide +kernel
      · have other : (c == '_') = false := beq_eq_false_iff_ne.mpr line
        rw [bne, other]
        cases joins : joinsWord c with
        | true => cases addedLast.covers c.toNat <;> simp [joinsWord_apart joins]
        | false => cases addedLast.covers c.toNat <;> simp

end Text

open Text

/-- A list of words of one kind: the rule of that kind has this list, and all its words are names. -/
structure WordList (kind : TokenKind) (words : List String) : Prop where
  only : Rule.table.filter (·.kind == kind) = [.words kind words]
  kinds : ∀ word ∈ words, wordKind word = kind
  names : ∀ word ∈ words, IsName word.toList

namespace WordList

variable {kind : TokenKind} {words : List String} {rest text : List Char}

theorem keywords : WordList .keyword Words.keywords := ⟨rfl, by decide, by decide⟩

theorem dataTypes : WordList .dataType Words.dataTypes := ⟨rfl, by decide, by decide⟩

theorem booleans : WordList .boolean Words.booleans := ⟨rfl, by decide, by decide⟩

/-- A rule of words sees the character before it through `precedesWord`. -/
theorem firstMatch_iff (list : WordList kind words) {before : Option Char} :
    firstMatch before rest = some ⟨kind, text, false⟩ ↔
      before.any precedesWord = false ∧ Shape.word words rest = some text := by
  constructor
  · intro matched
    have applied := firstMatch_sole matched rfl list.only
    obtain ⟨-, taken⟩ := Rule.apply_eq_some applied
    obtain ⟨_, found, pair⟩ := Option.map_eq_some_iff.mp taken
    obtain rfl : _ = text := congrArg Prod.fst pair
    refine ⟨Bool.eq_false_iff.mpr fun precedes => ?_, found⟩
    simp [Rule.apply, Rule.words, precedes] at applied
  · rintro ⟨apart, taken⟩
    obtain ⟨run, listed⟩ := Shape.word_eq_some_iff.mp taken
    have name := list.names _ listed
    rw [String.toList_ofList] at name
    have next := not_of_takeWhile (List.takeWhile_append_dropWhile (p := extendsWord) (l := rest))
    have matched := firstMatch_name name apart next
    rwa [run, List.takeWhile_append_dropWhile, ← run, list.kinds _ listed] at matched

/-- A pattern of words sees the character before it through `extendsWord`. -/
theorem findAt_iff (list : WordList kind words) {passed : List Char} :
    (Lexicon.word words).findAt passed rest = some ⟨text, none⟩ ↔
      passed.head?.any extendsWord = false ∧ Shape.word words rest = some text := by
  have noEmpty : "" ∉ words := by
    intro member
    cases list.names _ member
  rw [Lexicon.findAt_word noEmpty fun word member => (list.names word member).extendsWord]
  cases passed.head?.any extendsWord with
  | true => simp
  | false => simp [Option.map_eq_some_iff]

end WordList

/-- At this place of a source, the rules of words match what their patterns find when they see the text before it. -/
def SeesBoundary (before rest : List Char) : Prop :=
  ∀ kind pattern, (kind, pattern) ∈ Lexicon.entries → kind ∈ Lexicon.wordKinds → ∀ text,
    firstMatch before.getLast? rest = some ⟨kind, text, false⟩ ↔
      pattern.findAt before.reverse rest = some ⟨text, none⟩

theorem exists_wordList {kind : TokenKind} {pattern : Pattern} (listed : (kind, pattern) ∈ Lexicon.entries)
    (isWord : kind ∈ Lexicon.wordKinds) : ∃ words, WordList kind words ∧ pattern = Lexicon.word words := by
  have entries : (kind, pattern) ∈ Lexicon.entries.filter (·.1 ∈ Lexicon.wordKinds) :=
    List.mem_filter.mpr ⟨listed, decide_eq_true isWord⟩
  have three : Lexicon.entries.filter (·.1 ∈ Lexicon.wordKinds) = [(.keyword, Lexicon.word Words.keywords),
      (.dataType, Lexicon.word Words.dataTypes), (.boolean, Lexicon.word Words.booleans)] := rfl
  rw [three] at entries
  simp only [List.mem_cons, Prod.mk.injEq, List.not_mem_nil, or_false] at entries
  rcases entries with ⟨rfl, rfl⟩ | ⟨rfl, rfl⟩ | ⟨rfl, rfl⟩
  · exact ⟨_, .keywords, rfl⟩
  · exact ⟨_, .dataTypes, rfl⟩
  · exact ⟨_, .booleans, rfl⟩

/-- A reserved word is in the list of one of the entries. -/
theorem exists_entry_of_reserved {word : String} (reserved : ¬ Unreserved word) :
    ∃ kind words, (kind, Lexicon.word words) ∈ Lexicon.entries ∧ kind ∈ Lexicon.wordKinds ∧ WordList kind words ∧
      word ∈ words := by
  by_cases keyword : word ∈ Words.keywords
  · exact ⟨.keyword, _, by simp [Lexicon.entries], by decide, .keywords, keyword⟩
  · by_cases dataType : word ∈ Words.dataTypes
    · exact ⟨.dataType, _, by simp [Lexicon.entries], by decide, .dataTypes, dataType⟩
    · by_cases boolean : word ∈ Words.booleans
      · exact ⟨.boolean, _, by simp [Lexicon.entries], by decide, .booleans, boolean⟩
      · exact absurd ⟨keyword, dataType, boolean⟩ reserved

theorem WordList.not_mem_of_unreserved {kind : TokenKind} {words : List String} (list : WordList kind words)
    (isWord : kind ∈ Lexicon.wordKinds) {word : String} (unreserved : Unreserved word) : word ∉ words := by
  intro member
  have same := list.kinds word member
  rw [wordKind, if_neg unreserved.1, if_neg unreserved.2.1, if_neg unreserved.2.2] at same
  subst same
  exact absurd isWord (by decide)

/-- The character before a place is judged alike by both tests. -/
def Undisputed (before : List Char) : Prop := before.getLast?.any isDisputed = false

instance (before : List Char) : Decidable (Undisputed before) :=
  inferInstanceAs (Decidable (_ = _))

theorem undisputed_iff (before : List Char) :
    Undisputed before ↔ before.getLast?.any precedesWord = before.getLast?.any extendsWord := by
  rw [Undisputed]
  cases before.getLast? with
  | none => simp
  | some c => simp [isDisputed_eq]

/-- The rule of a reserved word and its pattern both look at the character before it, so they tell the tests apart. -/
theorem SeesBoundary.undisputed {before rest : List Char} (sees : SeesBoundary before rest)
    (reserved : ¬ Unreserved (String.ofList (rest.takeWhile extendsWord))) : Undisputed before := by
  obtain ⟨kind, words, listed, isWord, list, member⟩ := exists_entry_of_reserved reserved
  have taken : Shape.word words rest = some (rest.takeWhile extendsWord) := Shape.word_eq_some_iff.mpr ⟨rfl, member⟩
  have same := sees kind _ listed isWord (rest.takeWhile extendsWord)
  rw [list.firstMatch_iff, list.findAt_iff, List.head?_reverse, and_iff_left taken, and_iff_left taken] at same
  rw [undisputed_iff]
  exact Bool.not_inj (Bool.eq_iff_iff.mpr (by simpa using same))

theorem seesBoundary_of_unreserved {rest : List Char} (before : List Char)
    (unreserved : Unreserved (String.ofList (rest.takeWhile extendsWord))) : SeesBoundary before rest := by
  intro kind pattern listed isWord text
  obtain ⟨words, list, rfl⟩ := exists_wordList listed isWord
  have untaken : Shape.word words rest ≠ some text := by
    intro taken
    obtain ⟨rfl, member⟩ := Shape.word_eq_some_iff.mp taken
    exact list.not_mem_of_unreserved isWord unreserved member
  rw [list.firstMatch_iff, list.findAt_iff]
  exact iff_of_false (fun both => untaken both.2) fun both => untaken both.2

theorem seesBoundary_of_undisputed {before : List Char} (rest : List Char) (undisputed : Undisputed before) :
    SeesBoundary before rest := by
  intro kind pattern listed isWord text
  obtain ⟨words, list, rfl⟩ := exists_wordList listed isWord
  rw [list.firstMatch_iff, list.findAt_iff, List.head?_reverse, (undisputed_iff before).mp undisputed]

/-- The rules of words see the boundary at every place but one where a reserved word stands right after a disputed
character. -/
theorem seesBoundary_iff (before rest : List Char) : SeesBoundary before rest ↔
    Unreserved (String.ofList (rest.takeWhile extendsWord)) ∨ Undisputed before := by
  constructor
  · intro sees
    exact Classical.or_iff_not_imp_left.mpr sees.undisputed
  · rintro (unreserved | undisputed)
    · exact seesBoundary_of_unreserved before unreserved
    · exact seesBoundary_of_undisputed rest undisputed

/-- A fraction keeps the rule of Boolean words out, though a word can start after it. A combining accent lets the rule
in, though the word before goes on with it. -/
theorem boundary_missed : ¬ SeesBoundary ['½'] ['t', 'r', 'u', 'e'] ∧
    ¬ SeesBoundary ['e', '\u0301'] ['t', 'r', 'u', 'e'] := by
  have reserved : ¬ Unreserved (String.ofList (['t', 'r', 'u', 'e'].takeWhile extendsWord)) :=
    fun unreserved => unreserved.2.2 (by decide +kernel)
  exact ⟨fun sees => absurd (sees.undisputed reserved) (by decide +kernel),
    fun sees => absurd (sees.undisputed reserved) (by decide +kernel)⟩

end BraceCompiler
