import BraceCompiler.Proofs.Token.Reserved

/-! Gaps between pieces. A gap is filled with blanks and with characters that no rule takes. Such a character is read as
an operator if a name stands before it, and blanks after the name do not count. There are more blanks than the rule for
blanks takes: one of the others is repaired like any character without a rule, and the name before it stays in sight for
the next. -/

namespace BraceCompiler

open Text

/-- The text, nearest character first, ends in a name. -/
def endsInName (passed : List Char) : Bool := (passed.takeWhile continuesName).any startsName

theorem followsName_blanks (passed : List Char) {text : List Char} (blanks : ∀ c ∈ text, isBlank c = true) :
    followsName (text ++ passed) = followsName passed := by
  rw [followsName, List.dropWhile_append_of_pos blanks, followsName]

theorem followsName_solid (passed : List Char) {c : Char} (solid : isBlank c = false) :
    followsName (c :: passed) = endsInName (c :: passed) := by
  rw [followsName, List.dropWhile_cons_of_neg (by simp [solid]), endsInName]

theorem Text.precedesWord_of_continuesName {c : Char} (continues : continuesName c = true) : precedesWord c = true :=
  of_ascii (P := fun c => continuesName c = true → precedesWord c = true) (by decide) (ascii_of_continuesName continues)
    continues

/-- No name goes on from the text behind into the source. -/
def NameEnds (passed source : List Char) : Prop :=
  ∀ c ∈ source.head?, continuesName c = true → endsInName passed = false

namespace Piece.Between

variable {passed rest : List Char} {piece : Piece} {c : Char}

/-- What becomes of a character without a rule. -/
theorem fate_reported (between : piece.Between passed rest) (reported : piece.fate.isReported = true) :
    piece.fate = if followsName passed then .replaced else .skipped := by
  obtain @⟨place, found, matched⟩ := between
  have kind := (found.becomes_fate passed (found.text ++ rest)).unruled reported
  simp only [Match.fate, kind]

/-- No name starts at a character without a rule. -/
theorem not_startsName (between : piece.Between passed rest) (reported : piece.fate.isReported = true)
    (single : piece.text = [c]) : startsName c = false := by
  obtain @⟨place, found, matched⟩ := between
  have kind := (found.becomes_fate passed (found.text ++ rest)).unruled reported
  refine Bool.eq_false_iff.mpr fun starts => ?_
  have taken := Shape.identifier_eq_some_iff.mpr ⟨c, rest, rfl, starts, rfl⟩
  have untaken := firstMatch_mismatch matched kind (.plain .identifier Shape.identifier) (by simp [Rule.table]) (by decide)
  rw [show found.text = [c] from single, List.singleton_append, Rule.plain_apply _ _ taken] at untaken
  cases untaken

/-- After a character without a rule no name is right behind. -/
theorem endsInName_reported (between : piece.Between passed rest) (reported : piece.fate.isReported = true)
    (single : piece.text = [c]) (ends : NameEnds passed (c :: rest)) : endsInName (c :: passed) = false := by
  by_cases continues : continuesName c = true
  · have behind := ends c rfl continues
    rw [endsInName] at behind ⊢
    rw [List.takeWhile_cons_of_pos continues, List.any_cons, behind, between.not_startsName reported single]
    rfl
  · rw [endsInName, List.takeWhile_cons_of_neg continues]
    rfl

theorem nameEnds (between : piece.Between passed rest) (ends : NameEnds passed (piece.text ++ rest)) :
    NameEnds (piece.text.reverse ++ passed) rest := by
  cases reported : piece.fate.isReported with
  | true =>
      obtain ⟨c, single⟩ := between.single reported
      rw [single] at ends ⊢
      exact fun _ _ _ => between.endsInName_reported reported single ends
  | false =>
      have parted : Parted (piece.text.reverse ++ passed) rest := (between.parted reported).append between.ne_nil
      intro c first continues
      cases back : piece.text.reverse ++ passed with
      | nil => rfl
      | cons before behind =>
          rw [back] at parted
          rw [endsInName, List.takeWhile_cons_of_neg]
          · rfl
          · intro goesOn
            have stops := parted before rfl (precedesWord_of_continuesName goesOn) c first
            rw [continues] at stops
            cases stops

/-- A character without a rule hides a name that stands before it, but for a blank. -/
theorem followsName_reported (between : piece.Between passed rest) (reported : piece.fate.isReported = true)
    (single : piece.text = [c]) (ends : NameEnds passed (c :: rest)) :
    followsName (c :: passed) = (followsName passed && isBlank c) := by
  cases blank : isBlank c with
  | true => rw [Bool.and_true, ← List.singleton_append, followsName_blanks passed (by simp [blank])]
  | false => rw [Bool.and_false, followsName_solid passed blank, between.endsInName_reported reported single ends]

end Piece.Between

/-- Wherever a source is divided between two pieces, no name goes on over the place. -/
theorem nameEnds_split {source : String} {before after : List Piece} (split : pieces source = before ++ after) :
    NameEnds (before.flatMap Piece.text).reverse (after.flatMap Piece.text) := by
  induction before using List.reverseRecOn generalizing after with
  | nil => exact fun _ _ _ => rfl
  | append_singleton before piece ih =>
      rw [List.append_assoc, List.singleton_append] at split
      obtain ⟨-, -, between, -⟩ := pieces_split split
      have ends := between.nameEnds (by simpa using ih split)
      simpa using ends

/-- Blanks, or a character without a rule. -/
def Piece.isFiller (piece : Piece) : Bool :=
  piece.fate.isReported || (piece.fate == .dropped && piece.text.all Shape.isLayout)

/-- All that stands between two pieces of another sort, before the first of them or after the last. -/
structure Gap (source : String) (before gap after : List Piece) : Prop where
  split : pieces source = before ++ (gap ++ after)
  filled : gap.all Piece.isFiller = true
  starts : before.getLast?.any Piece.isFiller = false
  stops : after.head?.any Piece.isFiller = false

/-- The characters without a rule, as pieces. -/
def unruled (gap : List Piece) : List Piece := gap.filter fun piece => piece.fate.isReported

theorem unruled_cons_of_pos {piece : Piece} (reported : piece.fate.isReported = true) (gap : List Piece) :
    unruled (piece :: gap) = piece :: unruled gap := List.filter_cons_of_pos reported

theorem unruled_cons_of_neg {piece : Piece} (quiet : piece.fate.isReported = false) (gap : List Piece) :
    unruled (piece :: gap) = unruled gap := List.filter_cons_of_neg (by simp [quiet])

/-- The characters without a rule. -/
def unruledText (gap : List Piece) : List Char := (unruled gap).flatMap Piece.text

/-- What becomes of characters without a rule, if blanks only are between them: `named` tells whether a name is in
sight. -/
def repairs (named : Bool) : List Char → List Fate
  | [] => []
  | c :: rest => (if named then .replaced else .skipped) :: repairs (named && isBlank c) rest

/-- How many of them are read as operators: none without a name, and else all blanks at the start and one more. -/
def operatorsFor (named : Bool) (chars : List Char) : Nat :=
  if named then min chars.length ((chars.takeWhile isBlank).length + 1) else 0

theorem operatorsFor_le_one_iff (named : Bool) (chars : List Char) : operatorsFor named chars ≤ 1 ↔
    named = false ∨ chars.length ≤ 1 ∨ chars.head?.any isBlank = false := by
  cases named with
  | false => simp [operatorsFor]
  | true =>
      cases chars with
      | nil => simp [operatorsFor]
      | cons c rest =>
          cases blank : isBlank c with
          | false => simp [operatorsFor, blank]
          | true => simp [operatorsFor, blank]

theorem repairs_eq (named : Bool) (chars : List Char) : repairs named chars =
    List.replicate (operatorsFor named chars) .replaced ++
      List.replicate (chars.length - operatorsFor named chars) .skipped := by
  induction chars generalizing named with
  | nil => cases named <;> rfl
  | cons c rest ih =>
      rw [repairs, ih]
      cases named with
      | false => simp [operatorsFor, List.replicate_succ]
      | true =>
          cases blank : isBlank c with
          | false => simp [operatorsFor, blank]
          | true =>
              have more : operatorsFor true (c :: rest) = operatorsFor true rest + 1 := by
                simp [operatorsFor, blank, Nat.succ_min_succ]
              rw [more, List.length_cons, Nat.add_sub_add_right]
              rfl

/-- The characters of a filler that has a rule are blanks. -/
theorem Piece.isFiller_blanks {piece : Piece} (filler : piece.isFiller = true) (quiet : piece.fate.isReported = false) :
    piece.fate = .dropped ∧ ∀ c ∈ piece.text.reverse, isBlank c = true := by
  rw [isFiller, quiet, Bool.false_or, Bool.and_eq_true, beq_iff_eq, List.all_eq_true] at filler
  refine ⟨filler.1, fun c member => ?_⟩
  rcases Shape.isLayout_cases (filler.2 c (List.mem_reverse.mp member)) with rfl | rfl | rfl | rfl <;> decide

section

variable {source : String} {before gap after : List Piece}

theorem fates_of_filled (split : pieces source = before ++ (gap ++ after)) (filled : gap.all Piece.isFiller = true) :
    (unruled gap).map Piece.fate = repairs (followsName (before.flatMap Piece.text).reverse) (unruledText gap) := by
  -- Along the gap: what has been passed of it is counted to the pieces before.
  induction gap generalizing before with
  | nil => rfl
  | cons piece gap ih =>
      obtain ⟨filler, others⟩ := Bool.and_eq_true_iff.mp (List.all_cons ▸ filled)
      obtain ⟨-, -, between, -⟩ := pieces_split split
      have later : (unruled gap).map Piece.fate =
          repairs (followsName (piece.text.reverse ++ (before.flatMap Piece.text).reverse)) (unruledText gap) := by
        have shifted : pieces source = (before ++ [piece]) ++ (gap ++ after) := by simpa using split
        simpa using ih shifted others
      cases reported : piece.fate.isReported with
      | true =>
          obtain ⟨c, single⟩ := between.single reported
          have ends : NameEnds (before.flatMap Piece.text).reverse (c :: (gap ++ after).flatMap Piece.text) := by
            simpa [single] using nameEnds_split split
          rw [single, List.reverse_singleton, List.singleton_append,
            between.followsName_reported reported single ends] at later
          rw [unruledText, unruled_cons_of_pos reported, List.map_cons, List.flatMap_cons, single,
            List.singleton_append, repairs, ← between.fate_reported reported, later, unruledText]
      | false =>
          rw [followsName_blanks _ (Piece.isFiller_blanks filler reported).2] at later
          rw [unruledText, unruled_cons_of_neg reported, later, unruledText]

/-- A filler is a token only if it is read as an operator. -/
theorem tokens_of_filled (filled : gap.all Piece.isFiller = true) :
    (gap.filterMap Piece.token?).length = ((unruled gap).map Piece.fate).count .replaced := by
  induction gap with
  | nil => rfl
  | cons piece gap ih =>
      obtain ⟨filler, others⟩ := Bool.and_eq_true_iff.mp (List.all_cons ▸ filled)
      obtain ⟨text, start, fate⟩ := piece
      cases fate with
      | dropped => exact ih others
      | skipped => exact ih others
      | replaced =>
          rw [unruled_cons_of_pos rfl, List.map_cons, List.count_cons_self, ← ih others]
          rfl
      | kept kind => cases filler
      | closed => cases filler

end

/-- At most one operator is put into the gap, and there is a warning for every other character without a rule that it is
left out. -/
def RepairedOnce (gap : List Piece) : Prop :=
  (gap.filterMap Piece.token?).length ≤ 1 ∧ ∀ piece ∈ unruled gap, piece.token? = none →
    ∃ c, piece.text = [c] ∧ piece.warning? = some (.invalidCharacter (named c) piece.start)

theorem Piece.warning_skipped {piece : Piece} {c : Char} (single : piece.text = [c]) (fate : piece.fate = .skipped) :
    piece.warning? = some (.invalidCharacter (named c) piece.start) := by
  have shown : String.join ([c].map named) = named c := String.empty_append
  rw [warning?, fate, single, shown]

/-- Of the characters of a gap that no rule takes, the first ones are read as operators, as many as `operatorsFor` tells,
and the others are left out. So at most one operator is put into a gap exactly if no name stands before the gap, or there
is no second such character, or the first one is no blank. -/
theorem repairedOnce_iff {source : String} {before gap after : List Piece} (isGap : Gap source before gap after) :
    ((unruled gap).map Piece.fate =
      List.replicate (operatorsFor (followsName (before.flatMap Piece.text).reverse) (unruledText gap)) .replaced ++
        List.replicate ((unruledText gap).length -
          operatorsFor (followsName (before.flatMap Piece.text).reverse) (unruledText gap)) .skipped) ∧
    (RepairedOnce gap ↔ followsName (before.flatMap Piece.text).reverse = false ∨ (unruledText gap).length ≤ 1 ∨
      (unruledText gap).head?.any isBlank = false) := by
  have fates := fates_of_filled isGap.split isGap.filled
  rw [repairs_eq] at fates
  have made : (gap.filterMap Piece.token?).length =
      operatorsFor (followsName (before.flatMap Piece.text).reverse) (unruledText gap) := by
    rw [tokens_of_filled isGap.filled, fates, List.count_append, List.count_replicate_self, List.count_replicate]
    rfl
  refine ⟨fates, ?_⟩
  rw [RepairedOnce, made, operatorsFor_le_one_iff]
  refine and_iff_left fun piece member untold => ?_
  obtain ⟨listed, reported⟩ := List.mem_filter.mp member
  obtain ⟨front, back, rfl⟩ := List.append_of_mem listed
  have split : pieces source = (before ++ front) ++ piece :: (back ++ after) := by
    rw [isGap.split]
    simp
  obtain ⟨c, single⟩ := (pieces_split split).2.2.1.single reported
  refine ⟨c, single, Piece.warning_skipped single ?_⟩
  obtain ⟨text, start, fate⟩ := piece
  cases fate with
  | skipped => rfl
  | replaced => cases untold
  | dropped | kept | closed => cases reported

/-- Two characters without a rule, and only the first becomes an operator. -/
theorem repairedOnce_iff_marks :
    Gap "a @$ b" [⟨['a'], ⟨1, 1⟩, .kept .identifier⟩]
      [⟨[' '], ⟨1, 2⟩, .dropped⟩, ⟨['@'], ⟨1, 3⟩, .replaced⟩, ⟨['$'], ⟨1, 4⟩, .skipped⟩, ⟨[' '], ⟨1, 5⟩, .dropped⟩]
      [⟨['b'], ⟨1, 6⟩, .kept .identifier⟩] ∧
    RepairedOnce
      [⟨[' '], ⟨1, 2⟩, .dropped⟩, ⟨['@'], ⟨1, 3⟩, .replaced⟩, ⟨['$'], ⟨1, 4⟩, .skipped⟩, ⟨[' '], ⟨1, 5⟩, .dropped⟩] := by
  have isGap : Gap "a @$ b" [⟨['a'], ⟨1, 1⟩, .kept .identifier⟩]
      [⟨[' '], ⟨1, 2⟩, .dropped⟩, ⟨['@'], ⟨1, 3⟩, .replaced⟩, ⟨['$'], ⟨1, 4⟩, .skipped⟩, ⟨[' '], ⟨1, 5⟩, .dropped⟩]
      [⟨['b'], ⟨1, 6⟩, .kept .identifier⟩] := ⟨by decide, by decide, by decide, by decide⟩
  exact ⟨isGap, (repairedOnce_iff isGap).2.mpr (.inr (.inr (by decide)))⟩

/-- Two blanks that the rule for blanks does not take: both become operators. -/
theorem repaired_twice :
    Gap "a\u00a0\u00a0b" [⟨['a'], ⟨1, 1⟩, .kept .identifier⟩]
      [⟨['\u00a0'], ⟨1, 2⟩, .replaced⟩, ⟨['\u00a0'], ⟨1, 3⟩, .replaced⟩] [⟨['b'], ⟨1, 4⟩, .kept .identifier⟩] ∧
    ¬ RepairedOnce [⟨['\u00a0'], ⟨1, 2⟩, .replaced⟩, ⟨['\u00a0'], ⟨1, 3⟩, .replaced⟩] := by
  refine ⟨⟨by decide, by decide, by decide, by decide⟩, ?_⟩
  rintro ⟨few, -⟩
  exact absurd few (by decide)

end BraceCompiler
