import BraceCompiler.Proofs.Token.Spelling

/-! The look ahead of a declarator. It reaches over any number of blanks and over a name of any length, so
its end is told by what it must not meet: `declaresVariable_append` says that nothing after such a character
counts. -/

namespace BraceCompiler

open Text

/-- Blanks, a name, and one equals sign, with or without blanks before it. -/
inductive Declares : List Char → Prop
  | intro {gap name space rest} : gap ≠ [] → (∀ c ∈ gap, isBlank c = true) → IsName name →
      (∀ c ∈ space, isBlank c = true) → rest.head? ≠ some '=' →
      Declares (gap ++ (name ++ (space ++ '=' :: rest)))

/-- The code points in the ranges, one by one. -/
def Text.Ranges.codes (ranges : Ranges) : List Nat :=
  ranges.flatMap fun (low, high) => List.range' low (high + 1 - low)

theorem Text.Ranges.mem_codes {ranges : Ranges} {code : Nat} (covered : ranges.covers code = true) :
    code ∈ ranges.codes := by
  induction ranges with
  | nil => cases covered
  | cons range ranges ih =>
      obtain ⟨low, high⟩ := range
      simp only [covers, Bool.and_eq_true, Bool.or_eq_true, decide_eq_true_eq] at covered
      rw [codes, List.flatMap_cons, List.mem_append]
      rcases covered with ⟨above, below | later⟩
      · exact .inl (List.mem_range'_1.mpr (by omega))
      · exact .inr (ih later)

/-- No word runs on into a blank of any kind. -/
theorem Text.isBlank_not_extendsWord {c : Char} (blank : isBlank c = true) : extendsWord c = false := by
  have all : ∀ code ∈ whiteSpace.codes, extendsWord (Char.ofNat code) = false := by decide +kernel
  have ends := all c.toNat (Ranges.mem_codes blank)
  rwa [Char.ofNat_toNat] at ends

theorem Text.isBlank_not_continuesName {c : Char} (blank : isBlank c = true) : continuesName c = false :=
  continuesName_eq_false (isBlank_not_extendsWord blank)

theorem IsName.not_isBlank {text rest : List Char} (name : IsName text) :
    ∀ c ∈ (text ++ rest).head?, isBlank c = false := by
  cases name with
  | spelled starts _ =>
      rintro c ⟨⟩
      refine Bool.eq_false_iff.mpr fun blank => ?_
      rw [startsName_eq_false (isBlank_not_continuesName blank)] at starts
      cases starts

/-- No word runs on into a blank or an equals sign. -/
theorem not_extendsWord_of_blanks {space : List Char} (blanks : ∀ c ∈ space, isBlank c = true)
    (rest : List Char) : ∀ c ∈ (space ++ '=' :: rest).head?, extendsWord c = false := by
  cases space with
  | nil =>
      rintro c ⟨⟩
      decide
  | cons d space =>
      rintro _ ⟨⟩
      exact isBlank_not_extendsWord (blanks d List.mem_cons_self)

theorem Declares.declaresVariable {source : List Char} (declares : Declares source) :
    declaresVariable source = true := by
  obtain @⟨gap, name, space, rest, nonempty, blanks, isName, blanksAfter, single⟩ := declares
  cases gap with
  | nil => exact absurd rfl nonempty
  | cons c gap =>
      obtain ⟨blank, blanks⟩ := List.forall_mem_cons.mp blanks
      have equals : isBlank '=' = false := by decide
      have stop : ∀ d ∈ ('=' :: rest).head?, isBlank d = false := by
        rintro d ⟨⟩
        exact equals
      simp only [List.cons_append, BraceCompiler.declaresVariable, blank, Bool.true_and,
        dropWhile_eq blanks isName.not_isBlank, isName.identifier (not_extendsWord_of_blanks blanksAfter rest),
        List.drop_left, dropWhile_eq blanksAfter stop]
      split
      · rename_i same
        cases same
        exact absurd rfl single
      · rfl
      · rename_i other
        exact absurd rfl (other rest)

theorem declares_of_declaresVariable {source : List Char} (holds : declaresVariable source = true) :
    Declares source := by
  cases source with
  | nil => cases holds
  | cons c rest =>
      obtain ⟨blank, holds⟩ := Bool.and_eq_true_iff.mp holds
      split at holds
      · cases holds
      · rename_i name taken
        obtain ⟨-, ⟨later, split⟩, isName⟩ := Shape.identifier_cuts _ _ taken
        rw [← split, List.drop_left] at holds
        have whole : (c :: rest.takeWhile isBlank) ++ (name ++
            (later.takeWhile isBlank ++ later.dropWhile isBlank)) = c :: rest := by
          rw [List.takeWhile_append_dropWhile, split, List.cons_append, List.takeWhile_append_dropWhile]
        rw [← whole]
        split at holds
        · cases holds
        · rename_i tail other same
          rw [same]
          refine .intro (List.cons_ne_nil _ _) ?_ isName (fun d member => List.mem_takeWhile_imp member) ?_
          · exact List.forall_mem_cons.mpr ⟨blank, fun d member => List.mem_takeWhile_imp member⟩
          · intro first
            obtain ⟨after, rfl⟩ := List.head?_eq_some_iff.mp first
            exact other _ rfl
        · cases holds

theorem declaresVariable_iff {source : List Char} : declaresVariable source = true ↔ Declares source :=
  ⟨declares_of_declaresVariable, Declares.declaresVariable⟩

/-- The look ahead ends at the latest at a character that belongs to no part of a declaration's head. -/
theorem declaresVariable_append {source : List Char} {d : Char} (more : List Char) (member : d ∈ source)
    (noBlank : isBlank d = false) (noName : continuesName d = false) (noEquals : d ≠ '=') :
    declaresVariable (source ++ more) = declaresVariable source := by
  have outside : ∀ {gap name space : List Char}, (∀ c ∈ gap, isBlank c = true) → IsName name →
      (∀ c ∈ space, isBlank c = true) → d ∉ gap ++ (name ++ (space ++ ['='])) := by
    intro gap name space blanks isName blanksAfter inside
    simp only [List.mem_append, List.mem_singleton] at inside
    rcases inside with inside | inside | inside | inside
    · rw [blanks d inside] at noBlank
      cases noBlank
    · cases isName with
      | spelled starts continues =>
          rcases List.mem_cons.mp inside with rfl | inside
          · rw [continuesName_of_startsName starts] at noName
            cases noName
          · rw [continues d inside] at noName
            cases noName
    · rw [blanksAfter d inside] at noBlank
      cases noBlank
    · exact noEquals inside
  have regroup : ∀ gap name space rest : List Char, gap ++ (name ++ (space ++ '=' :: rest)) =
      (gap ++ (name ++ (space ++ ['=']))) ++ rest := by simp
  rw [Bool.eq_iff_iff, declaresVariable_iff, declaresVariable_iff]
  constructor
  · intro declares
    generalize same : source ++ more = whole at declares
    obtain @⟨gap, name, space, rest, nonempty, blanks, isName, blanksAfter, single⟩ := declares
    rw [regroup] at same
    rcases List.append_eq_append_iff.mp same with ⟨inner, head, -⟩ | ⟨tail, rfl, rfl⟩
    · exact absurd (head ▸ List.mem_append_left _ member) (outside blanks isName blanksAfter)
    · rw [← regroup]
      refine .intro nonempty blanks isName blanksAfter fun first => single ?_
      obtain ⟨after, rfl⟩ := List.head?_eq_some_iff.mp first
      rfl
  · rintro @⟨gap, name, space, rest, nonempty, blanks, isName, blanksAfter, single⟩
    rw [regroup, List.append_assoc, ← regroup]
    refine .intro nonempty blanks isName blanksAfter ?_
    cases rest with
    | nil => exact absurd member (outside blanks isName blanksAfter)
    | cons c rest => exact single

end BraceCompiler
