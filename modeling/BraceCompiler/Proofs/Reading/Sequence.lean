import BraceCompiler.Proofs.Reading.Phrase

/-! Readers of sequences. The bound on the number of items is never reached: every comma, and every
item of a repetition, costs a token. -/

namespace BraceCompiler

variable {α : Type}

/-- One item or more, divided by commas. -/
inductive Separated (phrase : Phrase α) : Phrase (List α)
  | one {word value} : phrase word value → Separated phrase word [value]
  | more {word value others values} : phrase word value → Separated phrase others values →
      Separated phrase (word ++ ⟨.comma, ","⟩ :: others) (value :: values)

/-- Any number of items. -/
inductive Repeated (phrase : Phrase α) : Phrase (List α)
  | nil : Repeated phrase [] []
  | cons {word value others values} : phrase word value → Repeated phrase others values →
      Repeated phrase (word ++ others) (value :: values)

/-- What follows an item may follow the empty repetition too. -/
theorem Repeated.follows {phrase : Phrase α} {follow : Follow} {word rest : List Symbol} {values : List α}
    (stands : Repeated phrase word values)
    (meets : ∀ word value rest, phrase word value → follow (word ++ rest)) (next : follow rest) :
    follow (word ++ rest) := by
  cases stands with
  | nil => exact next
  | cons stands _ =>
      rw [List.append_assoc]
      exact meets _ _ _ stands

theorem Repeated.length_le {phrase : Phrase α} {word : List Symbol} {values : List α}
    (stands : Repeated phrase word values) (consumes : ∀ word value, phrase word value → word ≠ []) :
    values.length ≤ word.length := by
  induction stands with
  | nil => exact Nat.le_refl 0
  | cons stands _ ih =>
      have nonempty := List.length_pos_iff.mpr (consumes _ _ stands)
      rw [List.length_append, List.length_cons]
      omega

namespace Reads

variable {item : Reader α} {phrase : Phrases α} {limit : Nat} {follow : Follow}

theorem separatedUpTo_sound (reads : Reads item phrase limit follow) {more count : Nat} {tokens rest : List Token}
    {values : List α} (less : limit ≤ more) (spelled : Spelled tokens) (enough : tokens.length < count)
    (read : Reader.separatedUpTo item count tokens = .ok (values, rest)) :
    ∃ used, tokens = used ++ rest ∧ Separated (phrase more) (used.map Token.symbol) values := by
  induction count generalizing tokens values with
  | zero => exact absurd enough (Nat.not_lt_zero _)
  | succ count ih =>
      rw [Reader.separatedUpTo] at read
      obtain ⟨value, left, readItem, readOthers⟩ := Reader.bind_eq_ok_iff.mp read
      obtain ⟨used, rfl, stands⟩ := reads.sound less spelled readItem
      obtain ⟨taken, left', decided, chosen⟩ := Reader.bind_eq_ok_iff.mp readOthers
      rcases (Accepts.accept .comma rfl).sound spelled.of_append decided with
        ⟨rfl, token, comma, rfl⟩ | ⟨rfl, rfl⟩
      · obtain ⟨values, left, readMore, made⟩ := Reader.bind_eq_ok_iff.mp chosen
        cases made
        obtain ⟨others, rfl, standOthers⟩ := ih spelled.of_append.tail
          (by simp only [List.length_append, List.length_cons] at enough; omega) readMore
        refine ⟨used ++ token :: others, by simp only [List.append_assoc, List.cons_append], ?_⟩
        rw [List.map_append, List.map_cons, comma]
        exact .more stands standOthers
      · cases chosen
        exact ⟨used, rfl, .one stands⟩

theorem separatedUpTo_complete (reads : Reads item phrase limit follow)
    (beforeComma : ∀ rest, follow (⟨.comma, ","⟩ :: rest)) {count : Nat} {used rest : List Token}
    {values : List α} (enough : (used ++ rest).length < count)
    (stands : Separated (phrase limit) (used.map Token.symbol) values)
    (next : follow (rest.map Token.symbol)) (last : Follow.notKind .comma (rest.map Token.symbol)) :
    Reader.separatedUpTo item count (used ++ rest) = .ok (values, rest) := by
  have comma := Accepts.accept .comma rfl
  induction count generalizing used values with
  | zero => exact absurd enough (Nat.not_lt_zero _)
  | succ count ih =>
      rw [Reader.separatedUpTo]
      generalize same : used.map Token.symbol = word at stands
      cases stands with
      | one stands =>
          subst same
          rw [Reader.bind_of_ok (reads.complete _ stands next), Reader.bind_of_ok (comma.leaves last)]
          rfl
      | more stands standOthers =>
          obtain ⟨used, tail, rfl, rfl, split⟩ := List.map_eq_append_iff.mp same
          obtain ⟨token, others, rfl, symbol, rfl⟩ := List.map_eq_cons_iff.mp split
          have readItem := reads.complete (token :: (others ++ rest)) stands
            (by rw [List.map_cons, symbol]; exact beforeComma _)
          have readMore := ih (by simp only [List.length_append, List.length_cons] at enough ⊢; omega)
            standOthers
          rw [List.append_assoc, List.cons_append, Reader.bind_of_ok readItem,
            Reader.bind_of_ok (comma.takes _ symbol)]
          exact Reader.bind_of_ok readMore

theorem separatedUpTo_stops (reads : Reads item phrase limit follow) {count : Nat} {tokens : List Token} {stop : Stop}
    {found : Option Token} {wanted : Wanted} (spelled : Spelled tokens)
    (failed : Reader.separatedUpTo item count tokens = .error stop)
    (cause : stop.cause = .unexpected found wanted) :
    found = stop.rest.head? ∧ ∃ used, tokens = used ++ stop.rest ∧
      ∃ word values, Separated (phrase (limit + 1)) (used.map Token.symbol ++ word) values := by
  have comma := Accepts.accept .comma rfl
  induction count generalizing tokens with
  | zero => cases failed
  | succ count ih =>
      rcases Reader.bind_eq_error_iff.mp failed with failedItem | ⟨value, left, read, failedMore⟩
      · obtain ⟨named, used, split, word, value, stands⟩ := reads.stops spelled failedItem cause
        exact ⟨named, used, split, word, [value], .one stands⟩
      · obtain ⟨used, rfl, stands⟩ := reads.sound (Nat.le_succ limit) spelled read
        obtain ⟨taken, left, decided⟩ := comma.answers left
        rw [Reader.bind_of_ok decided] at failedMore
        rcases comma.sound spelled.of_append decided with ⟨rfl, token, symbol, rfl⟩ | ⟨rfl, -⟩
        · rcases Reader.bind_eq_error_iff.mp failedMore with failedOthers | ⟨_, _, -, made⟩
          · obtain ⟨named, others, rfl, word, values, standOthers⟩ := ih spelled.of_append.tail failedOthers
            refine ⟨named, used ++ token :: others, by simp only [List.append_assoc, List.cons_append], word,
              value :: values, ?_⟩
            rw [List.map_append, List.map_cons, symbol, List.append_assoc]
            exact .more stands standOthers
          · cases made
        · cases failedMore

theorem separated (reads : Reads item phrase limit follow) (beforeComma : ∀ rest, follow (⟨.comma, ","⟩ :: rest)) :
    Reads (Reader.separated item) (fun more => Separated (phrase more)) limit
      (fun rest => follow rest ∧ Follow.notKind .comma rest) where
  sound less spelled read := separatedUpTo_sound reads less spelled (Nat.lt_succ_self _) read
  complete _ stands next :=
    separatedUpTo_complete reads beforeComma (Nat.lt_succ_self _) stands next.1 next.2
  live := by
    obtain ⟨word, value, stands⟩ := reads.live
    exact ⟨word, [value], .one stands⟩
  stops spelled failed cause := separatedUpTo_stops reads spelled failed cause

variable {done : List Token → Bool}

theorem repeatedUpTo_sound (reads : Reads item phrase limit follow) {more count : Nat} {tokens rest : List Token}
    {values : List α} (less : limit ≤ more) (spelled : Spelled tokens)
    (read : Reader.repeatedUpTo done item count tokens = .ok (values, rest)) :
    ∃ used, tokens = used ++ rest ∧ Repeated (phrase more) (used.map Token.symbol) values := by
  induction count generalizing tokens values with
  | zero =>
      cases read
      exact ⟨[], rfl, .nil⟩
  | succ count ih =>
      rw [Reader.repeatedUpTo] at read
      obtain ⟨seen, left, gotten, chosen⟩ := Reader.bind_eq_ok_iff.mp read
      cases gotten
      split at chosen
      · cases chosen
        exact ⟨[], rfl, .nil⟩
      · obtain ⟨value, left, readItem, readOthers⟩ := Reader.bind_eq_ok_iff.mp chosen
        obtain ⟨used, rfl, stands⟩ := reads.sound less spelled readItem
        obtain ⟨values, left, readMore, made⟩ := Reader.bind_eq_ok_iff.mp readOthers
        cases made
        obtain ⟨others, rfl, standOthers⟩ := ih spelled.of_append readMore
        refine ⟨used ++ others, by simp only [List.append_assoc], ?_⟩
        rw [List.map_append]
        exact .cons stands standOthers

/-- The tokens left are as `done` asks, since the bound was not reached before them. -/
theorem repeatedUpTo_done (reads : Reads item phrase limit follow)
    (consumes : ∀ word value, phrase limit word value → word ≠ []) (atEnd : done [] = true)
    {count : Nat} {tokens rest : List Token} {values : List α} (spelled : Spelled tokens)
    (enough : tokens.length ≤ count)
    (read : Reader.repeatedUpTo done item count tokens = .ok (values, rest)) : done rest = true := by
  induction count generalizing tokens values with
  | zero =>
      cases read
      rw [List.length_eq_zero_iff.mp (Nat.le_zero.mp enough)]
      exact atEnd
  | succ count ih =>
      rw [Reader.repeatedUpTo] at read
      obtain ⟨seen, left, gotten, chosen⟩ := Reader.bind_eq_ok_iff.mp read
      cases gotten
      split at chosen
      · rename_i stops
        cases chosen
        exact stops
      · obtain ⟨value, left, readItem, readOthers⟩ := Reader.bind_eq_ok_iff.mp chosen
        obtain ⟨used, rfl, stands⟩ := reads.sound (Nat.le_refl limit) spelled readItem
        obtain ⟨values, left, readMore, made⟩ := Reader.bind_eq_ok_iff.mp readOthers
        cases made
        have nonempty : 0 < used.length := by
          refine List.length_pos_iff.mpr fun empty => consumes _ value stands ?_
          rw [empty]
          rfl
        exact ih spelled.of_append (by rw [List.length_append] at enough; omega) readMore

theorem repeatedUpTo_complete {stop : Follow} (reads : Reads item phrase limit follow)
    (goesOn : ∀ {used value} rest, phrase limit (used.map Token.symbol) value → done (used ++ rest) = false)
    (meets : ∀ word value rest, phrase limit word value → follow (word ++ rest))
    (stops : ∀ {rest}, stop (rest.map Token.symbol) → done rest = true)
    (stopFollows : ∀ rest, stop rest → follow rest)
    {count : Nat} {used rest : List Token} {values : List α} (enough : values.length ≤ count)
    (stands : Repeated (phrase limit) (used.map Token.symbol) values) (next : stop (rest.map Token.symbol)) :
    Reader.repeatedUpTo done item count (used ++ rest) = .ok (values, rest) := by
  induction values generalizing used count with
  | nil =>
      generalize same : used.map Token.symbol = word at stands
      cases stands
      rw [List.map_eq_nil_iff.mp same, List.nil_append]
      cases count with
      | zero => rfl
      | succ count =>
          have gotten : (get : Reader (List Token)) rest = .ok (rest, rest) := rfl
          rw [Reader.repeatedUpTo, Reader.bind_of_ok gotten, if_pos (stops next)]
          rfl
  | cons value values ih =>
      generalize same : used.map Token.symbol = word at stands
      cases stands with
      | @cons _ _ others _ stands standOthers =>
          obtain ⟨used, tail, rfl, rfl, rfl⟩ := List.map_eq_append_iff.mp same
          cases count with
          | zero => exact absurd enough (Nat.not_succ_le_zero _)
          | succ count =>
              have gotten : (get : Reader (List Token)) (used ++ tail ++ rest) =
                  .ok (used ++ tail ++ rest, used ++ tail ++ rest) := rfl
              have nextItem : follow ((tail ++ rest).map Token.symbol) := by
                rw [List.map_append]
                exact standOthers.follows meets (stopFollows _ next)
              have readItem := reads.complete (tail ++ rest) stands nextItem
              have readMore := ih (Nat.le_of_succ_le_succ enough) standOthers
              rw [Reader.repeatedUpTo, Reader.bind_of_ok gotten, List.append_assoc,
                if_neg (by rw [goesOn _ stands]; exact Bool.false_ne_true), Reader.bind_of_ok readItem,
                Reader.bind_of_ok readMore]
              rfl

theorem repeatedUpTo_stops (reads : Reads item phrase limit follow) {count : Nat} {tokens : List Token} {stop : Stop}
    {found : Option Token} {wanted : Wanted} (spelled : Spelled tokens)
    (failed : Reader.repeatedUpTo done item count tokens = .error stop)
    (cause : stop.cause = .unexpected found wanted) :
    found = stop.rest.head? ∧ ∃ used, tokens = used ++ stop.rest ∧
      ∃ word values, Repeated (phrase (limit + 1)) (used.map Token.symbol ++ word) values := by
  induction count generalizing tokens with
  | zero => cases failed
  | succ count ih =>
      have gotten : (get : Reader (List Token)) tokens = .ok (tokens, tokens) := rfl
      rw [Reader.repeatedUpTo, Reader.bind_of_ok gotten] at failed
      split at failed
      · cases failed
      · rcases Reader.bind_eq_error_iff.mp failed with failedItem | ⟨value, left, read, failedMore⟩
        · obtain ⟨named, used, split, word, value, stands⟩ := reads.stops spelled failedItem cause
          refine ⟨named, used, split, word, [value], ?_⟩
          rw [← List.append_nil (_ ++ word)]
          exact .cons stands .nil
        · obtain ⟨used, rfl, stands⟩ := reads.sound (Nat.le_succ limit) spelled read
          rcases Reader.bind_eq_error_iff.mp failedMore with failedOthers | ⟨_, _, -, made⟩
          · obtain ⟨named, others, rfl, word, values, standOthers⟩ := ih spelled.of_append failedOthers
            refine ⟨named, used ++ others, (List.append_assoc ..).symm, word, value :: values, ?_⟩
            rw [List.map_append, List.append_assoc]
            exact .cons stands standOthers
          · cases made

theorem repeated {stop : Follow} (reads : Reads item phrase limit follow)
    (consumes : ∀ word value, phrase limit word value → word ≠ [])
    (goesOn : ∀ {used value} rest, phrase limit (used.map Token.symbol) value → done (used ++ rest) = false)
    (meets : ∀ word value rest, phrase limit word value → follow (word ++ rest))
    (stops : ∀ {rest}, stop (rest.map Token.symbol) → done rest = true)
    (stopFollows : ∀ rest, stop rest → follow rest) :
    Reads (Reader.repeated done item) (fun more => Repeated (phrase more)) limit stop where
  sound less spelled read := repeatedUpTo_sound reads less spelled read
  complete := by
    intro used values rest stands next
    refine repeatedUpTo_complete reads goesOn meets stops stopFollows ?_ stands next
    have bound := stands.length_le consumes
    rw [List.length_map] at bound
    rw [List.length_append]
    omega
  live := ⟨[], [], .nil⟩
  stops spelled failed cause := repeatedUpTo_stops reads spelled failed cause

end Reads

end BraceCompiler
