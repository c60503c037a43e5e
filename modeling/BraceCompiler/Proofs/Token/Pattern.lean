import BraceCompiler.Text.Word
import Mathlib.Data.List.Basic

/-! Regular expressions, read by trying: alternatives in the order in which they are written, one more round of a
greedy loop before its end, the end of a lazy loop before one more round. The ways in which a pattern can match are
listed in the order in which they are tried, and the first one counts. A round of a loop has to take something; no
rule is made for rounds that take nothing. -/

namespace BraceCompiler

/-- The characters in some ranges, or all the others. -/
structure CharClass where
  ranges : List (Char × Char)
  negated : Bool

namespace CharClass

def accepts (set : CharClass) (c : Char) : Bool :=
  (set.ranges.any fun (low, high) => low ≤ c && c ≤ high) != set.negated

def oneOf (chars : List Char) : CharClass := ⟨chars.map fun c => (c, c), false⟩

def noneOf (chars : List Char) : CharClass := ⟨chars.map fun c => (c, c), true⟩

/-- Every character, a line feed too. -/
def any : CharClass := noneOf []

theorem any_ranges (chars : List Char) (c : Char) :
    ((chars.map fun d => (d, d)).any fun (low, high) => low ≤ c && c ≤ high) = chars.contains c := by
  rw [Bool.eq_iff_iff, List.any_map, List.any_eq_true, List.contains_iff_mem]
  constructor
  · intro ⟨d, listed, between⟩
    obtain ⟨below, above⟩ : d ≤ c ∧ c ≤ d := by simpa using between
    rwa [← Char.le_antisymm below above]
  · intro listed
    exact ⟨c, listed, by simp⟩

@[simp] theorem accepts_oneOf (chars : List Char) (c : Char) : (oneOf chars).accepts c = chars.contains c := by
  rw [accepts, oneOf, any_ranges, Bool.bne_false]

theorem accepts_single (c d : Char) : (oneOf [c]).accepts d = (d == c) := by
  rw [accepts_oneOf, List.contains_cons, List.contains_nil, Bool.or_false]

@[simp] theorem accepts_noneOf (chars : List Char) (c : Char) :
    (noneOf chars).accepts c = !chars.contains c := by
  rw [accepts, noneOf, any_ranges, Bool.bne_true]

@[simp] theorem accepts_any (c : Char) : any.accepts c = true := accepts_noneOf [] c

end CharClass

/-- A place in a text: what is before it, nearest character first, what is after it, and what the group has taken. -/
structure Point where
  passed : List Char
  rest : List Char
  group : Option (List Char)

namespace Point

/-- The text from one place to a later one. -/
def textTo (start finish : Point) : List Char := start.rest.take (start.rest.length - finish.rest.length)

/-- A word starts or ends here. -/
def atBoundary (point : Point) : Bool :=
  point.passed.head?.any Text.extendsWord != point.rest.head?.any Text.extendsWord

end Point

inductive Pattern where
  | empty
  | one (set : CharClass)
  /-- The start of the text. -/
  | start
  /-- The start or the end of a word. -/
  | boundary
  | seq (first second : Pattern)
  /-- The first alternative is tried first. -/
  | alt (first second : Pattern)
  /-- A loop. A greedy one is tried with another round first, any other without. -/
  | many (greedy : Bool) (body : Pattern)
  /-- The one group whose text is kept. -/
  | capture (body : Pattern)

namespace Pattern

/-- The places to which a loop can lead, in the order in which they are tried. A round takes at least one character,
so the characters left limit the rounds. -/
def rounds (greedy : Bool) (body : Point → List Point) : (limit : Nat) → Point → List Point
  | 0, point => [point]
  | limit + 1, point =>
    let further :=
      ((body point).filter (·.rest.length < point.rest.length)).flatMap (rounds greedy body limit)
    if greedy then further ++ [point] else point :: further

/-- The places to which a pattern can lead, in the order in which they are tried. -/
def ways : Pattern → Point → List Point
  | .empty, point => [point]
  | .one _, ⟨_, [], _⟩ => []
  | .one set, ⟨passed, c :: rest, group⟩ => if set.accepts c then [⟨c :: passed, rest, group⟩] else []
  | .start, point => if point.passed.isEmpty then [point] else []
  | .boundary, point => if point.atBoundary then [point] else []
  | .seq first second, point => (first.ways point).flatMap second.ways
  | .alt first second, point => first.ways point ++ second.ways point
  | .many greedy body, point => rounds greedy body.ways point.rest.length point
  | .capture body, point =>
    (body.ways point).map fun finish => { finish with group := some (point.textTo finish) }

/-- What a pattern found: the text, and what the group took if it took part. -/
structure Finding where
  text : List Char
  group : Option (List Char)
  deriving DecidableEq

/-- The first way to match from a place on. -/
def findAt (pattern : Pattern) (passed rest : List Char) : Option Finding :=
  let point : Point := ⟨passed, rest, none⟩
  (pattern.ways point).head?.map fun finish => ⟨point.textTo finish, finish.group⟩

/-- The leftmost match; of those that start there, the one tried first. -/
def findFrom (pattern : Pattern) (passed : List Char) : List Char → Option Finding
  | [] => pattern.findAt passed []
  | c :: rest => (pattern.findAt passed (c :: rest)).or (pattern.findFrom (c :: passed) rest)

def find (pattern : Pattern) (source : List Char) : Option Finding := pattern.findFrom [] source

def char (c : Char) : Pattern := .one (.oneOf [c])

def spelled : List Char → Pattern
  | [] => .empty
  | c :: rest => .seq (char c) (spelled rest)

/-- At least one round. -/
def plus (body : Pattern) : Pattern := .seq body (.many true body)

def perhaps (body : Pattern) : Pattern := .alt body .empty

def oneOf : List Pattern → Pattern
  | [] => .one (.oneOf [])
  | [pattern] => pattern
  | pattern :: rest => .alt pattern (oneOf rest)

section First

variable {β : Type} {accept : Point → Option β}

/-- What comes after a pattern decides which of its ways counts: the first one that is accepted. So a sequence is one
pattern with the other as its judge. -/
def first (pattern : Pattern) (accept : Point → Option β) (point : Point) : Option β :=
  (pattern.ways point).findSome? accept

theorem findSome?_flatMap {α γ : Type} (items : List α) (f : α → List γ) (g : γ → Option β) :
    (items.flatMap f).findSome? g = items.findSome? fun item => (f item).findSome? g := by
  induction items with
  | nil => rfl
  | cons item items ih =>
      rw [List.flatMap_cons, List.findSome?_append, ih, List.findSome?_cons]
      cases (f item).findSome? g <;> rfl

@[simp] theorem first_empty (point : Point) : first .empty accept point = accept point := by
  simp only [first, ways, List.findSome?_cons, List.findSome?_nil]
  cases accept point <;> rfl

@[simp] theorem first_one_nil (set : CharClass) (passed : List Char) (group : Option (List Char)) :
    first (.one set) accept ⟨passed, [], group⟩ = none := rfl

@[simp] theorem first_one_cons (set : CharClass) (passed : List Char) (c : Char) (rest : List Char)
    (group : Option (List Char)) : first (.one set) accept ⟨passed, c :: rest, group⟩ =
      if set.accepts c then accept ⟨c :: passed, rest, group⟩ else none := by
  rw [first, ways]
  split
  · rw [List.findSome?_cons, List.findSome?_nil]
    cases accept ⟨c :: passed, rest, group⟩ <;> rfl
  · rfl

@[simp] theorem first_start (point : Point) :
    first .start accept point = if point.passed.isEmpty then accept point else none := by
  rw [first, ways]
  split
  · exact first_empty point
  · rfl

@[simp] theorem first_boundary (point : Point) :
    first .boundary accept point = if point.atBoundary then accept point else none := by
  rw [first, ways]
  split
  · exact first_empty point
  · rfl

@[simp] theorem first_seq (pattern next : Pattern) :
    first (.seq pattern next) accept = first pattern (first next accept) := by
  funext point
  simp only [first, ways, findSome?_flatMap]
  rfl

@[simp] theorem first_alt (pattern other : Pattern) (point : Point) :
    first (.alt pattern other) accept point = (first pattern accept point).or (first other accept point) := by
  simp only [first, ways, List.findSome?_append]

@[simp] theorem first_capture (body : Pattern) (point : Point) : first (.capture body) accept point =
    first body (fun finish => accept { finish with group := some (point.textTo finish) }) point := by
  simp only [first, ways, List.findSome?_map, Function.comp_def]

/-- Any two limits that leave room for all characters give the same places. -/
theorem rounds_limit (greedy : Bool) (body : Point → List Point) (limit other : Nat) (point : Point)
    (enough : point.rest.length ≤ limit) (enoughOther : point.rest.length ≤ other) :
    rounds greedy body limit point = rounds greedy body other point := by
  induction limit generalizing other point with
  | zero =>
      cases other with
      | zero => rfl
      | succ other => simp [rounds, Nat.le_zero.mp enough]
  | succ limit ih =>
      cases other with
      | zero => simp [rounds, Nat.le_zero.mp enoughOther]
      | succ other =>
          have same : ∀ finish ∈ (body point).filter (·.rest.length < point.rest.length),
              rounds greedy body limit finish = rounds greedy body other finish := by
            intro finish listed
            have shorter : finish.rest.length < point.rest.length := by simpa using (List.mem_filter.mp listed).2
            exact ih other finish (by omega) (by omega)
          simp only [rounds, List.flatMap_congr same]

/-- A loop ends or makes one more round that takes something. -/
theorem ways_many (greedy : Bool) (body : Pattern) (point : Point) :
    (Pattern.many greedy body).ways point =
      let further := ((body.ways point).filter (·.rest.length < point.rest.length)).flatMap
        (Pattern.many greedy body).ways
      if greedy then further ++ [point] else point :: further := by
  obtain ⟨passed, rest, group⟩ := point
  cases rest with
  | nil => simp [ways, rounds]
  | cons c rest =>
      have same : ∀ finish ∈ (body.ways ⟨passed, c :: rest, group⟩).filter (·.rest.length < rest.length + 1),
          rounds greedy body.ways rest.length finish = rounds greedy body.ways finish.rest.length finish := by
        intro finish listed
        have shorter : finish.rest.length < rest.length + 1 := by simpa using (List.mem_filter.mp listed).2
        exact rounds_limit greedy body.ways _ _ finish (by omega) (by omega)
      simp only [ways, List.length_cons, rounds, List.flatMap_congr same]

/-- The rounds of a loop that take something, judged by the loop itself. -/
def another (greedy : Bool) (body : Pattern) (accept : Point → Option β) (point : Point) : Option β :=
  first body
    (fun finish =>
      if finish.rest.length < point.rest.length then first (.many greedy body) accept finish else none)
    point

theorem findSome?_filter {α : Type} (items : List α) (p : α → Bool) (f : α → Option β) :
    (items.filter p).findSome? f = items.findSome? fun item => if p item then f item else none := by
  induction items with
  | nil => rfl
  | cons item items ih =>
      rw [List.filter_cons, List.findSome?_cons]
      split
      · rw [List.findSome?_cons, ih]
      · exact ih

theorem first_many (greedy : Bool) (body : Pattern) (point : Point) :
    first (.many greedy body) accept point =
      if greedy then (another greedy body accept point).or (accept point)
      else (accept point).or (another greedy body accept point) := by
  have further : (((body.ways point).filter (·.rest.length < point.rest.length)).flatMap
      (Pattern.many greedy body).ways).findSome? accept = another greedy body accept point := by
    rw [findSome?_flatMap, findSome?_filter]
    simp only [another, first, decide_eq_true_eq]
  have ending : [point].findSome? accept = accept point := first_empty point
  rw [first, ways_many]
  cases greedy with
  | true => simp only [if_true, List.findSome?_append, further, ending]
  | false =>
      simp only [Bool.false_eq_true, if_false]
      rw [← List.singleton_append, List.findSome?_append, further, ending]

theorem another_cons (greedy : Bool) (set : CharClass) (passed : List Char) (c : Char) (rest : List Char)
    (group : Option (List Char)) : another greedy (.one set) accept ⟨passed, c :: rest, group⟩ =
      if set.accepts c then first (.many greedy (.one set)) accept ⟨c :: passed, rest, group⟩ else none := by
  rw [another, first_one_cons]
  simp

/-- A greedy loop makes a round that leads on to an accepted place. -/
theorem first_many_step {body : Pattern} {point next : Point}
    (step : ∀ judge : Point → Option β, first body judge point = judge next)
    (shorter : next.rest.length < point.rest.length) (ends : (first (.many true body) accept next).isSome) :
    first (.many true body) accept point = first (.many true body) accept next := by
  rw [first_many, if_pos rfl, another, step, if_pos shorter, Option.or_of_isSome ends]

/-- A greedy loop ends where its body cannot match. -/
theorem first_many_stop {body : Pattern} {point : Point}
    (stop : ∀ judge : Point → Option β, first body judge point = none) :
    first (.many true body) accept point = accept point := by
  rw [first_many, if_pos rfl, another, stop, Option.none_or]

/-- Where its body takes one character of a class, a greedy loop goes on as long as it can and then comes back. -/
theorem first_many_cons (set : CharClass) (passed : List Char) (c : Char) (rest : List Char)
    (group : Option (List Char)) : first (.many true (.one set)) accept ⟨passed, c :: rest, group⟩ =
      if set.accepts c then
        (first (.many true (.one set)) accept ⟨c :: passed, rest, group⟩).or (accept ⟨passed, c :: rest, group⟩)
      else accept ⟨passed, c :: rest, group⟩ := by
  rw [first_many, if_pos rfl, another_cons]
  split <;> simp

theorem first_many_nil (set : CharClass) (passed : List Char) (group : Option (List Char)) :
    first (.many true (.one set)) accept ⟨passed, [], group⟩ = accept ⟨passed, [], group⟩ :=
  first_many_stop fun _ => first_one_nil set passed group

/-- If all places are accepted, a greedy loop takes the longest run. -/
theorem first_many_of_willing (willing : ∀ point, (accept point).isSome) (set : CharClass)
    (passed source : List Char) (group : Option (List Char)) :
    first (.many true (.one set)) accept ⟨passed, source, group⟩ =
      accept ⟨(source.takeWhile set.accepts).reverse ++ passed, source.dropWhile set.accepts, group⟩ := by
  induction source generalizing passed with
  | nil => rw [first_many_nil]; rfl
  | cons c rest ih =>
      rw [first_many_cons, ih]
      by_cases accepted : set.accepts c = true
      · rw [if_pos accepted, Option.or_of_isSome (willing _)]
        simp [accepted]
      · rw [if_neg accepted]
        simp [accepted]

/-- If no place between two characters of the class is accepted, coming back is of no use: a greedy loop takes the
longest run. -/
theorem first_many_of_whole {set : CharClass}
    (whole : ∀ last passed next rest group, set.accepts last = true → set.accepts next = true →
      accept ⟨last :: passed, next :: rest, group⟩ = none)
    {last : Char} (accepted : set.accepts last = true) (passed source : List Char) (group : Option (List Char)) :
    first (.many true (.one set)) accept ⟨last :: passed, source, group⟩ =
      accept ⟨(source.takeWhile set.accepts).reverse ++ last :: passed, source.dropWhile set.accepts, group⟩ := by
  induction source generalizing last passed with
  | nil => rw [first_many_nil]; rfl
  | cons c rest ih =>
      rw [first_many_cons]
      by_cases next : set.accepts c = true
      · rw [if_pos next, ih next, whole last passed c rest group accepted next, Option.or_none]
        simp [next]
      · rw [if_neg next]
        simp [next]

@[simp] theorem first_char_nil (c : Char) (passed : List Char) (group : Option (List Char)) :
    first (char c) accept ⟨passed, [], group⟩ = none := rfl

@[simp] theorem first_char_cons (c : Char) (passed : List Char) (d : Char) (rest : List Char)
    (group : Option (List Char)) : first (char c) accept ⟨passed, d :: rest, group⟩ =
      if d = c then accept ⟨d :: passed, rest, group⟩ else none := by
  rw [char, first_one_cons]
  simp

/-- A spelled text is there or it is not. -/
theorem first_spelled {text rest source : List Char} (split : text ++ rest = source) (passed : List Char)
    (group : Option (List Char)) :
    first (spelled text) accept ⟨passed, source, group⟩ = accept ⟨text.reverse ++ passed, rest, group⟩ := by
  subst split
  induction text generalizing passed with
  | nil => exact first_empty _
  | cons c text ih =>
      rw [spelled, first_seq, List.cons_append, first_char_cons, if_pos rfl, ih]
      simp

theorem first_spelled_elsewhere {text source : List Char} (absent : ¬ text <+: source) (passed : List Char)
    (group : Option (List Char)) : first (spelled text) accept ⟨passed, source, group⟩ = none := by
  induction text generalizing passed source with
  | nil => exact absurd List.nil_prefix absent
  | cons c text ih =>
      rw [spelled, first_seq]
      cases source with
      | nil => rfl
      | cons d source =>
          rw [first_char_cons]
          split
          · rename_i same
            subst same
            exact ih (fun starts => absent (List.prefix_cons_inj d |>.mpr starts)) _
          · rfl

/-- Of several patterns the first that leads to an accepted place counts. -/
theorem first_oneOf (patterns : List Pattern) (point : Point) :
    first (oneOf patterns) accept point = patterns.findSome? fun pattern => first pattern accept point := by
  induction patterns with
  | nil =>
      obtain ⟨passed, rest, group⟩ := point
      cases rest with
      | nil => rfl
      | cons c rest => rw [oneOf, first_one_cons]; rfl
  | cons pattern patterns ih =>
      cases patterns with
      | nil =>
          rw [oneOf, List.findSome?_cons, List.findSome?_nil]
          cases first pattern accept point <;> rfl
      | cons next patterns =>
          rw [oneOf, first_alt, ih]
          · conv_rhs => rw [List.findSome?_cons]
            cases first pattern accept point <;> rfl
          · exact List.cons_ne_nil _ _

end First

/-- The report on a way that leads from a place to another. -/
def report (start finish : Point) : Option Finding := some ⟨start.textTo finish, finish.group⟩

theorem report_eq {source text rest : List Char} (split : text ++ rest = source) (passed after : List Char)
    (group : Option (List Char)) :
    report ⟨passed, source, none⟩ ⟨after, rest, group⟩ = some ⟨text, group⟩ := by
  simp [report, Point.textTo, ← split]

theorem findAt_eq (pattern : Pattern) (passed rest : List Char) :
    pattern.findAt passed rest = first pattern (report ⟨passed, rest, none⟩) ⟨passed, rest, none⟩ := by
  rw [findAt, first]
  cases pattern.ways ⟨passed, rest, none⟩ <;> rfl

/-- Behind the start of the text, a pattern that asks for it finds nothing. -/
theorem findFrom_anchored (pattern : Pattern) (c : Char) (passed source : List Char) :
    (Pattern.seq .start pattern).findFrom (c :: passed) source = none := by
  have missing : ∀ c passed rest, (Pattern.seq .start pattern).findAt (c :: passed) rest = none := by
    intro c passed rest
    rw [findAt_eq, first_seq, first_start, List.isEmpty_cons, if_neg Bool.false_ne_true]
  induction source generalizing c passed with
  | nil => exact missing c passed []
  | cons d source ih => rw [findFrom, missing, Option.none_or, ih]

/-- A pattern that asks for the start of the text is tried there only. -/
theorem find_anchored (pattern : Pattern) (source : List Char) : (Pattern.seq .start pattern).find source =
    first pattern (report ⟨[], source, none⟩) ⟨[], source, none⟩ := by
  have here : (Pattern.seq .start pattern).findAt [] source =
      first pattern (report ⟨[], source, none⟩) ⟨[], source, none⟩ := by
    rw [findAt_eq, first_seq, first_start, List.isEmpty_nil, if_pos rfl]
  cases source with
  | nil => exact here
  | cons c rest => rw [find, findFrom, findFrom_anchored, Option.or_none, here]

end Pattern

end BraceCompiler
