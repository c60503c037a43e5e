import BraceCompiler.Table

/-! Tables as mappings: what is found after a value has been put in, and when putting it in changes
nothing. -/

namespace BraceCompiler.Table

variable {β : Type}

theorem lookup_cons_ite (key name : String) (value : β) (entries : List (String × β)) :
    ((key, value) :: entries).lookup name = if name = key then some value else entries.lookup name := by
  rw [List.lookup_cons]
  by_cases same : name = key
  · rw [same, beq_self_eq_true, if_pos rfl]
  · rw [beq_false_of_ne same, if_neg same]

theorem lookup_insertEntry (name other : String) (value : β) (entries : List (String × β)) :
    (insertEntry name value entries).lookup other =
      if other = name then some value else entries.lookup other := by
  induction entries with
  | nil => rw [insertEntry, lookup_cons_ite]
  | cons first rest ih =>
      obtain ⟨key, old⟩ := first
      rw [insertEntry]
      split
      · rw [lookup_cons_ite]
      · split
        · rename_i same
          subst same
          simp only [lookup_cons_ite]
          split <;> rfl
        · rename_i differs
          simp only [lookup_cons_ite, ih]
          by_cases found : other = key
          · simp [found, Ne.symm differs]
          · simp [found]

/-- A name below all keys is not found. -/
theorem lookup_eq_none_of_lt {name : String} {entries : List (String × β)}
    (below : ∀ entry ∈ entries, name < entry.1) : entries.lookup name = none := by
  rw [List.lookup_eq_none_iff]
  intro entry member
  exact bne_iff_ne.mpr (Std.ne_of_lt (below entry member))

theorem insertEntry_of_lookup {name : String} {value : β} {entries : List (String × β)}
    (ordered : entries.Pairwise fun a b => a.1 < b.1) (found : entries.lookup name = some value) :
    insertEntry name value entries = entries := by
  induction entries with
  | nil => simp at found
  | cons first rest ih =>
      obtain ⟨key, old⟩ := first
      obtain ⟨above, orderedRest⟩ := List.pairwise_cons.mp ordered
      rw [insertEntry]
      split
      · rename_i before
        have below : ∀ entry ∈ (key, old) :: rest, name < entry.1 := by
          intro entry member
          rcases List.mem_cons.mp member with rfl | later
          · exact before
          · exact String.lt_trans before (above entry later)
        rw [lookup_eq_none_of_lt below] at found
        cases found
      · rw [lookup_cons_ite] at found
        split
        · rename_i same
          rw [if_pos same] at found
          cases found
          rw [same]
        · rename_i differs
          rw [if_neg differs] at found
          rw [ih orderedRest found]

/-- The last value put in for a name is the one that is found. -/
theorem get?_insert (table : Table β) (name other : String) (value : β) :
    (table.insert name value).get? other = if other = name then some value else table.get? other :=
  lookup_insertEntry name other value table.entries

theorem contains_empty (name : String) : (empty : Table β).contains name = false := rfl

theorem contains_insert (table : Table β) (name other : String) (value : β) :
    (table.insert name value).contains other = true ↔ other = name ∨ table.contains other = true := by
  rw [contains, get?_insert]
  by_cases same : other = name
  · simp [same]
  · simp [same, contains]

/-- The names of a table are those that are found in it. -/
theorem mem_names_iff {table : Table β} {name : String} : name ∈ table.names ↔ table.contains name = true := by
  rw [contains, get?, List.lookup_isSome_iff, names, List.mem_map]
  constructor
  · rintro ⟨entry, member, rfl⟩
    exact ⟨entry, member, beq_self_eq_true _⟩
  · rintro ⟨entry, member, same⟩
    exact ⟨entry, member, (eq_of_beq same).symm⟩

theorem names_ascending (table : Table β) : table.names.Pairwise (· < ·) :=
  List.pairwise_map.mpr table.ascending

/-- To put in what is there already changes nothing. -/
theorem insert_of_get? {table : Table β} {name : String} {value : β}
    (found : table.get? name = some value) : table.insert name value = table := by
  obtain ⟨entries, ordered⟩ := table
  simp only [insert, mk.injEq]
  exact insertEntry_of_lookup ordered found

end BraceCompiler.Table
