/-! Tables from names to values, kept in ascending order of the names. -/

namespace BraceCompiler

/-- Each name has one entry, and names ascend by code point. -/
structure Table (β : Type) where
  entries : List (String × β)
  ascending : entries.Pairwise fun a b => a.1 < b.1

namespace Table

variable {β : Type}

/-- The entries with a value put in place of the name's old one, or in its place in the order. -/
def insertEntry (name : String) (value : β) : List (String × β) → List (String × β)
  | [] => [(name, value)]
  | (other, old) :: rest =>
    if name < other then (name, value) :: (other, old) :: rest
    else if name = other then (name, value) :: rest
    else (other, old) :: insertEntry name value rest

theorem mem_insertEntry {name : String} {value : β} {entry : String × β}
    {entries : List (String × β)}
    (found : entry ∈ insertEntry name value entries) : entry = (name, value) ∨ entry ∈ entries := by
  induction entries with
  | nil => simpa [insertEntry] using found
  | cons first rest ih =>
    obtain ⟨other, old⟩ := first
    rw [insertEntry] at found
    split at found
    · simpa using found
    · split at found
      · rcases List.mem_cons.mp found with same | later
        · exact .inl same
        · exact .inr (List.mem_cons_of_mem _ later)
      · rcases List.mem_cons.mp found with same | later
        · exact .inr (same ▸ List.mem_cons_self)
        · exact (ih later).imp_right (List.mem_cons_of_mem _)

theorem ascending_insertEntry (name : String) (value : β) {entries : List (String × β)}
    (ordered : entries.Pairwise fun a b => a.1 < b.1) :
    (insertEntry name value entries).Pairwise fun a b => a.1 < b.1 := by
  induction entries with
  | nil => simp [insertEntry]
  | cons first rest ih =>
    obtain ⟨other, old⟩ := first
    obtain ⟨above, orderedRest⟩ := List.pairwise_cons.mp ordered
    rw [insertEntry]
    split
    · rename_i before
      refine List.pairwise_cons.mpr ⟨?_, ordered⟩
      intro entry member
      rcases List.mem_cons.mp member with rfl | later
      · exact before
      · exact String.lt_trans before (above entry later)
    · split
      · rename_i same
        exact List.pairwise_cons.mpr ⟨fun entry later => same ▸ above entry later, orderedRest⟩
      · rename_i notBefore notSame
        refine List.pairwise_cons.mpr ⟨?_, ih orderedRest⟩
        intro entry member
        rcases mem_insertEntry member with rfl | later
        · exact Std.lt_of_le_of_ne (String.not_lt.mp notBefore) (Ne.symm notSame)
        · exact above entry later

def empty : Table β := ⟨[], .nil⟩

def insert (table : Table β) (name : String) (value : β) : Table β :=
  ⟨insertEntry name value table.entries, ascending_insertEntry name value table.ascending⟩

def get? (table : Table β) (name : String) : Option β := table.entries.lookup name

def contains (table : Table β) (name : String) : Bool := (table.get? name).isSome

def size (table : Table β) : Nat := table.entries.length

def isEmpty (table : Table β) : Bool := table.entries.isEmpty

def names (table : Table β) : List String := table.entries.map Prod.fst

end Table

/-- A set of names. -/
abbrev Names := Table Unit

def Names.add (names : Names) (name : String) : Names := names.insert name ()

end BraceCompiler
