/-
  Mpsx/Table.lean
  ===============
  **Tables.**  A table gives values to names.  Setting a name again replaces its
  value and keeps its place; a new name goes to the end.
-/

namespace Mpsx

/-- Values by name, in the order the names were first set. -/
abbrev Table (α : Type) := List (String × α)

namespace Table

variable {α : Type}

/-- The value of a name. -/
def get? (table : Table α) (name : String) : Option α := table.lookup name

/-- Gives a value to a name. -/
def set (name : String) (value : α) : Table α → Table α
  | [] => [(name, value)]
  | (key, v) :: rest =>
    if name = key then (key, value) :: rest else (key, v) :: set name value rest

@[simp] theorem get?_nil (name : String) : get? ([] : Table α) name = none := rfl

theorem get?_cons (name key : String) (v : α) (rest : Table α) :
    get? ((key, v) :: rest) name = if name = key then some v else get? rest name := by
  unfold get?
  rw [List.lookup_cons]
  by_cases h : name = key
  · simp [h]
  · rw [if_neg h, beq_false_of_ne h]

/-- After setting a name, it has the new value and all other names have theirs. -/
theorem get?_set (table : Table α) (name other : String) (value : α) :
    get? (set name value table) other = if other = name then some value else get? table other := by
  induction table with
  | nil => simp [set, get?_cons]
  | cons entry rest ih =>
    obtain ⟨key, v⟩ := entry
    rw [set]
    split
    · next h =>
      subst h
      rw [get?_cons, get?_cons]
      split <;> rfl
    · next h =>
      rw [get?_cons, get?_cons, ih]
      by_cases hk : other = key
      · have : other ≠ name := fun hn => h (hn.symm.trans hk)
        simp [hk]
        intro hn
        exact absurd hn.symm h
      · simp [hk]

end Table

end Mpsx
