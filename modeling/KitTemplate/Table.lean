/-! Tables: lists of keys with values in which a key keeps the place of its first entry. A later
value takes the place of an earlier one (`lookup_put_self`) and leaves every other key as it was
(`lookup_put_of_ne`), and no key is ever lost (`keys_put`). -/

namespace KitTemplate.Table

variable {Key Value : Type} [DecidableEq Key]

/-- The table with a value under a key, in place of the one it had. -/
def put (key : Key) (value : Value) : List (Key × Value) → List (Key × Value)
  | [] => [(key, value)]
  | entry :: rest => if entry.1 = key then (key, value) :: rest else entry :: put key value rest

/-- The table with some entries put into it, one after another. -/
def putAll (table entries : List (Key × Value)) : List (Key × Value) :=
  entries.foldl (fun table entry => put entry.1 entry.2 table) table

/-- The table of some entries, of which the last counts where several have one key. -/
def ofList (entries : List (Key × Value)) : List (Key × Value) := putAll [] entries

theorem lookup_put_self [BEq Key] [LawfulBEq Key] (key : Key) (value : Value)
    (table : List (Key × Value)) : (put key value table).lookup key = some value := by
  induction table with
  | nil => simp [put]
  | cons entry rest ih =>
    obtain ⟨candidate, present⟩ := entry
    by_cases hkey : candidate = key
    · simp [put, hkey]
    · have hbeq : (key == candidate) = false := beq_eq_false_iff_ne.2 (Ne.symm hkey)
      simp [put, hkey, List.lookup_cons, hbeq, ih]

theorem lookup_put_of_ne [BEq Key] [LawfulBEq Key] {key other : Key} (hother : other ≠ key)
    (value : Value) (table : List (Key × Value)) :
    (put key value table).lookup other = table.lookup other := by
  have hbeq : (other == key) = false := beq_eq_false_iff_ne.2 hother
  induction table with
  | nil => simp [put, List.lookup_cons, hbeq]
  | cons entry rest ih =>
    obtain ⟨candidate, present⟩ := entry
    by_cases hkey : candidate = key
    · simp [put, List.lookup_cons, hkey, hbeq]
    · simp [put, hkey, List.lookup_cons, ih]

theorem mem_of_mem_put {key : Key} {value : Value} {entry : Key × Value}
    {table : List (Key × Value)} (hentry : entry ∈ put key value table) :
    entry = (key, value) ∨ entry ∈ table := by
  induction table with
  | nil => exact Or.inl (List.mem_singleton.1 hentry)
  | cons first rest ih =>
    rw [put] at hentry
    split at hentry
    · rcases List.mem_cons.1 hentry with rfl | hrest
      · exact Or.inl rfl
      · exact Or.inr (List.mem_cons_of_mem first hrest)
    · rcases List.mem_cons.1 hentry with rfl | hrest
      · exact Or.inr List.mem_cons_self
      · exact (ih hrest).imp_right (List.mem_cons_of_mem first)

/-- A new key comes behind the others. -/
theorem keys_put [BEq Key] [LawfulBEq Key] (key : Key) (value : Value)
    (table : List (Key × Value)) : (put key value table).map (·.1) =
      if table.lookup key = none then table.map (·.1) ++ [key] else table.map (·.1) := by
  induction table with
  | nil => rfl
  | cons entry rest ih =>
    obtain ⟨candidate, present⟩ := entry
    by_cases hkey : candidate = key
    · simp [put, hkey]
    · have hbeq : (key == candidate) = false := beq_eq_false_iff_ne.2 (Ne.symm hkey)
      rw [put, if_neg hkey, List.map_cons, ih, List.lookup_cons, hbeq]
      split <;> rfl

end KitTemplate.Table
