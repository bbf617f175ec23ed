import Mathlib.Data.List.Induction
import KitTemplate.Table

/-! Tables that many entries are put into. Entries under new keys come behind the others, in their
order, so the keys of a table stand in the order in which each was put into it first, whatever was
put under them since (`keys_putAll`). No key comes twice, and where none does, a value is looked up
under a key if and only if the two are an entry of the table (`lookup_eq_some_iff_mem`). -/

namespace KitTemplate.Table

variable {Key Value : Type}

/-! ### Keys -/

section Keys

variable [BEq Key] [LawfulBEq Key] {key : Key} {value : Value} {table : List (Key × Value)}

theorem lookup_eq_none_iff_not_mem : table.lookup key = none ↔ key ∉ table.map Prod.fst := by
  rw [List.lookup_eq_none_iff]
  constructor
  · intro hnone hmem
    obtain ⟨entry, hentry, rfl⟩ := List.mem_map.1 hmem
    simpa using hnone entry hentry
  · intro hnew entry hentry
    have hne : key ≠ entry.1 := fun hkey => hnew (hkey ▸ List.mem_map_of_mem hentry)
    simpa using hne

theorem lookup_eq_some_iff_mem (hkeys : (table.map Prod.fst).Nodup) :
    table.lookup key = some value ↔ (key, value) ∈ table := by
  rw [List.lookup_eq_some_iff]
  constructor
  · rintro ⟨before, after, rfl, -⟩
    simp
  · intro hmem
    obtain ⟨before, after, rfl⟩ := List.append_of_mem hmem
    refine ⟨before, after, rfl, fun entry hentry => ?_⟩
    rw [List.map_append, List.nodup_append] at hkeys
    simpa using (hkeys.2.2 _ (List.mem_map_of_mem hentry) key (by simp)).symm

end Keys

/-! ### Lists without their repetitions -/

section Repetitions

variable {Item : Type} [BEq Item] [LawfulBEq Item]

theorem eraseDups_concat (items : List Item) (item : Item) :
    (items ++ [item]).eraseDups =
      if item ∈ items then items.eraseDups else items.eraseDups ++ [item] := by
  rw [List.eraseDups_append]
  by_cases hmem : item ∈ items <;> simp [hmem, List.removeAll, List.eraseDups_cons]

/-- Each item comes once, in the order in which the items come first. -/
theorem pairwise_idxOf_eraseDups (items : List Item) :
    items.eraseDups.Pairwise fun item next => items.idxOf item < items.idxOf next := by
  -- from the end, since what is added there moves nothing that came before
  induction items using List.reverseRecOn with
  | nil => exact List.Pairwise.nil
  | append_singleton items item ih =>
      have hearlier {other : Item} (hother : other ∈ items.eraseDups) :
          (items ++ [item]).idxOf other = items.idxOf other ∧
            items.idxOf other < items.length := by
        have hmem := List.mem_eraseDups.1 hother
        exact ⟨by rw [List.idxOf_append, if_pos hmem], List.idxOf_lt_length_of_mem hmem⟩
      have hbefore : items.eraseDups.Pairwise fun first next =>
          (items ++ [item]).idxOf first < (items ++ [item]).idxOf next :=
        ih.imp_of_mem fun hfirst hnext hlt => by
          rwa [(hearlier hfirst).1, (hearlier hnext).1]
      rw [eraseDups_concat]
      split
      · exact hbefore
      · rename_i hnew
        refine List.pairwise_append.2 ⟨hbefore, List.pairwise_singleton _ _, ?_⟩
        intro other hother last hlast
        rw [List.mem_singleton.1 hlast, (hearlier hother).1, List.idxOf_append, if_neg hnew]
        exact Nat.lt_of_lt_of_le (hearlier hother).2 (Nat.le_add_left _ _)

theorem nodup_eraseDups (items : List Item) : items.eraseDups.Nodup := by
  refine (pairwise_idxOf_eraseDups items).imp ?_
  rintro item _ hlt rfl
  exact Nat.lt_irrefl _ hlt

end Repetitions

/-! ### Putting entries into a table -/

variable [DecidableEq Key]

theorem put_of_not_mem {key : Key} {table : List (Key × Value)} (hkey : key ∉ table.map Prod.fst)
    (value : Value) : put key value table = table ++ [(key, value)] := by
  induction table with
  | nil => rfl
  | cons entry rest ih =>
      rw [List.map_cons, List.mem_cons, not_or] at hkey
      rw [put, if_neg (Ne.symm hkey.1), ih hkey.2, List.cons_append]

/-- Entries under new keys are put behind those of the table, in their order. -/
theorem putAll_of_nodup {table entries : List (Key × Value)}
    (hkeys : ((table ++ entries).map Prod.fst).Nodup) :
    putAll table entries = table ++ entries := by
  induction entries generalizing table with
  | nil => rw [List.append_nil]; rfl
  | cons entry rest ih =>
      have hkey : entry.1 ∉ table.map Prod.fst := by
        rw [List.map_append, List.nodup_append] at hkeys
        exact fun hmem => hkeys.2.2 _ hmem _ List.mem_cons_self rfl
      show putAll (put entry.1 entry.2 table) rest = table ++ entry :: rest
      rw [put_of_not_mem hkey, ih (by simpa using hkeys), List.append_assoc]
      rfl

theorem mem_keys_put {key other : Key} {value : Value} {table : List (Key × Value)} :
    other ∈ (put key value table).map Prod.fst ↔ other = key ∨ other ∈ table.map Prod.fst := by
  induction table with
  | nil => simp [put]
  | cons entry rest ih =>
      rw [put]
      split
      · rename_i hkey
        rw [List.map_cons, List.map_cons, List.mem_cons, List.mem_cons, hkey, ← or_assoc, or_self]
      · rw [List.map_cons, List.mem_cons, ih, List.map_cons, List.mem_cons]
        exact or_left_comm

/-- The keys of entries that are put into a table are the keys that it has afterwards. -/
theorem mem_keys_putAll {key : Key} {table entries : List (Key × Value)} :
    key ∈ (putAll table entries).map Prod.fst ↔
      key ∈ table.map Prod.fst ∨ key ∈ entries.map Prod.fst := by
  induction entries generalizing table with
  | nil => simp [putAll]
  | cons entry rest ih =>
      show key ∈ (putAll (put entry.1 entry.2 table) rest).map Prod.fst ↔ _
      rw [ih, mem_keys_put, List.map_cons, List.mem_cons, or_assoc]
      exact or_left_comm

section Order

variable [BEq Key] [LawfulBEq Key]

/-- The keys of a table stand in the order in which they were put into it first. -/
theorem keys_putAll {table : List (Key × Value)} {known : List Key}
    (hknown : table.map Prod.fst = known.eraseDups) (entries : List (Key × Value)) :
    (putAll table entries).map Prod.fst = (known ++ entries.map Prod.fst).eraseDups := by
  induction entries generalizing table known with
  | nil => rwa [List.map_nil, List.append_nil]
  | cons entry rest ih =>
      have hput : (put entry.1 entry.2 table).map Prod.fst = (known ++ [entry.1]).eraseDups := by
        have hnew : table.lookup entry.1 = none ↔ entry.1 ∉ known := by
          rw [lookup_eq_none_iff_not_mem, hknown, List.mem_eraseDups]
        rw [keys_put, eraseDups_concat, hknown]
        by_cases hmem : entry.1 ∈ known
        · rw [if_pos hmem, if_neg (mt hnew.1 (not_not_intro hmem))]
        · rw [if_neg hmem, if_pos (hnew.2 hmem)]
      show (putAll (put entry.1 entry.2 table) rest).map Prod.fst = _
      rw [ih hput, List.append_assoc]
      rfl

/-- A value put under several keys. -/
theorem lookup_putAll_map (keys : List Key) (value : Value) (table : List (Key × Value))
    (key : Key) : (putAll table (keys.map (·, value))).lookup key =
      if key ∈ keys then some value else table.lookup key := by
  induction keys generalizing table with
  | nil => rfl
  | cons first rest ih =>
      show (putAll (put first value table) (rest.map (·, value))).lookup key = _
      rw [ih]
      by_cases hrest : key ∈ rest
      · rw [if_pos hrest, if_pos (List.mem_cons_of_mem first hrest)]
      rw [if_neg hrest]
      by_cases hfirst : key = first
      · rw [hfirst, lookup_put_self, if_pos List.mem_cons_self]
      · rw [lookup_put_of_ne hfirst, if_neg (by simp [hfirst, hrest])]

end Order

end KitTemplate.Table
