import Mathlib.Data.List.AList

/-!
# Finite maps

A hash map is a list of entries with distinct keys whose order carries no
meaning.  The values of a map are a list as well; inserting a fresh key and
erasing a present one change it by one value, up to the order.
-/

namespace RuCCL.Library

/-- A map from keys to values. -/
abbrev Table (Key Value : Type) := AList fun _ : Key => Value

variable {Key Value : Type}

/-- The values of a map. -/
def values (table : Table Key Value) : List Value := table.entries.map Sigma.snd

@[simp]
theorem values_empty : values (∅ : Table Key Value) = [] :=
  rfl

theorem length_values (table : Table Key Value) : (values table).length = table.keys.length := by
  rw [values, AList.keys, List.keys, List.length_map, List.length_map]

theorem values_eq_nil_iff (table : Table Key Value) : values table = [] ↔ table.keys = [] := by
  rw [← List.length_eq_zero_iff, length_values, List.length_eq_zero_iff]

theorem keys_eq_nil_iff (table : Table Key Value) : table.keys = [] ↔ table = ∅ := by
  constructor
  · intro empty
    exact AList.ext (List.map_eq_nil_iff.mp empty)
  · rintro rfl
    rfl

theorem keys_ne_nil_of_mem {table : Table Key Value} {key : Key} (present : key ∈ table) :
    table.keys ≠ [] :=
  List.ne_nil_of_mem (AList.mem_keys.mp present)

variable [DecidableEq Key]

theorem mem_values_iff {table : Table Key Value} {value : Value} :
    value ∈ values table ↔ ∃ key, table.lookup key = some value := by
  rw [values, List.mem_map]
  constructor
  · rintro ⟨entry, member, same⟩
    exact ⟨entry.1, AList.mem_lookup_iff.mpr (same ▸ member)⟩
  · rintro ⟨key, found⟩
    exact ⟨⟨key, value⟩, AList.mem_lookup_iff.mp found, rfl⟩

theorem mem_of_lookup {table : Table Key Value} {key : Key} {value : Value}
    (found : table.lookup key = some value) :
    key ∈ table := by
  rw [← AList.lookup_isSome, found]
  rfl

theorem exists_lookup_of_mem {table : Table Key Value} {key : Key} (present : key ∈ table) :
    ∃ value, table.lookup key = some value :=
  Option.isSome_iff_exists.mp (AList.lookup_isSome.mpr present)

section Insert

variable {table : Table Key Value} {key : Key} (fresh : key ∉ table) (value : Value)

include fresh

theorem values_insert_of_notMem : values (table.insert key value) = value :: values table := by
  rw [values, AList.entries_insert_of_notMem fresh]
  rfl

theorem length_keys_insert_of_notMem :
    (table.insert key value).keys.length = table.keys.length + 1 := by
  rw [← length_values, values_insert_of_notMem fresh, List.length_cons, length_values]

end Insert

theorem values_erase_sublist (table : Table Key Value) (key : Key) :
    (values (table.erase key)).Sublist (values table) := by
  unfold values
  exact List.Sublist.map _ (List.kerase_sublist key table.entries)

section Erase

variable {table : Table Key Value} {key : Key} {value : Value}
  (found : table.lookup key = some value)

include found

theorem values_perm_of_lookup : (values table).Perm (value :: values (table.erase key)) := by
  obtain ⟨other, before, after, _, split, erased⟩ :=
    List.exists_of_kerase (AList.mem_keys.mp (mem_of_lookup found))
  have same : other = value := by
    have member : (⟨key, other⟩ : Sigma fun _ => Value) ∈ table.entries := by
      rw [split]
      exact List.mem_append_right _ List.mem_cons_self
    rw [← AList.mem_lookup_iff, found] at member
    exact (Option.some.inj member).symm
  have left : values (table.erase key) = before.map Sigma.snd ++ after.map Sigma.snd := by
    rw [values, ← List.map_append, ← erased]
    rfl
  rw [left, values, split, List.map_append, List.map_cons, same]
  exact List.perm_middle

theorem length_keys_erase_of_lookup : table.keys.length = (table.erase key).keys.length + 1 := by
  rw [← length_values, (values_perm_of_lookup found).length_eq, List.length_cons, length_values]

end Erase

end RuCCL.Library
