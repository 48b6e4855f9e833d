import Mathlib

/-!
# Tables

Finite maps with the operations of a Go map that programs bound in size: lookup, insertion,
deletion, and the loops that delete every row that fails a test or change every row.
-/

open List

namespace Kubepeep

/-- A finite map.  Every key has one row. -/
abbrev Table (K V : Type) : Type := AList fun _ : K => V

namespace Table

variable {K V : Type} {table : Table K V} {key other : K} {value found : V}

def size (table : Table K V) : Nat := table.entries.length

/-- `for key, value := range table { if !keep(key, value) { delete(table, key) } }` -/
def prune (table : Table K V) (keep : K → V → Bool) : Table K V where
  entries := table.entries.filter fun row => keep row.1 row.2
  nodupKeys := .sublist filter_sublist table.nodupKeys

/-- `for key, value := range table { table[key] = f(value) }` -/
def map (table : Table K V) (f : V → V) : Table K V where
  entries := table.entries.map fun row => ⟨row.1, f row.2⟩
  nodupKeys := by
    have hkeys : (table.entries.map fun row => (⟨row.1, f row.2⟩ : Sigma fun _ : K => V)).keys =
        table.entries.keys :=
      map_map
    rw [NodupKeys, hkeys]
    exact table.nodupKeys

theorem size_prune_le (keep : K → V → Bool) : (table.prune keep).size ≤ table.size :=
  length_filter_le ..

variable [DecidableEq K]

theorem lookup_eq_some_iff : table.lookup key = some value ↔ ⟨key, value⟩ ∈ table.entries :=
  AList.mem_lookup_iff

theorem lookup_prune_eq_some_iff {keep : K → V → Bool} :
    (table.prune keep).lookup key = some value ↔
      table.lookup key = some value ∧ keep key value = true := by
  rw [lookup_eq_some_iff, lookup_eq_some_iff, prune, mem_filter]

theorem lookup_map_eq_some_iff {f : V → V} :
    (table.map f).lookup key = some value ↔
      ∃ before, table.lookup key = some before ∧ f before = value := by
  simp only [lookup_eq_some_iff, map, mem_map]
  constructor
  · rintro ⟨⟨other, before⟩, hrow, ⟨⟩⟩
    exact ⟨before, hrow, rfl⟩
  · rintro ⟨before, hrow, rfl⟩
    exact ⟨⟨key, before⟩, hrow, rfl⟩

theorem lookup_insert_eq_some_iff :
    (table.insert key value).lookup other = some found ↔
      (other = key ∧ value = found) ∨ (other ≠ key ∧ table.lookup other = some found) := by
  by_cases h : other = key
  · subst h
    simp [AList.lookup_insert]
  · simp [AList.lookup_insert_ne h, h]

theorem lookup_erase_eq_some_iff :
    (table.erase key).lookup other = some value ↔
      other ≠ key ∧ table.lookup other = some value := by
  by_cases h : other = key
  · subst h
    simp [AList.lookup_erase]
  · simp [AList.lookup_erase_ne h, h]

/-! ## Size -/

theorem size_erase_le (key : K) : size (table.erase key) ≤ table.size :=
  (kerase_sublist key table.entries).length_le

theorem size_insert (h : table.lookup key = none) :
    size (table.insert key value) = table.size + 1 := by
  rw [size, AList.entries_insert_of_notMem (AList.lookup_eq_none.mp h)]
  rfl

end Table

end Kubepeep
