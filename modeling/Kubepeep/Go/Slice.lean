import Mathlib

/-!
# Bounds-checked slices

Go indexes a slice with a signed `int` and panics out of range.  `none` is that panic.
-/

open List

namespace Kubepeep.Go.Slice

variable {α : Type*}

/-- `xs[i]` -/
def get (xs : List α) (i : Int) : Option α :=
  if 0 ≤ i then xs[i.toNat]? else none

/-- `xs[i] = value` -/
def set (xs : List α) (i : Int) (value : α) : Option (List α) :=
  if 0 ≤ i ∧ i < xs.length then some (xs.set i.toNat value) else none

variable {i : Int} {xs : List α}

theorem get_of_nonneg (h : 0 ≤ i) : get xs i = xs[i.toNat]? :=
  if_pos h

theorem get_of_neg (h : i < 0) : get xs i = none :=
  if_neg (by omega)

theorem get_of_length_le (h : xs.length ≤ i) : get xs i = none := by
  rw [get_of_nonneg (by omega)]
  exact getElem?_eq_none (by omega)

theorem exists_get (xs : List α) (h₀ : 0 ≤ i) (h : i < xs.length) : ∃ a, get xs i = some a := by
  rw [get_of_nonneg h₀]
  exact ⟨xs[i.toNat], getElem?_eq_getElem (by omega)⟩

theorem get_replicate {n : Nat} {a : α} (h₀ : 0 ≤ i) (h : i < n) :
    get (replicate n a) i = some a := by
  rw [get_of_nonneg h₀, getElem?_replicate, if_pos (by omega)]

theorem get_append_left {xs ys : List α} (h : i < xs.length) : get (xs ++ ys) i = get xs i := by
  unfold get
  split
  · exact getElem?_append_left (by omega)
  · rfl

theorem get_concat_length (xs : List α) (a : α) : get (xs ++ [a]) xs.length = some a := by
  rw [get_of_nonneg (by omega), Int.toNat_natCast, getElem?_concat_length]

theorem exists_set (xs : List α) (value : α) (h₀ : 0 ≤ i) (h : i < xs.length) :
    ∃ ys, set xs i value = some ys ∧ ys.length = xs.length ∧ get ys i = some value ∧
      ∀ j, j ≠ i → get ys j = get xs j := by
  refine ⟨xs.set i.toNat value, if_pos ⟨h₀, h⟩, length_set, ?_, ?_⟩
  · rw [get_of_nonneg h₀, getElem?_set_self (by omega)]
  · intro j hj
    unfold get
    split
    · rw [getElem?_set_ne (by omega)]
    · rfl

end Kubepeep.Go.Slice
