import Mathlib

/-!
# Numbers in base 36

`strconv.FormatUint(n, 36)` and `strconv.ParseUint(s, 36, 64)`.
-/

open Nat List

namespace Kubepeep.Go.Strconv

def digitRune (digit : Nat) : Char :=
  if digit < 10 then Char.ofNat ('0'.toNat + digit) else Char.ofNat ('a'.toNat + (digit - 10))

def digitValue (c : Char) : Option Nat :=
  if '0' ≤ c ∧ c ≤ '9' then
    some (c.toNat - '0'.toNat)
  else if 'a' ≤ c ∧ c ≤ 'z' then
    some (c.toNat - 'a'.toNat + 10)
  else if 'A' ≤ c ∧ c ≤ 'Z' then
    some (c.toNat - 'A'.toNat + 10)
  else
    none

def FormatUint (n : Nat) : String :=
  if n = 0 then "0" else String.ofList ((Nat.digits 36 n).map digitRune).reverse

/-- `none` is a syntax or a range error. -/
def ParseUint (s : String) : Option Nat := do
  let digits ← s.toList.mapM digitValue
  let value := ofDigits 36 digits.reverse
  if digits = [] ∨ value ≥ 2 ^ 64 then none else some value

theorem digitValue_digitRune : ∀ digit < 36, digitValue (digitRune digit) = some digit := by
  decide

theorem digitRune_ne_dot : ∀ digit < 36, digitRune digit ≠ '.' := by
  decide

theorem mapM_digitValue {digits : List Nat} (h : ∀ digit ∈ digits, digit < 36) :
    (digits.map digitRune).mapM digitValue = some digits := by
  induction digits with
  | nil => rfl
  | cons digit rest ih =>
    obtain ⟨hdigit, hrest⟩ := forall_mem_cons.mp h
    rw [map_cons, mapM_cons, digitValue_digitRune digit hdigit, ih hrest]
    rfl

theorem FormatUint_toList (n : Nat) : ∃ digits : List Nat, digits ≠ [] ∧
    (∀ digit ∈ digits, digit < 36) ∧ (FormatUint n).toList = digits.map digitRune ∧
    ofDigits 36 digits.reverse = n := by
  unfold FormatUint
  split
  · next h => exact ⟨[0], by simp, by simp, rfl, by simp [h]⟩
  · next h =>
    refine ⟨(digits 36 n).reverse, ?_, ?_, ?_, ?_⟩
    · simpa [digits_eq_nil_iff_eq_zero] using h
    · exact fun digit hdigit => digits_lt_base (by decide) (mem_reverse.mp hdigit)
    · rw [String.toList_ofList, map_reverse]
    · rw [reverse_reverse, ofDigits_digits]

theorem ParseUint_FormatUint {n : Nat} (h : n < 2 ^ 64) : ParseUint (FormatUint n) = some n := by
  obtain ⟨digits, hne, hdigits, hlist, hvalue⟩ := FormatUint_toList n
  unfold ParseUint
  rw [hlist, mapM_digitValue hdigits]
  simpa [hne, hvalue] using h

theorem FormatUint_injective {n m : Nat} (h : FormatUint n = FormatUint m) : n = m := by
  obtain ⟨digits, -, hdigits, hlist, hvalue⟩ := FormatUint_toList n
  obtain ⟨others, -, hothers, hlist', hvalue'⟩ := FormatUint_toList m
  have hmap : digits.map digitRune = others.map digitRune := by rw [← hlist, ← hlist', h]
  have hsome : some digits = some others := by
    rw [← mapM_digitValue hdigits, hmap, mapM_digitValue hothers]
  rw [← hvalue, ← hvalue', Option.some.inj hsome]

theorem dot_not_mem_FormatUint (n : Nat) : '.' ∉ (FormatUint n).toList := by
  obtain ⟨digits, -, hdigits, hlist, -⟩ := FormatUint_toList n
  rw [hlist, mem_map]
  rintro ⟨digit, hdigit, hdot⟩
  exact digitRune_ne_dot digit (hdigits digit hdigit) hdot

end Kubepeep.Go.Strconv
