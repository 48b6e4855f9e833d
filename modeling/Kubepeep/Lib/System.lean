import Mathlib

/-!
# Runs of a step relation

Interleavings of concurrent parties are runs of one labelled step relation.  An invariant is proved
once per step; a run in which only some steps are allowed keeps what those steps keep.
-/

open Function

namespace Kubepeep.System

variable {S A : Type}

/-- A run from one state to another, with its actions in order. -/
inductive Runs (step : S → A → S → Prop) : S → List A → S → Prop where
  | nil (s : S) : Runs step s [] s
  | snoc {s t u : S} {actions : List A} {action : A} :
    Runs step s actions t → step t action u → Runs step s (actions ++ [action]) u

variable {step : S → A → S → Prop} {s t u : S} {actions : List A} {action : A}

theorem Runs.single (h : step s action t) : Runs step s [action] t :=
  .snoc (.nil s) h

theorem Runs.trans {later : List A} (h : Runs step s actions t) (hlater : Runs step t later u) :
    Runs step s (actions ++ later) u := by
  induction hlater with
  | nil => rwa [List.append_nil]
  | snoc _ hstep ih =>
    rw [← List.append_assoc]
    exact .snoc ih hstep

/-- A run to a state with a property, built from its first step on. -/
theorem runs_cons {P : S → Prop} (h : step s action t) (hlater : ∃ u, Runs step t actions u ∧ P u) :
    ∃ u, Runs step s (action :: actions) u ∧ P u := by
  obtain ⟨u, hruns, hu⟩ := hlater
  exact ⟨u, (Runs.single h).trans hruns, hu⟩

/-- The run may be used to prove what is said of the state it leads to. -/
theorem runs_with {P : S → Prop} (h : ∃ u, Runs step s actions u ∧ (Runs step s actions u → P u)) :
    ∃ u, Runs step s actions u ∧ P u := by
  obtain ⟨u, hruns, hu⟩ := h
  exact ⟨u, hruns, hu hruns⟩

/-- What every step keeps, every run keeps. -/
theorem Runs.invariant {I : S → Prop} (h : Runs step s actions t) (hinit : I s)
    (hstep : ∀ {t action u}, I t → step t action u → I u) : I t := by
  induction h with
  | nil => exact hinit
  | snoc _ hlast ih => exact hstep ih hlast

/-- The same for an invariant that also reads the actions so far. -/
theorem Runs.history {I : List A → S → Prop} (h : Runs step s actions t) (hinit : I [] s)
    (hstep : ∀ {before t action u}, I before t → step t action u → I (before ++ [action]) u) :
    I actions t := by
  induction h with
  | nil => exact hinit
  | snoc _ hlast ih => exact hstep ih hlast

theorem update_cases {I V : Type} [DecidableEq I] (f : I → V) (P : V → Prop) {i j : I}
    {value : V} (h : P (update f i value j)) :
    (j = i ∧ P value) ∨ (j ≠ i ∧ P (f j)) := by
  by_cases hj : j = i
  · subst hj
    rw [update_self] at h
    exact .inl ⟨rfl, h⟩
  · rw [update_of_ne hj] at h
    exact .inr ⟨hj, h⟩

theorem of_update {I V : Type} [DecidableEq I] (f : I → V) (P : V → Prop) {i j : I} {value : V}
    (h : P (update f i value j)) (hnew : ¬ P value) : P (f j) :=
  (update_cases f P h).elim (fun hcase => absurd hcase.2 hnew) fun hcase => hcase.2

theorem holds_update {I V : Type} [DecidableEq I] (f : I → V) (P : V → Prop) {i j : I} {value : V}
    (hnew : P value) (hold : P (f j)) : P (update f i value j) :=
  (forall_update_iff f fun k v => k = j → P v).mpr ⟨fun _ => hnew, fun _ _ h => h ▸ hold⟩ j rfl

/-- A step that does not change what `g` reads of a party does so for none. -/
theorem update_same {I V W : Type} [DecidableEq I] (f : I → V) (g : V → W) {i : I} {value : V}
    (h : g value = g (f i)) : ∀ j, g (update f i value j) = g (f j) :=
  (forall_update_iff f fun j v => g v = g (f j)).mpr ⟨h, fun _ _ => rfl⟩

theorem imp_update {I V : Type} [DecidableEq I] (f : I → V) (P : V → Prop) {i : I} {value : V}
    (h : P (f i) → P value) : ∀ j, P (f j) → P (update f i value j) :=
  (forall_update_iff f fun j v => P (f j) → P v).mpr ⟨h, fun _ _ h => h⟩

theorem sum_update {I V : Type} [Fintype I] [DecidableEq I] (g : V → Int) (f : I → V) (i : I)
    (value : V) :
    ∑ j, g (update f i value j) = (∑ j, g (f j)) - g (f i) + g value := by
  have hcomp : (fun j => g (update f i value j)) =
      update (fun j => g (f j)) i (g value) := by
    funext j
    exact apply_update (fun _ => g) f i value j
  have hothers := Finset.add_sum_erase Finset.univ (fun j => g (f j)) (Finset.mem_univ i)
  rw [hcomp, Finset.sum_update_of_mem (Finset.mem_univ i), Finset.sdiff_singleton_eq_erase]
  omega

theorem le_update_succ {I : Type} [DecidableEq I] (f : I → Nat) (i j : I) :
    f j ≤ update f i (f i + 1) j := by
  by_cases hj : j = i
  · subst hj
    rw [update_self]
    exact Nat.le_succ _
  · exact Nat.le_of_eq (update_of_ne hj _ f).symm

end Kubepeep.System
