import Mathlib

/-!
# Programs against an arbitrary environment

An `Effect` is a program that asks a stateful environment and may stop with an error.  `Sat E m P`
says that every run of `m`, from every environment state, ends in a result with `P`, or in an
error if `E` holds.  `Sat True` is partial correctness and `Sat False` total correctness; the rules
are the same.
-/

namespace Kubepeep

/-- Programs over environment states `σ` that may stop with an `ε`. -/
abbrev Effect (σ ε : Type) (α : Type) : Type :=
  ExceptT ε (StateM σ) α

theorem except_bind_eq_ok {ε α β : Type} {m : Except ε α} {f : α → Except ε β} {b : β}
    (h : (m >>= f) = .ok b) : ∃ a, m = .ok a ∧ f a = .ok b := by
  cases m with
  | ok a => exact ⟨a, rfl, h⟩
  | error err => exact absurd h (by simp [bind, Except.bind])

namespace Effect

variable {σ ε α β : Type} {E : Prop} {P Q : α → Prop}

def Ends (E : Prop) (P : α → Prop) : Except ε α → Prop
  | .ok a => P a
  | .error _ => E

def Sat (E : Prop) (m : Effect σ ε α) (P : α → Prop) : Prop :=
  ∀ s, Ends E P (m.run.run s).1

variable {a : α}

theorem sat_pure (h : P a) : Sat E (pure a : Effect σ ε α) P :=
  fun _ => h

theorem sat_throw {e : ε} (h : E) : Sat E (throw e : Effect σ ε α) P :=
  fun _ => h

def Always (m : StateM σ α) (P : α → Prop) : Prop :=
  ∀ s, P (m.run s).1

theorem always_pure (h : P a) : Always (pure a : StateM σ α) P :=
  fun _ => h

variable {m : StateM σ α} {R : β → Prop}

theorem always_bind {f : α → StateM σ β} (hm : Always m P)
    (hf : ∀ a, P a → Always (f a) R) : Always (m >>= f) R :=
  fun s => hf (m.run s).1 (hm s) (m.run s).2

theorem Always.mono (hm : Always m P) (h : ∀ a, P a → Q a) : Always m Q :=
  fun s => h _ (hm s)

theorem always_and (hm : Always m P) (hq : Always m Q) : Always m fun a => P a ∧ Q a :=
  fun s => ⟨hm s, hq s⟩

theorem always_run (m : StateM σ α) : Always m fun a => ∃ s, a = (m.run s).1 :=
  fun s => ⟨s, rfl⟩

theorem sat_lift (h : Always m P) : Sat E (liftM m : Effect σ ε α) P :=
  fun s => h s

variable {m : Effect σ ε α} {f : α → Effect σ ε β}

theorem sat_bind (hm : Sat E m P) (hf : ∀ a, P a → Sat E (f a) R) : Sat E (m >>= f) R := by
  intro s
  have h := hm s
  change Ends E R ((m.run >>= ExceptT.bindCont f).run s).1
  rw [StateT.run_bind]
  change Ends E R ((ExceptT.bindCont f (m.run.run s).1).run (m.run.run s).2).1
  cases hr : (m.run.run s).1 with
  | ok a =>
    rw [hr] at h
    exact hf a h (m.run.run s).2
  | error e =>
    rw [hr] at h
    exact h

theorem sat_pure_bind {a : α} (hf : Sat E (f a) R) : Sat E (pure a >>= f) R :=
  sat_bind (P := (· = a)) (sat_pure rfl) fun _ heq => heq ▸ hf

theorem sat_tryCatch {handle : ε → Effect σ ε α} (hm : Sat False m P) :
    Sat False (tryCatch m handle) P := by
  intro s
  have h := hm s
  change Ends False P ((m.run >>= fun result => match result with
    | .ok a => pure (.ok a)
    | .error e => (handle e).run).run s).1
  rw [StateT.run_bind]
  change Ends False P ((match (m.run.run s).1 with
    | .ok a => (pure (.ok a) : StateM σ (Except ε α))
    | .error e => (handle e).run).run (m.run.run s).2).1
  cases hr : (m.run.run s).1 with
  | ok a =>
    rw [hr] at h
    exact h
  | error e =>
    rw [hr] at h
    exact h.elim

theorem Sat.mono (hm : Sat E m P) (h : ∀ a, P a → Q a) : Sat E m Q := by
  intro s
  have hs := hm s
  cases hr : (m.run.run s).1 with
  | ok a =>
    rw [hr] at hs
    exact h a hs
  | error e =>
    rw [hr] at hs
    exact hs

theorem Sat.and (hm : Sat E m P) (hq : Sat True m Q) : Sat E m fun a => P a ∧ Q a := by
  intro s
  have h₁ := hm s
  have h₂ := hq s
  cases hr : (m.run.run s).1 with
  | ok a =>
    rw [hr] at h₁ h₂
    exact ⟨h₁, h₂⟩
  | error e =>
    rw [hr] at h₁
    exact h₁

theorem Sat.weaken {F : Prop} (hm : Sat E m P) (h : E → F) : Sat F m P := by
  intro s
  have hs := hm s
  cases hr : (m.run.run s).1 with
  | ok a =>
    rw [hr] at hs
    exact hs
  | error e =>
    rw [hr] at hs
    exact h hs

theorem sat_of_forall (h : ∀ a, P a) : Sat True m P := by
  intro s
  cases (m.run.run s).1 with
  | ok a => exact h a
  | error e => trivial

theorem Sat.of_run {s t : σ} (hm : Sat True m P) (h : m.run.run s = (.ok a, t)) : P a := by
  have hs := hm s
  rw [h] at hs
  exact hs

theorem Sat.exists_run (hm : Sat False m P) (s : σ) : ∃ a t, m.run.run s = (.ok a, t) ∧ P a := by
  have hs := hm s
  cases hr : m.run.run s with
  | mk answer t =>
    rw [hr] at hs
    cases answer with
    | ok a => exact ⟨a, t, rfl, hs⟩
    | error e => exact hs.elim

theorem run_bind_ok {s t : σ} {b : β} (h : (m >>= f).run.run s = (.ok b, t)) :
    ∃ a u, m.run.run s = (.ok a, u) ∧ (f a).run.run u = (.ok b, t) := by
  change (m.run >>= ExceptT.bindCont f).run s = (.ok b, t) at h
  rw [StateT.run_bind] at h
  cases hm : m.run.run s with
  | mk answer u =>
    rw [hm] at h
    cases answer with
    | ok a => exact ⟨a, u, rfl, h⟩
    | error e =>
      change ((.error e : Except ε β), u) = (.ok b, t) at h
      exact absurd (congrArg Prod.fst h) (by simp)

theorem exists_run_ok {s : σ} {p : α → Bool} (h : (m.run.run s).1.toOption.any p = true) :
    ∃ a t, m.run.run s = (.ok a, t) ∧ p a = true := by
  cases hm : m.run.run s with
  | mk answer t =>
    rw [hm] at h
    cases answer with
    | ok a => exact ⟨a, t, rfl, h⟩
    | error e => exact absurd h (by simp [Except.toOption])

end Effect

end Kubepeep
