import Mathlib

/-!
# Generations

The generation reader of `internal/services/actions`, and the error codes of its services.  The
selection coordinator draws a new identifier for every generation, so a generation that is no longer
current never comes back.
-/

namespace Kubepeep.Actions

inductive ErrorCode where
  | CodeServerShutdown
  | CodeGenerationChanged
  | CodeLimitExceeded
  | CodeInternal
  | CodeNotFound
  | CodeSessionGone
  | CodeExecIdleTimeout
  | CodeExecDurationLimit
  | CodeProtocolViolation
  deriving DecidableEq, Repr

structure Generations where
  current : String
  retired : List String
  fresh : current ∉ retired
  deriving DecidableEq

namespace Generations

variable (generations : Generations)

def seen : List String := generations.current :: generations.retired

def rotate (next : String) (h : next ∉ generations.seen) : Generations where
  current := next
  retired := generations.seen
  fresh := h

/-- No error of `requireCurrent`. -/
def requireCurrent (generation : String) : Bool :=
  generation != "" && generations.current == generation

variable {generations} {generation : String}

theorem eq_of_requireCurrent (h : generations.requireCurrent generation = true) :
    generations.current = generation := by
  rw [requireCurrent, Bool.and_eq_true, beq_iff_eq] at h
  exact h.2

theorem requireCurrent_of_mem_retired (h : generation ∈ generations.retired) :
    generations.requireCurrent generation = false := by
  apply Bool.eq_false_iff.mpr
  intro hcurrent
  exact generations.fresh (eq_of_requireCurrent hcurrent ▸ h)

structure Le (earlier later : Generations) : Prop where
  seen : ∀ generation ∈ earlier.seen, generation ∈ later.seen
  retired : ∀ generation ∈ earlier.retired, generation ∈ later.retired

theorem Le.refl (generations : Generations) : Le generations generations :=
  ⟨fun _ h => h, fun _ h => h⟩

theorem Le.trans {earlier between later : Generations} (h : Le earlier between)
    (hlater : Le between later) : Le earlier later :=
  ⟨fun generation hseen => hlater.seen generation (h.seen generation hseen),
    fun generation hold => hlater.retired generation (h.retired generation hold)⟩

theorem le_rotate (next : String) (h : next ∉ generations.seen) :
    Le generations (generations.rotate next h) :=
  ⟨fun _ hseen => List.mem_cons_of_mem _ hseen, fun _ hold => List.mem_cons_of_mem _ hold⟩

end Generations

/-- The generations that a call of `OnGeneration` or of `Shutdown` has to end. -/
inductive Scope where
  | older (retired : List String) (current : String)
  | all
  deriving DecidableEq, Repr

def Scope.covers : Scope → String → Bool
  | .older retired current, generation => retired.contains generation && generation != current
  | .all, _ => true

end Kubepeep.Actions
