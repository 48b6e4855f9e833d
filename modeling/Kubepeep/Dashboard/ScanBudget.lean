import Kubepeep.Dashboard.Budgets
import Kubepeep.Lib.Broadcast
import Kubepeep.Lib.System

/-!
# The byte budget of a log scan

`logScanByteBudget` (`internal/services/dashboard/logs.go`) is shared by the readers of one scan.  A
reader reserves bytes under the lock, reads from its stream outside of it, and settles: what the
stream did not return goes back to the budget.  A reader that finds nothing to reserve waits for the
next settlement on a channel that every settlement closes and replaces.
-/

open Function Kubepeep.Broadcast Kubepeep.System

namespace Kubepeep.Dashboard.ScanBudget

/-! ## The budget -/

structure ByteBudget where
  remaining : Int
  inFlight : Int
  exhausted : Bool
  doneCloses : Nat
  changed : Channels

def newLogScanByteBudget (maximum : Int) : ByteBudget :=
  ⟨maximum, 0, false, 0, .init⟩

/-- How a pass of `reserve` through the lock ends. -/
inductive Pass where
  | exhausted
  | granted (reserved : Int)
  | wait (channel : Nat)

/-- The locked part of one iteration of `reserve`. -/
def reserve (budget : ByteBudget) (maximum : Int) : ByteBudget × Pass :=
  if budget.exhausted then
    (budget, .exhausted)
  else if budget.remaining > 0 then
    let reserved := if budget.remaining < maximum then budget.remaining else maximum
    ({ budget with
      remaining := budget.remaining - reserved
      inFlight := budget.inFlight + reserved }, .granted reserved)
  else
    (budget, .wait budget.changed.current)

def charged (reserved consumed : Int) : Int :=
  let consumed := if consumed < 0 then 0 else consumed
  if consumed > reserved then reserved else consumed

def complete (budget : ByteBudget) (reserved consumed : Int) : ByteBudget × Bool :=
  let consumed := charged reserved consumed
  let budget := { budget with
    inFlight := budget.inFlight - reserved
    remaining := budget.remaining + (reserved - consumed) }
  if budget.remaining = 0 ∧ budget.inFlight = 0 then
    if !budget.exhausted then
      ({ budget with
        exhausted := true
        doneCloses := budget.doneCloses + 1
        changed := budget.changed.close }, true)
    else
      (budget, true)
  else
    ({ budget with changed := budget.changed.replace }, false)

/-! ## Readers -/

inductive Phase where
  | idle
  /-- About to lock the budget, with the length of its destination. -/
  | entering (want : Int)
  /-- In the `select` of `reserve`, with the channel it took. -/
  | waiting (want : Int) (channel : Nat)
  /-- In `source.Read`, with its reservation. -/
  | reading (reserved : Int)
  deriving DecidableEq

def Phase.held : Phase → Int
  | .reading reserved => reserved
  | _ => 0

structure State (R : Type) where
  budget : ByteBudget
  readers : R → Phase
  canceled : Bool
  /-- All bytes that were charged. -/
  consumed : Int
  /-- All bytes that the readers returned. -/
  delivered : Int

section

variable {R : Type} [DecidableEq R]

def start (maximum : Int) : State R :=
  ⟨newLogScanByteBudget maximum, fun _ => .idle, false, 0, 0⟩

def State.at (state : State R) (r : R) (phase : Phase) : State R :=
  { state with readers := update state.readers r phase }

def Pass.phase (want : Int) : Pass → Phase
  | .exhausted => .idle
  | .granted reserved => .reading reserved
  | .wait channel => .waiting want channel

inductive Action (R : Type) where
  | call (r : R) (want : Int)
  | lock (r : R)
  | wake (r : R)
  | leave (r : R)
  | settle (r : R) (read : Int)
  | cancel

/-- One step of a reader or of the context.  A stream returns between 0 and as many bytes as it was
asked for, as `io.Reader` demands. -/
inductive Step : State R → Action R → State R → Prop
  | call {state : State R} {r : R} {want : Int} (hphase : state.readers r = .idle)
      (hwant : 0 < want) : Step state (.call r want) (state.at r (.entering want))
  | lock {state : State R} {r : R} {want : Int} (hphase : state.readers r = .entering want) :
      Step state (.lock r)
        { state.at r ((reserve state.budget want).2.phase want) with
          budget := (reserve state.budget want).1 }
  | wake {state : State R} {r : R} {want : Int} {channel : Nat}
      (hphase : state.readers r = .waiting want channel)
      (hclosed : state.budget.changed.closes channel ≠ 0) :
      Step state (.wake r) (state.at r (.entering want))
  | leave {state : State R} {r : R} {want : Int} {channel : Nat}
      (hphase : state.readers r = .waiting want channel)
      (hready : state.canceled = true ∨ state.budget.doneCloses ≠ 0) :
      Step state (.leave r) (state.at r .idle)
  | settle {state : State R} {r : R} {reserved read : Int}
      (hphase : state.readers r = .reading reserved) (hread : 0 ≤ read ∧ read ≤ reserved) :
      Step state (.settle r read)
        { state.at r .idle with
          budget := (complete state.budget reserved read).1
          consumed := state.consumed + charged reserved read
          delivered := state.delivered + read }
  | cancel {state : State R} : Step state .cancel { state with canceled := true }

/-- In the `select`, with none of its cases ready. -/
def Blocked (state : State R) (r : R) : Prop :=
  ∃ want channel, state.readers r = .waiting want channel ∧ state.canceled = false ∧
    state.budget.doneCloses = 0 ∧ state.budget.changed.closes channel = 0

/-! ## The accounting -/

def Phase.Positive : Phase → Prop
  | .idle => True
  | .entering want => 0 < want
  | .waiting want _ => 0 < want
  | .reading reserved => 0 < reserved

/-- A waiter holds a channel that existed; while it is open, nothing can be reserved. -/
def Phase.Waits (budget : ByteBudget) : Phase → Prop
  | .waiting _ channel => channel ≤ budget.changed.current ∧
      (budget.changed.closes channel = 0 → budget.remaining = 0)
  | _ => True

structure Balanced [Fintype R] (maximum : Int) (state : State R) : Prop where
  total : state.budget.remaining + state.budget.inFlight + state.consumed = maximum
  remaining : 0 ≤ state.budget.remaining
  inFlight : state.budget.inFlight = ∑ r, (state.readers r).held
  delivered : state.delivered = state.consumed
  positive : ∀ r, (state.readers r).Positive
  exhausted : state.budget.exhausted = true ↔ state.consumed = maximum
  done : state.budget.doneCloses = if state.budget.exhausted then 1 else 0
  valid : state.budget.changed.Valid
  current : state.budget.changed.closes state.budget.changed.current =
    if state.budget.exhausted then 1 else 0
  waits : ∀ r, (state.readers r).Waits state.budget

variable [Fintype R] {maximum : Int} {state next : State R} {r : R} {action : Action R}

omit [DecidableEq R] in
theorem start_balanced (h : 0 < maximum) : Balanced maximum (start (R := R) maximum) where
  total := by
    show maximum + 0 + 0 = maximum
    omega
  remaining := h.le
  inFlight := Finset.sum_const_zero.symm
  delivered := rfl
  positive _ := trivial
  exhausted := by
    show false = true ↔ 0 = maximum
    simp [h.ne]
  done := rfl
  valid := Channels.init_valid
  current := rfl
  waits _ := trivial

theorem Phase.held_nonneg {phase : Phase} (h : phase.Positive) : 0 ≤ phase.held := by
  cases phase with
  | reading reserved => exact le_of_lt h
  | _ => exact le_rfl

omit [DecidableEq R] in
theorem Balanced.inFlight_nonneg (h : Balanced maximum state) : 0 ≤ state.budget.inFlight := by
  rw [h.inFlight]
  exact Finset.sum_nonneg fun r _ => Phase.held_nonneg (h.positive r)

theorem Balanced.move (h : Balanced maximum state) {phase : Phase}
    (hbefore : (state.readers r).held = 0) (hafter : phase.held = 0) (hpositive : phase.Positive)
    (hwaits : phase.Waits state.budget) : Balanced maximum (state.at r phase) where
  total := h.total
  remaining := h.remaining
  inFlight := by
    show state.budget.inFlight = ∑ j, (update state.readers r phase j).held
    rw [sum_update Phase.held, hbefore, hafter, h.inFlight]
    omega
  delivered := h.delivered
  positive := (forall_update_iff state.readers fun _ phase => phase.Positive).mpr
    ⟨hpositive, fun r _ => h.positive r⟩
  exhausted := h.exhausted
  done := h.done
  valid := h.valid
  current := h.current
  waits := (forall_update_iff state.readers fun _ phase =>
    phase.Waits state.budget).mpr ⟨hwaits, fun r _ => h.waits r⟩

theorem Balanced.waits_update (h : Balanced maximum state) {phase : Phase} {budget : ByteBudget}
    (hphase : phase.Waits budget) (hold : ∀ {want channel},
      (Phase.waiting want channel).Waits state.budget → (Phase.waiting want channel).Waits budget)
    (other : R) : (update state.readers r phase other).Waits budget := by
  refine (forall_update_iff state.readers fun _ phase => phase.Waits budget).mpr
    ⟨hphase, fun other _ => ?_⟩ other
  have hother := h.waits other
  cases hreader : state.readers other with
  | waiting => exact hold (hreader ▸ hother)
  | _ => trivial

theorem Balanced.lock (h : Balanced maximum state) {want : Int}
    (hphase : state.readers r = .entering want) :
    Balanced maximum { state.at r ((reserve state.budget want).2.phase want) with
      budget := (reserve state.budget want).1 } := by
  have hwant : 0 < want := by
    have hpositive := h.positive r
    rwa [hphase] at hpositive
  have hheld : (state.readers r).held = 0 := by rw [hphase]; rfl
  unfold reserve
  split
  · exact h.move hheld rfl trivial trivial
  · split
    · next hmore =>
      have htotal := h.total
      -- What is granted is part of what remains.
      generalize hreserved : (if state.budget.remaining < want then state.budget.remaining
        else want) = reserved
      have hpart : 0 < reserved ∧ reserved ≤ state.budget.remaining := by
        split at hreserved <;> omega
      refine ⟨?_, ?_, ?_, h.delivered, ?_, h.exhausted, h.done, h.valid, h.current, ?_⟩
      · show state.budget.remaining - reserved + (state.budget.inFlight + reserved) +
          state.consumed = maximum
        omega
      · show 0 ≤ state.budget.remaining - reserved
        omega
      · show state.budget.inFlight + reserved =
          ∑ j, (update state.readers r (.reading reserved) j).held
        rw [sum_update Phase.held, hheld, h.inFlight]
        show _ = _ - 0 + reserved
        omega
      · exact (forall_update_iff state.readers fun _ phase => phase.Positive).mpr
          ⟨hpart.1, fun r _ => h.positive r⟩
      · exact h.waits_update trivial fun hwaits =>
          ⟨hwaits.1, fun hopen => absurd (hwaits.2 hopen) (by omega)⟩
    · next hnone =>
      have hfree := h.remaining
      exact h.move hheld rfl hwant ⟨le_rfl, fun _ => by omega⟩

theorem Balanced.settle (h : Balanced maximum state) {reserved read : Int}
    (hphase : state.readers r = .reading reserved) (hread : 0 ≤ read ∧ read ≤ reserved) :
    Balanced maximum { state.at r .idle with
      budget := (complete state.budget reserved read).1
      consumed := state.consumed + charged reserved read
      delivered := state.delivered + read } := by
  have hheld : (state.readers r).held = reserved := by rw [hphase]; rfl
  have hreserved : 0 < reserved := by
    have hpositive := h.positive r
    rwa [hphase] at hpositive
  have hinFlight : (state.readers r).held ≤ state.budget.inFlight := by
    rw [h.inFlight]
    exact Finset.single_le_sum (fun r _ => Phase.held_nonneg (h.positive r)) (Finset.mem_univ r)
  have hcharged : charged reserved read = read := by
    unfold charged
    rw [if_neg (not_lt.mpr hread.1), if_neg (not_lt.mpr hread.2)]
  have htotal := h.total
  have hfree := h.remaining
  -- A reservation in flight means that not all is consumed.
  have hopen : state.budget.exhausted = false := by
    rw [← Bool.not_eq_true, h.exhausted]
    omega
  have hsum : state.budget.inFlight - reserved =
      ∑ j, (update state.readers r .idle j).held := by
    rw [sum_update Phase.held, hheld, h.inFlight]
    exact (add_zero _).symm
  have hpositive : ∀ j, (update state.readers r .idle j).Positive :=
    (forall_update_iff state.readers fun _ phase => phase.Positive).mpr
      ⟨trivial, fun r _ => h.positive r⟩
  have hdone : state.budget.doneCloses = 0 := by rw [h.done, hopen]; rfl
  have hcurrent : state.budget.changed.Open := by rw [Channels.Open, h.current, hopen]; rfl
  unfold complete
  rw [hcharged]
  dsimp only
  rw [hopen]
  split
  · next hzero =>
    obtain ⟨hremaining, hnone⟩ := hzero
    refine ⟨?_, hremaining.ge, hsum, ?_, hpositive, ?_, ?_, Channels.close_valid h.valid,
      Channels.close_current hcurrent, ?_⟩
    · show state.budget.remaining + (reserved - read) + (state.budget.inFlight - reserved) +
        (state.consumed + read) = maximum
      omega
    · show state.delivered + read = state.consumed + read
      rw [h.delivered]
    · show true = true ↔ state.consumed + read = maximum
      rw [eq_self, true_iff]
      omega
    · show state.budget.doneCloses + 1 = 1
      rw [hdone]
    · exact h.waits_update trivial fun hwaits => ⟨hwaits.1, fun _ => hremaining⟩
  · next hmore =>
    refine ⟨?_, ?_, hsum, ?_, hpositive, ?_, hdone, Channels.replace_valid h.valid hcurrent,
      (Channels.close_valid h.valid).after _ (Nat.lt_succ_self _), ?_⟩
    · show state.budget.remaining + (reserved - read) + (state.budget.inFlight - reserved) +
        (state.consumed + read) = maximum
      omega
    · show 0 ≤ state.budget.remaining + (reserved - read)
      omega
    · show state.delivered + read = state.consumed + read
      rw [h.delivered]
    · show false = true ↔ state.consumed + read = maximum
      simp only [Bool.false_eq_true, false_iff]
      omega
    · -- Every channel that a waiter can hold is closed now.
      refine h.waits_update trivial fun {_ channel} hwaits => ?_
      have hclosed := (Channels.replace_valid h.valid hcurrent).before channel
        (Nat.lt_succ_of_le hwaits.1)
      exact ⟨Nat.le_succ_of_le hwaits.1,
        fun hzero => absurd (hclosed.symm.trans hzero) one_ne_zero⟩

theorem Balanced.step (h : Balanced maximum state) (hstep : Step state action next) :
    Balanced maximum next := by
  cases hstep with
  | call hphase hwant => exact h.move (by rw [hphase]; rfl) rfl hwant trivial
  | lock hphase => exact h.lock hphase
  | @wake r want channel hphase _ =>
    have hwant := h.positive r
    rw [hphase] at hwant
    exact h.move (by rw [hphase]; rfl) rfl hwant trivial
  | leave hphase _ => exact h.move (by rw [hphase]; rfl) rfl trivial trivial
  | settle hphase hread => exact h.settle hphase hread
  | cancel =>
    exact ⟨h.total, h.remaining, h.inFlight, h.delivered, h.positive, h.exhausted, h.done, h.valid,
      h.current, h.waits⟩

structure Guarantees (maximum : Int) (state : State R) : Prop where
  total : state.budget.remaining + state.budget.inFlight + state.consumed = maximum
  delivered : state.delivered ≤ maximum
  exhausted : state.budget.exhausted = true ↔ state.consumed = maximum
  done : state.budget.doneCloses ≤ 1
  changed : ∀ channel, state.budget.changed.closes channel ≤ 1
  blocked : ∀ r, Blocked state r → state.budget.remaining = 0 ∧ 0 < state.budget.inFlight

omit [DecidableEq R] in
theorem Balanced.blocked (h : Balanced maximum state) (hblocked : Blocked state r) :
    state.budget.remaining = 0 ∧ 0 < state.budget.inFlight := by
  obtain ⟨want, channel, hphase, _, hdone, hopen⟩ := hblocked
  have hwaits := h.waits r
  rw [hphase] at hwaits
  have hremaining := hwaits.2 hopen
  have hexhausted : ¬state.budget.exhausted = true := by
    intro hexhausted
    rw [h.done, if_pos hexhausted] at hdone
    exact one_ne_zero hdone
  have hshort : state.consumed ≠ maximum := fun hall => hexhausted (h.exhausted.mpr hall)
  have hinFlight := h.inFlight_nonneg
  have htotal := h.total
  exact ⟨hremaining, by omega⟩

omit [DecidableEq R] in
theorem Balanced.guarantees (h : Balanced maximum state) : Guarantees maximum state where
  total := h.total
  delivered := by
    have htotal := h.total
    have hremaining := h.remaining
    have hinFlight := h.inFlight_nonneg
    rw [h.delivered]
    omega
  exhausted := h.exhausted
  done := by
    rw [h.done]
    split <;> decide
  changed := by
    apply h.valid.closes_le_one
    rw [h.current]
    split <;> decide
  blocked _ hblocked := h.blocked hblocked

/-- Any number of readers, in any interleaving with each other and with the cancellation of the
scan, keep to the budget. -/
theorem scan_keeps_budget (budget : LogBudget) {actions : List (Action R)}
    (h : Runs Step (start budget.normalized.maxScanBytes) actions state) :
    Guarantees budget.normalized.maxScanBytes state :=
  (h.invariant (I := Balanced budget.normalized.maxScanBytes)
    (start_balanced (orDefault_pos (by decide))) fun hinv => hinv.step).guarantees

end

/-- A budget of four bytes for two readers: the second one waits until the first gives one back. -/
def fourBytes : LogBudget := { DefaultLogBudget with maxScanBytes := 4 }

theorem scan_keeps_four_bytes : ∃ state : State Bool,
    Runs Step (start fourBytes.normalized.maxScanBytes)
      [.call false 4, .lock false, .call true 2, .lock true, .settle false 3, .wake true,
        .lock true, .settle true 1] state ∧
      state.budget.exhausted = true ∧ state.delivered = 4 ∧
      Guarantees fourBytes.normalized.maxScanBytes state := by
  apply runs_with
  apply runs_cons (.call rfl (by decide))
  apply runs_cons (.lock rfl)
  apply runs_cons (.call rfl (by decide))
  apply runs_cons (.lock rfl)
  apply runs_cons (.settle rfl (by decide))
  apply runs_cons (.wake rfl (by decide))
  apply runs_cons (.lock rfl)
  apply runs_cons (.settle rfl (by decide))
  exact ⟨_, .nil _, fun hruns => ⟨rfl, rfl, scan_keeps_budget fourBytes hruns⟩⟩

end Kubepeep.Dashboard.ScanBudget
