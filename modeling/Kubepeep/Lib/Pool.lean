import Kubepeep.Lib.System

/-!
# A pool of workers over a list of jobs

A producer hands the jobs `0, …, jobs - 1` in order to the workers of a pool.  A signal (the end of
a context, a result that ends the work) makes the producer close the channel early and lets workers
stop, or drop the job they hold.  If no signal was given, every job is finished once all workers
have stopped; a job is never finished twice.
-/

open Nat List Function Kubepeep.System

namespace Kubepeep.Pool

inductive Phase where
  | ready
  | busy (job : Nat)
  | stopped
  deriving DecidableEq

structure State (W R Sig : Type) where
  next : Nat
  closed : Bool
  workers : W → Phase
  finished : List (Nat × R)
  signals : Sig → Bool

/-- What a pool works on: its jobs, the results a job can have, the signal that a result gives
(its worker then stops), the signals that come from outside, and whether a worker may drop a job. -/
structure Rules (R Sig : Type) where
  jobs : Nat
  outcome : Nat → R → Prop
  after : R → Option Sig
  external : Sig → Prop
  drops : Prop

variable {W R Sig : Type} [DecidableEq W] [DecidableEq Sig]

def start : State W R Sig := ⟨0, false, fun _ => .ready, [], fun _ => false⟩

def State.Signalled (state : State W R Sig) : Prop := ∃ signal, state.signals signal = true

inductive Action (W R Sig : Type) where
  | take (w : W)
  | close
  | finish (w : W) (result : R)
  | drop (w : W)
  | stop (w : W)
  | signal (signal : Sig)

def raise (signals : Sig → Bool) : Option Sig → Sig → Bool
  | none => signals
  | some signal => update signals signal true

def Phase.afterResult : Option Sig → Phase
  | none => .ready
  | some _ => .stopped

inductive Step (rules : Rules R Sig) : State W R Sig → Action W R Sig → State W R Sig → Prop
  | take {state : State W R Sig} {w : W} (hphase : state.workers w = .ready)
      (hopen : state.closed = false) (hnext : state.next < rules.jobs) :
      Step rules state (.take w)
        { state with
          next := state.next + 1
          workers := update state.workers w (.busy state.next) }
  | close {state : State W R Sig} (hend : state.next = rules.jobs ∨ state.Signalled) :
      Step rules state .close { state with closed := true }
  | finish {state : State W R Sig} {w : W} {job : Nat} {result : R}
      (hphase : state.workers w = .busy job) (hresult : rules.outcome job result) :
      Step rules state (.finish w result)
        { state with
          workers := update state.workers w (.afterResult (rules.after result))
          finished := state.finished ++ [(job, result)]
          signals := raise state.signals (rules.after result) }
  | drop {state : State W R Sig} {w : W} {job : Nat} (hdrops : rules.drops)
      (hphase : state.workers w = .busy job) (hsignal : state.Signalled) :
      Step rules state (.drop w)
        { state with workers := update state.workers w .stopped }
  | stop {state : State W R Sig} {w : W} (hphase : state.workers w = .ready)
      (hend : state.closed = true ∨ state.Signalled) :
      Step rules state (.stop w)
        { state with workers := update state.workers w .stopped }
  | signal {state : State W R Sig} {signal : Sig} (hsignal : rules.external signal) :
      Step rules state (.signal signal)
        { state with signals := update state.signals signal true }

/-! ## What is finished -/

structure Inv (rules : Rules R Sig) (state : State W R Sig) : Prop where
  next : state.next ≤ rules.jobs
  closed : state.closed = true → state.next = rules.jobs ∨ state.Signalled
  stopped : ∀ w, state.workers w = .stopped → state.closed = true ∨ state.Signalled
  busy : ∀ w job, state.workers w = .busy job →
    job < state.next ∧ job ∉ state.finished.map Prod.fst
  alone : ∀ w w' job, state.workers w = .busy job → state.workers w' = .busy job → w = w'
  nodup : (state.finished.map Prod.fst).Nodup
  finished : ∀ entry ∈ state.finished, entry.1 < state.next ∧ rules.outcome entry.1 entry.2
  taken : ∀ job < state.next, job ∈ state.finished.map Prod.fst ∨
    (∃ w, state.workers w = .busy job) ∨ state.Signalled
  raised : ∀ signal, state.signals signal = true → rules.external signal ∨
    ∃ entry ∈ state.finished, rules.after entry.2 = some signal

variable {rules : Rules R Sig} {state next : State W R Sig} {action : Action W R Sig}

omit [DecidableEq W] [DecidableEq Sig] in
theorem start_inv : Inv rules (start : State W R Sig) where
  next := zero_le _
  closed h := absurd h Bool.false_ne_true
  stopped _ h := absurd h (by simp [start])
  busy _ _ h := absurd h (by simp [start])
  alone _ _ _ h := absurd h (by simp [start])
  nodup := nodup_nil
  finished _ h := absurd h not_mem_nil
  taken _ h := absurd h (not_lt_zero _)
  raised _ h := absurd h Bool.false_ne_true

omit [DecidableEq W] in
theorem raise_of_true {signals : Sig → Bool} {raised : Option Sig} {signal : Sig}
    (h : signals signal = true) : raise signals raised signal = true := by
  cases raised with
  | none => exact h
  | some other =>
    by_cases hsame : signal = other
    · subst hsame
      exact update_self _ _ _
    · exact (update_of_ne hsame _ _).trans h

omit [DecidableEq Sig] in
theorem busy_update {workers : W → Phase} {w w' : W} {phase : Phase} {job : Nat}
    (hphase : ∀ job, phase ≠ .busy job) (h : update workers w phase w' = .busy job) :
    w' ≠ w ∧ workers w' = .busy job := by
  rcases update_cases workers (· = .busy job) h with ⟨_, hbusy⟩ | hother
  · exact absurd hbusy (hphase job)
  · exact hother

omit [DecidableEq Sig] in
theorem Inv.leave (h : Inv rules state) {w : W} (hend : state.closed = true ∨ state.Signalled)
    (hjob : ∀ job, state.workers w = .busy job → state.Signalled) :
    Inv rules { state with workers := update state.workers w .stopped } where
  next := h.next
  closed := h.closed
  stopped w' hw' := by
    rcases update_cases state.workers (· = .stopped) hw' with _ | ⟨_, hother⟩
    · exact hend
    · exact h.stopped w' hother
  busy w' job hw' := h.busy w' job (busy_update (by simp) hw').2
  alone w₁ w₂ job h₁ h₂ := h.alone w₁ w₂ job (busy_update (by simp) h₁).2
    (busy_update (by simp) h₂).2
  nodup := h.nodup
  finished := h.finished
  taken job hjob' := by
    rcases h.taken job hjob' with hdone | ⟨w', hw'⟩ | hsignal
    · exact .inl hdone
    · by_cases hsame : w' = w
      · exact .inr (.inr (hjob job (hsame ▸ hw')))
      · exact .inr (.inl ⟨w', (update_of_ne hsame _ _).trans hw'⟩)
    · exact .inr (.inr hsignal)
  raised := h.raised

omit [DecidableEq Sig] in
theorem Inv.take (h : Inv rules state) {w : W} (hphase : state.workers w = .ready)
    (hopen : state.closed = false) (hnext : state.next < rules.jobs) :
    Inv rules { state with
      next := state.next + 1
      workers := update state.workers w (.busy state.next) } where
  next := hnext
  closed hclosed := absurd (hopen.symm.trans hclosed) Bool.false_ne_true
  stopped w' hw' := by
    rcases update_cases state.workers (· = .stopped) hw' with ⟨_, hbusy⟩ | ⟨_, hother⟩
    · cases hbusy
    · exact h.stopped w' hother
  busy w' job hw' := by
    rcases update_cases state.workers (· = .busy job) hw' with ⟨_, hbusy⟩ | ⟨_, hother⟩
    · obtain rfl := Phase.busy.inj hbusy
      refine ⟨Nat.lt_succ_self _, fun hmem => ?_⟩
      obtain ⟨entry, hentry, heq⟩ := mem_map.mp hmem
      exact absurd (h.finished entry hentry).1 (by omega)
    · obtain ⟨hlt, hnew⟩ := h.busy w' job hother
      exact ⟨Nat.lt_succ_of_lt hlt, hnew⟩
  alone w₁ w₂ job h₁ h₂ := by
    -- The new job is not one that another worker holds.
    rcases update_cases state.workers (· = .busy job) h₁ with ⟨rfl, hnew₁⟩ | ⟨_, hold₁⟩
    · rcases update_cases state.workers (· = .busy job) h₂ with ⟨rfl, _⟩ | ⟨_, hold₂⟩
      · rfl
      · obtain rfl := Phase.busy.inj hnew₁
        exact absurd (h.busy w₂ _ hold₂).1 (Nat.lt_irrefl _)
    · rcases update_cases state.workers (· = .busy job) h₂ with ⟨rfl, hnew₂⟩ | ⟨_, hold₂⟩
      · obtain rfl := Phase.busy.inj hnew₂
        exact absurd (h.busy w₁ _ hold₁).1 (Nat.lt_irrefl _)
      · exact h.alone w₁ w₂ job hold₁ hold₂
  nodup := h.nodup
  finished entry hentry := by
    obtain ⟨hlt, houtcome⟩ := h.finished entry hentry
    exact ⟨Nat.lt_succ_of_lt hlt, houtcome⟩
  taken job hjob := by
    rcases Nat.lt_succ_iff_lt_or_eq.mp hjob with hlt | rfl
    · rcases h.taken job hlt with hdone | ⟨w', hw'⟩ | hsignal
      · exact .inl hdone
      · have hother : w' ≠ w := fun hsame => by
          rw [hsame, hphase] at hw'
          cases hw'
        exact .inr (.inl ⟨w', (update_of_ne hother _ _).trans hw'⟩)
      · exact .inr (.inr hsignal)
    · exact .inr (.inl ⟨w, update_self _ _ _⟩)
  raised := h.raised

theorem Inv.finish (h : Inv rules state) {w : W} {job : Nat} {result : R}
    (hphase : state.workers w = .busy job) (hresult : rules.outcome job result) :
    Inv rules { state with
      workers := update state.workers w (.afterResult (rules.after result))
      finished := state.finished ++ [(job, result)]
      signals := raise state.signals (rules.after result) } := by
  obtain ⟨hlt, hnew⟩ := h.busy w job hphase
  have hkeeps : state.Signalled →
      ∃ signal, raise state.signals (rules.after result) signal = true :=
    fun ⟨signal, hsignal⟩ => ⟨signal, raise_of_true hsignal⟩
  have hidle : ∀ job, Phase.afterResult (rules.after result) ≠ .busy job := by
    intro job
    cases rules.after result <;> simp [Phase.afterResult]
  constructor
  case next => exact h.next
  case closed => exact fun hclosed => (h.closed hclosed).imp_right hkeeps
  case stopped =>
    intro w' hw'
    rcases update_cases state.workers (· = .stopped) hw' with ⟨_, hstopped⟩ | ⟨_, hother⟩
    · -- A worker stops after a result that gives a signal.
      cases hafter : rules.after result with
      | none =>
        rw [hafter] at hstopped
        exact absurd hstopped (by simp [Phase.afterResult])
      | some signal => exact .inr ⟨signal, update_self _ _ _⟩
    · exact (h.stopped w' hother).imp_right hkeeps
  case busy =>
    intro w' job' hw'
    obtain ⟨hne, hbusy⟩ := busy_update hidle hw'
    obtain ⟨hlt', hnew'⟩ := h.busy w' job' hbusy
    refine ⟨hlt', fun hmem => ?_⟩
    rw [map_append, mem_append] at hmem
    rcases hmem with hold | hthis
    · exact hnew' hold
    · obtain rfl : job' = job := by simpa using hthis
      exact hne (h.alone w' w _ hbusy hphase)
  case alone =>
    intro w₁ w₂ job' h₁ h₂
    exact h.alone w₁ w₂ job' (busy_update hidle h₁).2 (busy_update hidle h₂).2
  case nodup =>
    rw [map_append]
    exact h.nodup.append (nodup_singleton job) (by simpa using hnew)
  case finished =>
    intro entry hentry
    rcases mem_append.mp hentry with hold | hthis
    · exact h.finished entry hold
    · obtain rfl := mem_singleton.mp hthis
      exact ⟨hlt, hresult⟩
  case taken =>
    intro job' hjob'
    rw [map_append, mem_append]
    rcases h.taken job' hjob' with hdone | ⟨w', hw'⟩ | hsignal
    · exact .inl (.inl hdone)
    · by_cases hsame : w' = w
      · rw [hsame, hphase] at hw'
        obtain rfl := Phase.busy.inj hw'
        exact .inl (.inr (by simp))
      · exact .inr (.inl ⟨w', (update_of_ne hsame _ _).trans hw'⟩)
    · exact .inr (.inr (hkeeps hsignal))
  case raised =>
    intro signal hsignal
    have hcases : state.signals signal = true ∨ rules.after result = some signal := by
      cases hafter : rules.after result with
      | none =>
        rw [hafter] at hsignal
        exact .inl hsignal
      | some other =>
        rw [hafter] at hsignal
        rcases update_cases state.signals (· = true) hsignal with ⟨rfl, _⟩ | ⟨_, hold⟩
        · exact .inr rfl
        · exact .inl hold
    rcases hcases with hold | hnow
    · rcases h.raised signal hold with hexternal | ⟨entry, hentry, hafter⟩
      · exact .inl hexternal
      · exact .inr ⟨entry, mem_append_left _ hentry, hafter⟩
    · exact .inr ⟨(job, result), mem_append_right _ (by simp), hnow⟩

theorem Inv.step (h : Inv rules state) (hstep : Step rules state action next) :
    Inv rules next := by
  cases hstep with
  | take hphase hopen hnext => exact h.take hphase hopen hnext
  | close hend =>
    exact ⟨h.next, fun _ => hend, fun _ _ => .inl rfl, h.busy, h.alone, h.nodup, h.finished,
      h.taken, h.raised⟩
  | finish hphase hresult => exact h.finish hphase hresult
  | drop _ hphase hsignal => exact h.leave (.inr hsignal) fun _ _ => hsignal
  | stop hphase hend =>
    exact h.leave hend fun job hbusy => absurd (hphase.symm.trans hbusy) (by simp)
  | @signal signal hsignal =>
    have hkeeps : ∀ other, state.signals other = true →
        update state.signals signal true other = true := fun _ hother =>
      @raise_of_true Sig _ state.signals (some signal) _ hother
    have hkept : state.Signalled →
        ∃ other, update state.signals signal true other = true :=
      fun ⟨other, hother⟩ => ⟨other, hkeeps other hother⟩
    refine ⟨h.next, fun hclosed => (h.closed hclosed).imp_right hkept,
      fun w hw => (h.stopped w hw).imp_right hkept, h.busy, h.alone, h.nodup, h.finished,
      fun job hjob => (h.taken job hjob).imp_right fun hmore => hmore.imp_right hkept, ?_⟩
    intro other hother
    rcases update_cases state.signals (· = true) hother with ⟨rfl, _⟩ | ⟨_, hold⟩
    · exact .inl hsignal
    · exact h.raised other hold

theorem inv_of_runs {actions : List (Action W R Sig)} (h : Runs (Step rules) start actions state) :
    Inv rules state :=
  h.invariant start_inv fun hinv hstep => hinv.step hstep

omit [DecidableEq W] [DecidableEq Sig] in
theorem Inv.all_finished (h : Inv rules state) (hsome : rules.jobs ≠ 0 → Nonempty W)
    (hstopped : ∀ w, state.workers w = .stopped) (hquiet : ¬state.Signalled) :
    ∀ job < rules.jobs, job ∈ state.finished.map Prod.fst := by
  intro job hjob
  obtain ⟨w⟩ := hsome (by omega)
  have hclosed := (h.stopped w (hstopped w)).resolve_right hquiet
  have hnext := (h.closed hclosed).resolve_right hquiet
  rcases h.taken job (by omega) with hdone | ⟨w', hw'⟩ | hsignal
  · exact hdone
  · exact absurd ((hstopped w').symm.trans hw') (by simp)
  · exact absurd hsignal hquiet

omit [DecidableEq W] [DecidableEq Sig] in
theorem Inv.finished_perm (h : Inv rules state) (hcount : rules.jobs ≤ state.finished.length) :
    (state.finished.map Prod.fst).Perm (range rules.jobs) := by
  have hsub : state.finished.map Prod.fst ⊆ range rules.jobs := by
    intro job hjob
    obtain ⟨entry, hentry, rfl⟩ := mem_map.mp hjob
    exact mem_range.mpr ((h.finished entry hentry).1.trans_le h.next)
  apply (subperm_of_subset h.nodup hsub).perm_of_length_le
  rw [length_range, length_map]
  exact hcount

theorem jobs_le_length {jobs : Nat} {finished : List (Nat × R)}
    (hall : ∀ job < jobs, job ∈ finished.map Prod.fst) : jobs ≤ finished.length := by
  have hsub : range jobs ⊆ finished.map Prod.fst := fun job hjob =>
    hall job (mem_range.mp hjob)
  have hle := (subperm_of_subset nodup_range hsub).length_le
  rwa [length_range, length_map] at hle

end Kubepeep.Pool
