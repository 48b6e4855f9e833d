import Kubepeep.Actions.Idempotency

/-!
# Repeated calls

What the callers of `Do` can rely on over a whole run of the registry: executions of one key do not
overlap, and a repeat gets the result of the execution it repeats.
-/

open Function

namespace Kubepeep.Idempotency

open Kubepeep.System

variable {V E : Type} {ttl : Nat} {canceled : E → Bool} {request : Nat → Request}
  {registry : Registry V E}

def Action.subject : Action V E → Option Nat
  | .advance _ | .cancel _ => none
  | .start id | .wake id | .giveUp id | .complete id _ _ | .panic id | .finish id => some id

def Registry.Same (registry next : Registry V E) (a : Nat) : Prop :=
  next.call a = registry.call a ∧ next.entry a = registry.entry a

theorem Registry.Same.trans {middle next : Registry V E} {a : Nat} (h : registry.Same middle a)
    (h' : middle.Same next a) : registry.Same next a :=
  ⟨h'.1.trans h.1, h'.2.trans h.2⟩

theorem Registry.enter_of_ne [Inhabited V] {id a : Nat} (request : Request) (h : a ≠ id) :
    registry.Same (registry.enter ttl id request) a := by
  unfold Registry.enter
  dsimp only
  split
  · split <;> exact ⟨update_of_ne h .., rfl⟩
  · split
    · exact ⟨update_of_ne h .., rfl⟩
    · exact ⟨update_of_ne h .., update_of_ne h ..⟩

section Runs

variable [Inhabited V] {next final : Registry V E} {action : Action V E}
  {actions later : List (Action V E)} {a b : Nat}

theorem Step.frame (hstep : Step ttl canceled request registry action next)
    (ha : action.subject ≠ some a) : registry.Same next a := by
  have hne : ∀ {id}, some id ≠ some a → a ≠ id := fun h heq => h (congrArg some heq.symm)
  cases hstep with
  | advance duration => exact ⟨rfl, rfl⟩
  | cancel id => exact ⟨rfl, rfl⟩
  | start hidle => exact Registry.enter_of_ne _ (hne ha)
  | wake hphase hdone => exact ⟨update_of_ne (hne ha) .., rfl⟩
  | giveUp hphase hcanceled => exact ⟨update_of_ne (hne ha) .., rfl⟩
  | complete value err hphase => exact ⟨update_of_ne (hne ha) .., rfl⟩
  | panic hphase => exact ⟨update_of_ne (hne ha) .., rfl⟩
  | finish hphase =>
    exact ⟨update_of_ne (hne ha) .., update_of_ne (hne ha) ..⟩

variable {err : Option (DoError E)} {existing : Option Nat} {replayed : Bool}

theorem Step.of_returned (hstep : Step ttl canceled request registry action next) {value : V}
    (hcall : registry.call a = .returned existing value replayed err) :
    registry.Same next a := by
  apply hstep.frame
  intro hsubject
  cases hstep <;> cases hsubject <;> simp_all

theorem runs_of_returned (hruns : Runs (Step ttl canceled request) registry actions final)
    {value : V}
    (hcall : registry.call a = .returned existing value replayed err) :
    registry.Same final a := by
  apply hruns.invariant (I := fun final => registry.Same final a) ⟨rfl, rfl⟩
  intro middle action next hsame hstep
  exact hsame.trans (hstep.of_returned (hsame.1.trans hcall))

/-- A call that waits for `a` goes on waiting for it or returns. -/
def Registry.JoinedTo (registry : Registry V E) (a b : Nat) : Prop :=
  registry.call b = .waiting a ∨ ∃ value err, registry.call b = .returned (some a) value true err

theorem Step.joinedTo (hstep : Step ttl canceled request registry action next)
    (h : registry.JoinedTo a b) : next.JoinedTo a b := by
  rcases h with hwaiting | ⟨value, err, hreturned⟩
  · by_cases hb : action.subject = some b
    · cases hstep with
      | advance duration => cases hb
      | cancel id => cases hb
      | wake hphase hdone =>
        cases hb
        cases hwaiting.symm.trans hphase
        exact .inr ⟨_, _, Registry.setCall_self ..⟩
      | giveUp hphase hcanceled =>
        cases hb
        cases hwaiting.symm.trans hphase
        exact .inr ⟨_, _, Registry.setCall_self ..⟩
      | start hphase | complete _ _ hphase | panic hphase | finish hphase =>
        cases hb
        cases hwaiting.symm.trans hphase
    · exact .inl ((hstep.frame hb).1.trans hwaiting)
  · exact .inr ⟨value, err, (hstep.of_returned hreturned).1.trans hreturned⟩

/-- Panicking executions end with an error and with a finished entry. -/
def Registry.Panicked (registry : Registry V E) (a : Nat) : Prop :=
  registry.call a = .finishing default (some .CodeInternal) ∨
    (registry.call a = .returned none default false (some .CodeInternal) ∧
      (registry.entry a).done = true ∧ (registry.entry a).err = some .CodeInternal)

theorem Step.panicked (hstep : Step ttl canceled request registry action next)
    (h : registry.Panicked a) : next.Panicked a := by
  rcases h with hfinishing | ⟨hreturned, hentry⟩
  · by_cases ha : action.subject = some a
    · cases hstep with
      | advance duration => cases ha
      | cancel id => cases ha
      | finish hphase =>
        cases ha
        cases hfinishing.symm.trans hphase
        refine .inr ⟨update_self .., ?_⟩
        show (update registry.entry _ _ _).done = true ∧
          (update registry.entry _ _ _).err = _
        rw [update_self]
        exact ⟨rfl, rfl⟩
      | start hphase | wake hphase | giveUp hphase | complete _ _ hphase | panic hphase =>
        cases ha
        cases hfinishing.symm.trans hphase
    · exact .inl ((hstep.frame ha).1.trans hfinishing)
  · have hsame := hstep.of_returned hreturned
    exact .inr ⟨hsame.1.trans hreturned, by rw [hsame.2]; exact hentry⟩

theorem runs_panicked (hruns : Runs (Step ttl canceled request) registry actions final)
    (h : .panic a ∈ actions) : final.Panicked a := by
  refine hruns.history (I := fun actions final => .panic a ∈ actions → final.Panicked a) nofun ?_ h
  intro before middle action next ih hstep hmem
  rcases List.mem_append.mp hmem with hmem | hmem
  · exact hstep.panicked (ih hmem)
  · cases List.mem_singleton.mp hmem
    cases hstep
    exact .inl (Registry.setCall_self ..)

theorem Inv.start_held (h : Inv ttl canceled request registry)
    (hstep : Step ttl canceled request registry (.start b) next)
    (hheld : (registry.call a).isRunning = true ∨ registry.Fresh ttl canceled a)
    (hkey : (request b).key = (request a).key) :
    next.call b = if (request b).identity = (request a).identity then .waiting a
      else .returned none default false (some .CodeIdempotencyConflict) := by
  have hpruned := h.pruneLocked
  have hrow : (registry.pruneLocked ttl).entries.lookup (request b).key = some a := by
    rw [hkey]
    rcases hheld with hrunning | hfresh
    · exact (hpruned.running hrunning).1
    · exact hpruned.fresh ⟨hfresh.done, hfresh.kept, hfresh.now⟩
  have hidentity := hpruned.identity (hpruned.row hrow).2
  cases hstep
  unfold Registry.enter
  dsimp only
  rw [hrow]
  dsimp only
  rw [hidentity]
  by_cases hsame : (request b).identity = (request a).identity
  · rw [if_pos hsame, if_neg (by rw [hsame]; exact fun hne => hne rfl), Registry.setCall_self]
  · rw [if_neg hsame, if_pos (Ne.symm hsame), Registry.setCall_self]

structure Guarantees (ttl : Nat) (canceled : E → Bool) (request : Nat → Request)
    (actions : List (Action V E)) (registry : Registry V E) : Prop where
  /-- Executions of one key do not overlap. -/
  exclusive : ∀ {a b}, (registry.call a).isRunning = true → (registry.call b).isRunning = true →
    (request a).key = (request b).key → a = b
  /-- No execution runs while the result of another one of its key is fresh. -/
  fresh : ∀ {a b}, registry.Fresh ttl canceled a → (registry.call b).isRunning = true →
    (request a).key ≠ (request b).key
  /-- A repeat with the same identity waits for the execution and returns its value and error,
  unless the context of the repeat is done. -/
  repeats : ∀ {a b next later final},
    (registry.call a).isRunning = true ∨ registry.Fresh ttl canceled a →
    request b = request a → Step ttl canceled request registry (.start b) next →
    Runs (Step ttl canceled request) next later final →
      (final.call b = .waiting a ∧ ((final.entry a).done = true →
        ∃ last, Step ttl canceled request final (.wake b) last)) ∨
      ∃ value err, final.call b = .returned (some a) value true err ∧ final.Replays a b value err
  /-- A result does not change. -/
  result : ∀ {a later final}, (registry.entry a).done = true →
    Runs (Step ttl canceled request) registry later final → final.entry a = registry.entry a
  /-- A repeat with another identity gets a conflict and nothing else. -/
  conflicts : ∀ {a b next later final},
    (registry.call a).isRunning = true ∨ registry.Fresh ttl canceled a →
    (request b).key = (request a).key → (request b).identity ≠ (request a).identity →
    Step ttl canceled request registry (.start b) next →
    Runs (Step ttl canceled request) next later final →
      final.call b = .returned none default false (some .CodeIdempotencyConflict)
  size : registry.entries.size ≤ maximumIdempotencyEntries
  /-- A panic ends the entry with an error, and whoever has joined it gets an error. -/
  panicked : ∀ {a}, .panic a ∈ actions → registry.Panicked a ∧
    ∀ {b value replayed err}, registry.call b = .returned (some a) value replayed err →
      err.isSome = true

/-- Every interleaving of calls, of the clock and of the callers' contexts. -/
theorem do_guarantees (hnew : registry.New)
    (hruns : Runs (Step ttl canceled request) registry actions final) :
    Guarantees ttl canceled request actions final := by
  have hinv : Inv ttl canceled request final := hruns.invariant hnew.inv fun h hstep => hstep.inv h
  refine ⟨?_, ?_, ?_, ?_, ?_, hinv.size, ?_⟩
  · intro a b ha hb hkey
    have hrow := (hinv.running ha).1
    rw [hkey] at hrow
    exact Option.some.inj (hrow.symm.trans (hinv.running hb).1)
  · intro a b hfresh hb hkey
    have hrow := hinv.fresh hfresh
    rw [hkey] at hrow
    have heq : a = b := Option.some.inj (hrow.symm.trans (hinv.running hb).1)
    subst heq
    exact Bool.false_ne_true ((hinv.running hb).2.1.symm.trans hfresh.done)
  · intro a b next later last hheld hrequest hstep hlater
    have hcall := hinv.start_held hstep hheld (congrArg Request.key hrequest)
    rw [if_pos (congrArg Request.identity hrequest)] at hcall
    have hlast : Inv ttl canceled request last :=
      hlater.invariant (hstep.inv hinv) fun h hstep => hstep.inv h
    have hjoined : last.JoinedTo a b :=
      hlater.invariant (I := fun last => last.JoinedTo a b) (.inl hcall)
        fun h hstep => hstep.joinedTo h
    rcases hjoined with hwaiting | ⟨value, err, hreturned⟩
    · exact .inl ⟨hwaiting, fun hdone => ⟨_, .wake hwaiting hdone⟩⟩
    · exact .inr ⟨value, err, hreturned, (hlast.result hreturned).2⟩
  · intro a later last hdone hlater
    exact (runs_of_returned hlater (hinv.done hdone)).2
  · intro a b next later last hheld hkey hidentity hstep hlater
    have hcall := hinv.start_held hstep hheld hkey
    rw [if_neg hidentity] at hcall
    rw [(runs_of_returned hlater hcall).1, hcall]
  · intro a ha
    have hpanicked := runs_panicked hruns ha
    refine ⟨hpanicked, ?_⟩
    intro b value replayed err hb
    rcases (hinv.result hb).2 with ⟨hdone, _, herr⟩ | ⟨_, herr⟩
    · rcases hpanicked with hfinishing | ⟨_, _, hentry⟩
      · -- an entry that is done belongs to a call that has returned
        have hcall := hinv.done hdone
        rw [hfinishing] at hcall
        cases hcall
      · rw [herr, hentry]
        rfl
    · rw [herr]
      rfl

end Runs

/-! ## Contexts of other callers

`execute` runs under the context of the caller that made the entry.  `ended` are the errors with
which it reports the end of that context. -/

def DoError.ofContext (ended : E → Bool) : DoError E → Bool
  | .context => true
  | .executed err => ended err
  | _ => false

/-- A call that executed returns an error of a context only if its own context is done. -/
def Registry.OwnContexts (ended : E → Bool) (registry : Registry V E) : Prop :=
  ∀ a value replayed err, registry.call a = .returned none value replayed err →
    err.any (·.ofContext ended) = true → registry.canceled a = true

/-- A call whose own context is not done returns an error of a context exactly if it has joined an
execution that ended with one, because the context of its caller is done. -/
theorem do_foreign_context_iff [Inhabited V] {final : Registry V E} {actions : List (Action V E)}
    {ended : E → Bool} (hnew : registry.New)
    (hruns : Runs (Step ttl canceled request) registry actions final)
    (hown : final.OwnContexts ended) {b : Nat} {existing : Option Nat} {value : V}
    {replayed : Bool} {err : Option (DoError E)}
    (hcall : final.call b = .returned existing value replayed err)
    (hlive : final.canceled b = false) :
    err.any (·.ofContext ended) = true ↔ ∃ a, existing = some a ∧ final.canceled a = true ∧
      (final.entry a).err.any (·.ofContext ended) = true := by
  have hinv : Inv ttl canceled request final := hruns.invariant hnew.inv fun h hstep => hstep.inv h
  cases existing with
  | none =>
    constructor
    · intro hany
      cases hlive.symm.trans (hown b _ _ _ hcall hany)
    · rintro ⟨a, ha, _⟩
      cases ha
  | some a =>
    rcases (hinv.result hcall).2 with ⟨hdone, _, rfl⟩ | ⟨hgone, _⟩
    · constructor
      · intro hany
        exact ⟨a, rfl, hown a _ _ _ (hinv.done hdone) hany, hany⟩
      · rintro ⟨_, ha, _, hany⟩
        cases ha
        exact hany
    · cases hlive.symm.trans hgone

/-! ## Two runs -/

def restartIdentity : IdempotencyIdentity := ⟨"POST", "/restart", 1, "g1", "hash"⟩

def restartRequest (_ : Nat) : Request := ⟨"key", restartIdentity⟩

def emptyRegistry : Registry Nat String where
  now := 1
  entries := ∅
  entry _ := ⟨restartIdentity, false, 0, none, 0⟩
  call _ := .idle
  canceled _ := false

theorem emptyRegistry_new : emptyRegistry.New :=
  ⟨rfl, fun _ => rfl, fun _ => rfl⟩

/-- A call joins an execution that panics, and a third call repeats it. -/
theorem do_guarantees_panic : ∃ final, Runs (Step 5 (fun _ => false) restartRequest) emptyRegistry
      [.start 0, .start 1, .panic 0, .finish 0, .wake 1, .advance 4, .start 2] final ∧
    Guarantees 5 (fun _ => false) restartRequest
      [.start 0, .start 1, .panic 0, .finish 0, .wake 1, .advance 4, .start 2] final ∧
    final.call 1 = .returned (some 0) 0 true (some .CodeInternal) ∧ final.call 2 = .waiting 0 := by
  apply runs_with
  apply runs_cons (.start rfl)
  apply runs_cons (.start rfl)
  apply runs_cons (.panic rfl)
  apply runs_cons (.finish rfl)
  apply runs_cons (.wake rfl rfl)
  apply runs_cons (.advance 4)
  apply runs_cons (.start rfl)
  exact ⟨_, .nil _, fun hruns => ⟨do_guarantees emptyRegistry_new hruns, rfl, rfl⟩⟩

/-- A repeat whose context is done can return the error of its context although the execution has
ended with a value that is still fresh. -/
theorem canceled_repeat : ∃ final, Runs (Step 5 (fun _ => false) restartRequest) emptyRegistry
      [.start 0, .complete 0 7 none, .finish 0, .start 1, .cancel 1, .giveUp 1] final ∧
    final.Fresh 5 (fun _ => false) 0 ∧ final.call 0 = .returned none 7 false none ∧
    final.call 1 = .returned (some 0) 0 true (some .context) := by
  apply runs_cons (.start rfl)
  apply runs_cons (.complete 7 none rfl)
  apply runs_cons (.finish rfl)
  apply runs_cons (.start rfl)
  apply runs_cons (.cancel 1)
  apply runs_cons (.giveUp rfl rfl)
  exact ⟨_, .nil _, ⟨rfl, rfl, by decide⟩, rfl, rfl⟩

/-- Two callers share an execution, and the context of the one that made it ends. -/
def sharedActions : List (Action Nat String) :=
  [.start 0, .start 1, .cancel 0, .complete 0 0 (some "canceled"), .finish 0, .wake 1]

theorem runs_shared : ∃ final,
    Runs (Step 5 (· == "canceled") restartRequest) emptyRegistry sharedActions final ∧
    final.OwnContexts (· == "canceled") ∧ final.canceled 1 = false ∧
    final.call 1 = .returned (some 0) 0 true (some (.executed "canceled")) := by
  apply runs_cons (.start rfl)
  apply runs_cons (.start rfl)
  apply runs_cons (.cancel 0)
  apply runs_cons (.complete 0 _ rfl)
  apply runs_cons (.finish rfl)
  apply runs_cons (.wake rfl rfl)
  refine ⟨_, .nil _, ?_, rfl, rfl⟩
  rintro (_ | _ | a) value replayed err hcall _
  · rfl
  · cases hcall
  · cases hcall

theorem do_foreign_context_shared : ∃ final,
    Runs (Step 5 (· == "canceled") restartRequest) emptyRegistry sharedActions final ∧
    ∃ a, some 0 = some a ∧ final.canceled a = true ∧
      (final.entry a).err.any (·.ofContext (· == "canceled")) = true := by
  obtain ⟨final, hruns, hown, hlive, hcall⟩ := runs_shared
  exact ⟨final, hruns, (do_foreign_context_iff emptyRegistry_new hruns hown hcall hlive).mp rfl⟩

/-- The one whose context is not done returns the error of the other's context. -/
theorem canceled_execution_shared : ∃ final err,
    Runs (Step 5 (· == "canceled") restartRequest) emptyRegistry sharedActions final ∧
    final.canceled 1 = false ∧ final.call 1 = .returned (some 0) 0 true (some err) ∧
    err.ofContext (· == "canceled") = true := by
  obtain ⟨final, hruns, _, hlive, hcall⟩ := runs_shared
  exact ⟨final, _, hruns, hlive, hcall, rfl⟩

end Kubepeep.Idempotency
