import Kubepeep.Lib.System
import Kubepeep.Lib.Table

/-!
# Idempotent execution

`idempotencyRegistry.Do` of `internal/services/actions/idempotency.go`.  A call either joins the
entry of its key or makes one and executes; the deferred function publishes the result.  Calls are
numbered, and an entry has the number of the call that made it.  Calls, the clock and the contexts
of the callers move in any order.
-/

open Bool Function

namespace Kubepeep.Idempotency

open Kubepeep.System

def maximumIdempotencyEntries : Nat := 4096

structure IdempotencyIdentity where
  method : String
  path : String
  clusterProfileID : Int
  generation : String
  bodyHash : String
  deriving DecidableEq, Repr

/-- The errors of `Do`: its own, the translated error of the caller's context, and the error that
`execute` has returned. -/
inductive DoError (E : Type) where
  | CodeIdempotencyConflict
  | CodeLimitExceeded
  | CodeInternal
  | context
  | executed (err : E)
  deriving DecidableEq, Repr

/-- `terminalAt` is 0, the zero time, until the entry is finished. -/
structure IdempotencyEntry (V E : Type) where
  identity : IdempotencyIdentity
  done : Bool
  value : V
  err : Option (DoError E)
  terminalAt : Nat
  deriving DecidableEq, Repr

/-- A call of `Do`.  `finishing` has left `execute` and still has to run the deferred function;
`returned` remembers the entry the call has joined. -/
inductive Phase (V E : Type) where
  | idle
  | waiting (existing : Nat)
  | executing
  | finishing (value : V) (err : Option (DoError E))
  | returned (existing : Option Nat) (value : V) (replayed : Bool) (err : Option (DoError E))
  deriving DecidableEq, Repr

structure Request where
  key : String
  identity : IdempotencyIdentity
  deriving DecidableEq, Repr

structure Registry (V E : Type) where
  now : Nat
  entries : Table String Nat
  entry : Nat → IdempotencyEntry V E
  call : Nat → Phase V E
  canceled : Nat → Bool

variable {V E : Type} (registry : Registry V E)

def Registry.setCall (id : Nat) (phase : Phase V E) : Registry V E :=
  { registry with call := update registry.call id phase }

@[simp] theorem Registry.setCall_self (id : Nat) (phase : Phase V E) :
    (registry.setCall id phase).call id = phase :=
  update_self ..

theorem Registry.setCall_of_ne {id other : Nat} (phase : Phase V E)
    (h : other ≠ id) : (registry.setCall id phase).call other = registry.call other :=
  update_of_ne h ..

/-! ## The critical sections -/

section Sections

variable (ttl : Nat) (canceled : E → Bool)

/-- `errors.Is(err, context.Canceled)` -/
def DoError.isCanceled : DoError E → Bool
  | .executed err => canceled err
  | _ => false

def IdempotencyEntry.expired (entry : IdempotencyEntry V E) (now : Nat) : Bool :=
  entry.terminalAt != 0 && entry.terminalAt + ttl ≤ now

def Registry.pruneLocked : Registry V E :=
  { registry with
    entries := registry.entries.prune fun _ id => !(registry.entry id).expired ttl registry.now }

def Registry.makeEntry [Inhabited V] (id : Nat) (request : Request) :
    Registry V E :=
  { registry with
    entries := registry.entries.insert request.key id
    entry := update registry.entry id ⟨request.identity, false, default, none, 0⟩
    call := update registry.call id .executing }

/-- The first critical section of `Do`. -/
def Registry.enter [Inhabited V] (id : Nat) (request : Request) : Registry V E :=
  let registry := registry.pruneLocked ttl
  match registry.entries.lookup request.key with
  | some existing =>
    if (registry.entry existing).identity ≠ request.identity then
      registry.setCall id (.returned none default false (some .CodeIdempotencyConflict))
    else
      registry.setCall id (.waiting existing)
  | none =>
    if maximumIdempotencyEntries ≤ registry.entries.size then
      registry.setCall id (.returned none default false (some .CodeLimitExceeded))
    else
      registry.makeEntry id request

/-- The deferred function of `Do`. -/
def Registry.finish (id : Nat) (request : Request) (value : V)
    (err : Option (DoError E)) : Registry V E :=
  { registry with
    entries :=
      if err.any (·.isCanceled canceled) then registry.entries.erase request.key
      else registry.entries
    entry := update registry.entry id
      ⟨(registry.entry id).identity, true, value, err, registry.now⟩
    call := update registry.call id (.returned none value false err) }

end Sections

/-! ## Interleavings -/

inductive Action (V E : Type) where
  | advance (duration : Nat)
  | cancel (id : Nat)
  | start (id : Nat)
  | wake (id : Nat)
  | giveUp (id : Nat)
  | complete (id : Nat) (value : V) (err : Option E)
  | panic (id : Nat)
  | finish (id : Nat)
  deriving DecidableEq, Repr

/-- One step of the clock, of a caller's context or of a call.  A call that waits takes either of
the two cases of its `select` that are ready. -/
inductive Step [Inhabited V] (ttl : Nat) (canceled : E → Bool) (request : Nat → Request) :
    Registry V E → Action V E → Registry V E → Prop where
  | advance {registry : Registry V E} (duration : Nat) :
    Step ttl canceled request registry (.advance duration)
      { registry with now := registry.now + duration }
  | cancel {registry : Registry V E} (id : Nat) :
    Step ttl canceled request registry (.cancel id)
      { registry with canceled := update registry.canceled id true }
  | start {registry : Registry V E} {id : Nat} (h : registry.call id = .idle) :
    Step ttl canceled request registry (.start id) (registry.enter ttl id (request id))
  | wake {registry : Registry V E} {id existing : Nat} (h : registry.call id = .waiting existing)
    (hdone : (registry.entry existing).done = true) :
    Step ttl canceled request registry (.wake id)
      (registry.setCall id (.returned (some existing) (registry.entry existing).value true
        (registry.entry existing).err))
  | giveUp {registry : Registry V E} {id existing : Nat} (h : registry.call id = .waiting existing)
    (hdone : registry.canceled id = true) :
    Step ttl canceled request registry (.giveUp id)
      (registry.setCall id (.returned (some existing) default true (some .context)))
  | complete {registry : Registry V E} {id : Nat} (value : V) (err : Option E)
    (h : registry.call id = .executing) :
    Step ttl canceled request registry (.complete id value err)
      (registry.setCall id (.finishing value (err.map .executed)))
  | panic {registry : Registry V E} {id : Nat} (h : registry.call id = .executing) :
    Step ttl canceled request registry (.panic id)
      (registry.setCall id (.finishing default (some .CodeInternal)))
  | finish {registry : Registry V E} {id : Nat} {value : V} {err : Option (DoError E)}
    (h : registry.call id = .finishing value err) :
    Step ttl canceled request registry (.finish id)
      (registry.finish canceled id (request id) value err)

structure Registry.New (registry : Registry V E) : Prop where
  entries : registry.entries = ∅
  entry : ∀ id, (registry.entry id).done = false
  call : ∀ id, registry.call id = .idle

/-! ## The invariant -/

def Phase.isRunning : Phase V E → Bool
  | .executing => true
  | .finishing _ _ => true
  | _ => false

def Phase.existing : Phase V E → Option Nat
  | .waiting existing => some existing
  | .returned existing _ _ _ => existing
  | _ => none

/-- A call has made an entry: it executes, or it has finished. -/
def Registry.Made (a : Nat) : Prop :=
  (registry.call a).isRunning = true ∨ (registry.entry a).done = true

/-- An execution has ended without a cancellation, and its result has not expired. -/
structure Registry.Fresh (ttl : Nat) (canceled : E → Bool) (registry : Registry V E) (a : Nat) :
    Prop where
  done : (registry.entry a).done = true
  kept : (registry.entry a).err.any (·.isCanceled canceled) = false
  now : registry.now < (registry.entry a).terminalAt + ttl

/-- What a call that has joined the entry of `a` may return. -/
def Registry.Replays (a b : Nat) (value : V) (err : Option (DoError E)) : Prop :=
  ((registry.entry a).done = true ∧ value = (registry.entry a).value ∧
      err = (registry.entry a).err) ∨
    (registry.canceled b = true ∧ err = some .context)

section Invariant

variable (ttl : Nat) (canceled : E → Bool) (request : Nat → Request)

structure Inv (registry : Registry V E) : Prop where
  size : registry.entries.size ≤ maximumIdempotencyEntries
  row : ∀ {key a}, registry.entries.lookup key = some a → (request a).key = key ∧ registry.Made a
  identity : ∀ {a}, registry.Made a → (registry.entry a).identity = (request a).identity
  running : ∀ {a}, (registry.call a).isRunning = true →
    registry.entries.lookup (request a).key = some a ∧ (registry.entry a).done = false ∧
      (registry.entry a).terminalAt = 0
  done : ∀ {a}, (registry.entry a).done = true →
    registry.call a = .returned none (registry.entry a).value false (registry.entry a).err
  fresh : ∀ {a}, registry.Fresh ttl canceled a → registry.entries.lookup (request a).key = some a
  joined : ∀ {a b}, (registry.call b).existing = some a → registry.Made a ∧ request b = request a
  result : ∀ {a b value replayed err},
    registry.call b = .returned (some a) value replayed err →
      replayed = true ∧ registry.Replays a b value err

end Invariant

variable {ttl : Nat} {canceled : E → Bool} {request : Nat → Request} {registry : Registry V E}

theorem Registry.New.inv (h : registry.New) : Inv ttl canceled request registry := by
  have hrunning : ∀ a, (registry.call a).isRunning = false := by
    intro a
    rw [h.call]
    rfl
  refine ⟨?_, ?_, ?_, ?_, ?_, ?_, ?_, ?_⟩
  · rw [h.entries]
    exact Nat.zero_le _
  · intro key a hrow
    rw [h.entries, AList.lookup_empty] at hrow
    cases hrow
  · intro a hmade
    rcases hmade with hmade | hmade
    · exact absurd hmade (by simp [hrunning])
    · exact absurd hmade (by simp [h.entry])
  · intro a hrun
    exact absurd hrun (by simp [hrunning])
  · intro a hdone
    exact absurd hdone (by simp [h.entry])
  · intro a hfresh
    exact absurd hfresh.done (by simp [h.entry])
  · intro a b hjoined
    rw [h.call] at hjoined
    cases hjoined
  · intro a b value replayed err hreturned
    rw [h.call] at hreturned
    cases hreturned

namespace Inv

variable (h : Inv ttl canceled request registry)
include h

variable {id : Nat}

theorem not_made (hrunning : (registry.call id).isRunning = false)
    (hreturned : ∀ value err, registry.call id ≠ .returned none value false err) :
    ¬registry.Made id := by
  rintro (hmade | hmade)
  · rw [hrunning] at hmade
    cases hmade
  · exact hreturned _ _ (h.done hmade)

theorem advance (duration : Nat) :
    Inv ttl canceled request { registry with now := registry.now + duration } where
  size := h.size
  row := h.row
  identity := h.identity
  running := h.running
  done := h.done
  fresh := by
    intro a hfresh
    have hnow := hfresh.now
    dsimp only at hnow
    exact h.fresh ⟨hfresh.done, hfresh.kept, by omega⟩
  joined := h.joined
  result := h.result

theorem cancel (id : Nat) :
    Inv ttl canceled request
      { registry with canceled := update registry.canceled id true } where
  size := h.size
  row := h.row
  identity := h.identity
  running := h.running
  done := h.done
  fresh hfresh := h.fresh ⟨hfresh.done, hfresh.kept, hfresh.now⟩
  joined := h.joined
  result := by
    intro a b value replayed err hreturned
    have ⟨hreplayed, hresult⟩ := h.result hreturned
    refine ⟨hreplayed, ?_⟩
    rcases hresult with hresult | ⟨hcanceled, herr⟩
    · exact .inl hresult
    · exact .inr ⟨holds_update registry.canceled (· = true) rfl hcanceled, herr⟩

theorem pruneLocked : Inv ttl canceled request (registry.pruneLocked ttl) where
  size := Nat.le_trans (Table.size_prune_le _) h.size
  row hrow := h.row (Table.lookup_prune_eq_some_iff.mp hrow).1
  identity := h.identity
  running := by
    intro a hrunning
    have ⟨hrow, hdone, hterminal⟩ := h.running hrunning
    refine ⟨Table.lookup_prune_eq_some_iff.mpr ⟨hrow, ?_⟩, hdone, hterminal⟩
    rw [IdempotencyEntry.expired, hterminal]
    rfl
  done := h.done
  fresh := by
    intro a hfresh
    have hrow := h.fresh ⟨hfresh.done, hfresh.kept, hfresh.now⟩
    have hnow : registry.now < (registry.entry a).terminalAt + ttl := hfresh.now
    refine Table.lookup_prune_eq_some_iff.mpr ⟨hrow, ?_⟩
    simp only [IdempotencyEntry.expired, Bool.not_and, Bool.or_eq_true, Bool.not_eq_true',
      decide_eq_false_iff_not]
    exact .inr (by omega)
  joined := h.joined
  result := h.result

theorem setCall {phase : Phase V E} (hrunning : phase.isRunning = (registry.call id).isRunning)
    (hdone : (registry.entry id).done = false)
    (hjoined : ∀ a, phase.existing = some a → registry.Made a ∧ request id = request a)
    (hresult : ∀ a value replayed err, phase = .returned (some a) value replayed err →
      replayed = true ∧ registry.Replays a id value err) :
    Inv ttl canceled request (registry.setCall id phase) := by
  have hcall : ∀ a, ((registry.setCall id phase).call a).isRunning =
      (registry.call a).isRunning := by
    intro a
    by_cases ha : a = id
    · rw [ha, Registry.setCall_self, hrunning]
    · rw [Registry.setCall_of_ne _ _ ha]
  have hmade : ∀ a, (registry.setCall id phase).Made a ↔ registry.Made a := by
    intro a
    rw [Registry.Made, hcall]
    rfl
  refine ⟨h.size, ?_, ?_, ?_, ?_, ?_, ?_, ?_⟩
  · intro key a hrow
    have ⟨hkey, hrow⟩ := h.row hrow
    exact ⟨hkey, (hmade a).mpr hrow⟩
  · intro a ha
    exact h.identity ((hmade a).mp ha)
  · intro a ha
    exact h.running (hcall a ▸ ha)
  · intro a ha
    have hne : a ≠ id := by
      rintro rfl
      exact false_ne_true (hdone.symm.trans ha)
    rw [Registry.setCall_of_ne _ _ hne]
    exact h.done ha
  · intro a hfresh
    exact h.fresh ⟨hfresh.done, hfresh.kept, hfresh.now⟩
  · intro a b hb
    rw [hmade]
    by_cases hid : b = id
    · subst hid
      rw [Registry.setCall_self] at hb
      exact hjoined a hb
    · rw [Registry.setCall_of_ne _ _ hid] at hb
      exact h.joined hb
  · intro a b value replayed err hb
    by_cases hid : b = id
    · subst hid
      rw [Registry.setCall_self] at hb
      exact hresult a value replayed err hb
    · rw [Registry.setCall_of_ne _ _ hid] at hb
      exact h.result hb

section

variable (hidle : registry.call id = .idle)

include hidle

theorem reject (value : V) (err : Option (DoError E)) :
    Inv ttl canceled request (registry.setCall id (.returned none value false err)) := by
  have hdone : ¬(registry.entry id).done = true := by
    intro hdone
    have hcall := h.done hdone
    rw [hidle] at hcall
    cases hcall
  apply h.setCall
  · rw [hidle]
    rfl
  · exact eq_false_iff.mpr hdone
  · intro a ha
    cases ha
  · intro a value replayed err heq
    cases heq

theorem makeEntry [Inhabited V] (hrow : registry.entries.lookup (request id).key = none)
    (hsize : registry.entries.size < maximumIdempotencyEntries) :
    Inv ttl canceled request (registry.makeEntry id (request id)) := by
  have hmade : ¬registry.Made id :=
    h.not_made (by rw [hidle]; rfl) (by intro value err; rw [hidle]; nofun)
  have hcall : ∀ {a}, a ≠ id → (registry.makeEntry id (request id)).call a = registry.call a :=
    fun ha => update_of_ne ha ..
  have hentry : ∀ {a}, a ≠ id → (registry.makeEntry id (request id)).entry a = registry.entry a :=
    fun ha => update_of_ne ha ..
  have hcallSelf : (registry.makeEntry id (request id)).call id = .executing :=
    update_self ..
  have hentrySelf : (registry.makeEntry id (request id)).entry id =
      ⟨(request id).identity, false, default, none, 0⟩ := update_self ..
  have hkept : ∀ {a}, registry.Made a → (registry.makeEntry id (request id)).Made a := by
    intro a ha
    have hne : a ≠ id := fun heq => hmade (heq ▸ ha)
    rwa [Registry.Made, hcall hne, hentry hne]
  -- the rows of other calls stay, because no row has the key of this call
  have hlookup : ∀ {a}, registry.entries.lookup (request a).key = some a →
      (registry.makeEntry id (request id)).entries.lookup (request a).key = some a := by
    intro a ha
    have hne : (request a).key ≠ (request id).key := by
      intro heq
      rw [heq, hrow] at ha
      cases ha
    exact Table.lookup_insert_eq_some_iff.mpr (.inr ⟨hne, ha⟩)
  refine ⟨?_, ?_, ?_, ?_, ?_, ?_, ?_, ?_⟩
  · show Table.size (registry.entries.insert _ _) ≤ _
    rw [Table.size_insert hrow]
    exact hsize
  · intro key a ha
    rcases Table.lookup_insert_eq_some_iff.mp ha with ⟨rfl, rfl⟩ | ⟨_, ha⟩
    · exact ⟨rfl, .inl (by rw [hcallSelf]; rfl)⟩
    · exact ⟨(h.row ha).1, hkept (h.row ha).2⟩
  · intro a ha
    by_cases hid : a = id
    · rw [hid, hentrySelf]
    · rw [Registry.Made, hcall hid, hentry hid] at ha
      rw [hentry hid]
      exact h.identity ha
  · intro a ha
    by_cases hid : a = id
    · subst hid
      rw [hentrySelf]
      exact ⟨Table.lookup_insert_eq_some_iff.mpr (.inl ⟨rfl, rfl⟩), rfl, rfl⟩
    · rw [hcall hid] at ha
      rw [hentry hid]
      exact ⟨hlookup (h.running ha).1, (h.running ha).2⟩
  · intro a ha
    by_cases hid : a = id
    · rw [hid, hentrySelf] at ha
      cases ha
    · rw [hentry hid] at ha ⊢
      rw [hcall hid]
      exact h.done ha
  · intro a hfresh
    by_cases hid : a = id
    · have hdone := hfresh.done
      rw [hid, hentrySelf] at hdone
      cases hdone
    · have hdone := hfresh.done
      have hkeeps := hfresh.kept
      have hnow := hfresh.now
      rw [hentry hid] at hdone hkeeps hnow
      exact hlookup (h.fresh ⟨hdone, hkeeps, hnow⟩)
  · intro a b hb
    by_cases hid : b = id
    · rw [hid, hcallSelf] at hb
      cases hb
    · rw [hcall hid] at hb
      exact ⟨hkept (h.joined hb).1, (h.joined hb).2⟩
  · intro a b value replayed err hb
    by_cases hid : b = id
    · rw [hid, hcallSelf] at hb
      cases hb
    · rw [hcall hid] at hb
      have hne : a ≠ id := fun heq => hmade (heq ▸ (h.joined (by rw [hb]; rfl)).1)
      rw [Registry.Replays, hentry hne]
      exact h.result hb

theorem enter [Inhabited V] :
    Inv ttl canceled request (registry.enter ttl id (request id)) := by
  have hpruned := h.pruneLocked
  have hdone : ((registry.pruneLocked ttl).entry id).done = false := by
    apply eq_false_iff.mpr
    intro hdone
    have hcall := hpruned.done hdone
    rw [show (registry.pruneLocked ttl).call id = .idle from hidle] at hcall
    cases hcall
  unfold Registry.enter
  dsimp only
  split
  case h_1 existing hrow =>
    split
    case isTrue => exact hpruned.reject hidle default _
    case isFalse hidentity =>
      have ⟨hkey, hmade⟩ := hpruned.row hrow
      -- the entry has the key and the identity of the request
      have hrequest : request id = request existing := by
        have hidentity := (hpruned.identity hmade).symm.trans (not_not.mp hidentity)
        cases hold : request existing
        cases hnew : request id
        rw [hold, hnew] at hkey hidentity
        cases hkey
        cases hidentity
        rfl
      apply hpruned.setCall
      · rw [show (registry.pruneLocked ttl).call id = .idle from hidle]
        rfl
      · exact hdone
      · intro a ha
        cases ha
        exact ⟨hmade, hrequest⟩
      · nofun
  case h_2 hrow =>
    split
    case isTrue => exact hpruned.reject hidle default _
    case isFalse hsize => exact hpruned.makeEntry hidle hrow (Nat.not_le.mp hsize)

end

variable {err : Option (DoError E)}

theorem finish {value : V} (hphase : registry.call id = .finishing value err) :
    Inv ttl canceled request (registry.finish canceled id (request id) value err) := by
  have hcall : ∀ {a}, a ≠ id →
      (registry.finish canceled id (request id) value err).call a = registry.call a :=
    fun ha => update_of_ne ha ..
  have hentry : ∀ {a}, a ≠ id →
      (registry.finish canceled id (request id) value err).entry a = registry.entry a :=
    fun ha => update_of_ne ha ..
  have hcallSelf : (registry.finish canceled id (request id) value err).call id =
      .returned none value false err := update_self ..
  have hentrySelf : (registry.finish canceled id (request id) value err).entry id =
      ⟨(registry.entry id).identity, true, value, err, registry.now⟩ := update_self ..
  have hrunning : (registry.call id).isRunning = true := by
    rw [hphase]
    rfl
  have ⟨hrow, hdone, hterminal⟩ := h.running hrunning
  have hmade : ∀ {a}, registry.Made a →
      (registry.finish canceled id (request id) value err).Made a := by
    intro a ha
    by_cases hid : a = id
    · exact .inr (by rw [hid, hentrySelf])
    · rwa [Registry.Made, hcall hid, hentry hid]
  -- deleting the key takes no row but the one of this call
  have hlookup : ∀ {key a}, a ≠ id → registry.entries.lookup key = some a →
      (registry.finish canceled id (request id) value err).entries.lookup key = some a := by
    intro key a ha hkey
    unfold Registry.finish
    split
    · refine Table.lookup_erase_eq_some_iff.mpr ⟨?_, hkey⟩
      rintro rfl
      exact ha (Option.some.inj (hkey.symm.trans hrow))
    · exact hkey
  have hrows : ∀ {key a},
      (registry.finish canceled id (request id) value err).entries.lookup key = some a →
        registry.entries.lookup key = some a := by
    intro key a hkey
    unfold Registry.finish at hkey
    split at hkey
    · exact (Table.lookup_erase_eq_some_iff.mp hkey).2
    · exact hkey
  refine ⟨?_, ?_, ?_, ?_, ?_, ?_, ?_, ?_⟩
  · unfold Registry.finish
    split
    · exact Nat.le_trans (Table.size_erase_le _) h.size
    · exact h.size
  · intro key a ha
    have ⟨hkey, ha⟩ := h.row (hrows ha)
    exact ⟨hkey, hmade ha⟩
  · intro a ha
    by_cases hid : a = id
    · rw [hid, hentrySelf]
      exact h.identity (.inl hrunning)
    · rw [Registry.Made, hcall hid, hentry hid] at ha
      rw [hentry hid]
      exact h.identity ha
  · intro a ha
    have hid : a ≠ id := by
      rintro rfl
      rw [hcallSelf] at ha
      cases ha
    rw [hcall hid] at ha
    rw [hentry hid]
    exact ⟨hlookup hid (h.running ha).1, (h.running ha).2⟩
  · intro a ha
    by_cases hid : a = id
    · subst hid
      rw [hcallSelf, hentrySelf]
    · rw [hentry hid] at ha ⊢
      rw [hcall hid]
      exact h.done ha
  · intro a hfresh
    have hkept := hfresh.kept
    by_cases hid : a = id
    · subst hid
      rw [hentrySelf] at hkept
      unfold Registry.finish
      rw [hkept]
      exact hrow
    · have hdone := hfresh.done
      have hnow := hfresh.now
      rw [hentry hid] at hdone hkept hnow
      exact hlookup hid (h.fresh ⟨hdone, hkept, hnow⟩)
  · intro a b hb
    have hid : b ≠ id := by
      rintro rfl
      rw [hcallSelf] at hb
      cases hb
    rw [hcall hid] at hb
    exact ⟨hmade (h.joined hb).1, (h.joined hb).2⟩
  · intro a b result replayed err' hb
    have hid : b ≠ id := by
      rintro rfl
      rw [hcallSelf] at hb
      cases hb
    rw [hcall hid] at hb
    have ⟨hreplayed, hresult⟩ := h.result hb
    refine ⟨hreplayed, ?_⟩
    rcases hresult with ⟨ha, hresult⟩ | hcanceled
    · have hne : a ≠ id := by
        rintro rfl
        exact false_ne_true (hdone.symm.trans ha)
      exact .inl (by rw [hentry hne]; exact ⟨ha, hresult⟩)
    · exact .inr hcanceled

variable {existing : Nat}

theorem not_done_of_waiting (hphase : registry.call id = .waiting existing) :
    (registry.entry id).done = false := by
  apply eq_false_iff.mpr
  intro hdone
  have hcall := h.done hdone
  rw [hphase] at hcall
  cases hcall

theorem replay (hphase : registry.call id = .waiting existing) {value : V}
    (hresult : registry.Replays existing id value err) :
    Inv ttl canceled request
      (registry.setCall id (.returned (some existing) value true err)) := by
  apply h.setCall
  · rw [hphase]
    rfl
  · exact h.not_done_of_waiting hphase
  · intro a ha
    cases ha
    exact h.joined (by rw [hphase]; rfl)
  · intro a value replayed err heq
    cases heq
    exact ⟨rfl, hresult⟩

theorem leave (hphase : registry.call id = .executing) (value : V) (err : Option (DoError E)) :
    Inv ttl canceled request (registry.setCall id (.finishing value err)) := by
  have hrunning : (registry.call id).isRunning = true := by
    rw [hphase]
    rfl
  apply h.setCall
  · rw [hrunning]
    rfl
  · exact (h.running hrunning).2.1
  · nofun
  · nofun

end Inv

theorem Step.inv [Inhabited V] {next : Registry V E} {action : Action V E}
    (h : Inv ttl canceled request registry)
    (hstep : Step ttl canceled request registry action next) : Inv ttl canceled request next := by
  cases hstep with
  | advance duration => exact h.advance duration
  | cancel id => exact h.cancel id
  | start hidle => exact h.enter hidle
  | wake hphase hdone => exact h.replay hphase (.inl ⟨hdone, rfl, rfl⟩)
  | giveUp hphase hcanceled => exact h.replay hphase (.inr ⟨hcanceled, rfl⟩)
  | complete value err hphase => exact h.leave hphase value _
  | panic hphase => exact h.leave hphase default _
  | finish hphase => exact h.finish hphase

end Kubepeep.Idempotency
