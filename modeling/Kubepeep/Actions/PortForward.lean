import Kubepeep.Actions.Generations
import Kubepeep.Lib.KeyedMutex

/-!
# Port forwards

The manager of `internal/services/actions/portforward.go`.  `createOnce` takes the gate of its
origin, reserves a slot, ends the session that the origin has, binds a listener, connects and
publishes the session; every other exit returns an error.  Every section under the lock of the
manager is one step, and so is every read of the current generation, which has a lock of its own,
and every call of the binder, the adapter and the identifiers.  These are the environment, with the
authorizer, the clock and the contexts; a panic of theirs is recovered by the idempotency registry,
which makes an error of it.
-/

open Function

namespace Kubepeep.Actions.PortForward

open Kubepeep.System

def MaximumPortForwardSessions : Nat := 8

structure PortForwardOrigin where
  generation : String
  kind : String
  Namespace : String
  name : String
  deriving DecidableEq, Repr

inductive PortForwardStatus where
  | PortForwardActive
  | PortForwardClosed
  | PortForwardExpired
  | PortForwardPodGone
  | PortForwardFailed
  deriving DecidableEq, Repr

/-- `context` is the error of a context that is done, `environment` one of the authorizer, the
identifiers, the binder or the adapter. -/
inductive PortForwardError (E : Type) where
  | code (code : ErrorCode)
  | context
  | environment (err : E)
  deriving DecidableEq, Repr

/-- A reservation.  `attached` says that it has the cancel function of its setup, and `create` is
the call that has made it. -/
structure PortForwardStart where
  generation : String
  attached : Bool
  stale : Bool
  create : Nat
  deriving DecidableEq, Repr

/-- What the manager reads of the DTO of a session; `origin` are its generation, source kind,
namespace and source name. -/
structure PortForwardSession where
  id : String
  origin : PortForwardOrigin
  status : PortForwardStatus
  endedAt : Option Int
  deriving DecidableEq, Repr

/-- A create.  `g` is its gate, `s` its reservation, and a session is named by the create that has
published it.  Behind `leaving` the gate is given back, with the result of the create. -/
inductive Phase (E : Type) where
  | idle
  | waiting (g : Nat)
  | reviewing (g : Nat)
  | permitted (g : Nat)
  | current (g : Nat)
  | reserved (g s : Nat)
  | closing (g s : Nat) (previous : List Nat)
  | joining (g s p : Nat) (previous : List Nat)
  | attached (g s : Nat)
  | checked (g s : Nat)
  | identified (g s : Nat) (identifier : String)
  | bound (g s : Nat) (identifier : String)
  | connected (g s : Nat) (identifier : String)
  | ready (g s : Nat) (identifier : String)
  | comparing (g s : Nat) (identifier current : String)
  | stopping (g : Nat) (err : PortForwardError E)
  | failing (g s : Nat) (err : PortForwardError E)
  | released (g : Nat) (err : PortForwardError E)
  | rechecked (g : Nat) (err : PortForwardError E)
  | leaving (g : Nat) (result : Option (PortForwardError E))
  | unregistering (g : Nat) (result : Option (PortForwardError E))
  | finished (result : Option (PortForwardError E))
  deriving DecidableEq, Repr

/-- The manager with the creates in progress.  `listener` and `handle` say what a create has open,
and `stopping` that a call of `stop` for its session is on its way. -/
structure PortForwardManager (E : Type) where
  generations : Generations
  shutdown : Bool
  targetGates : KeyedMutex PortForwardOrigin
  starts : Table Nat PortForwardStart
  nextStart : Nat
  sessions : Table String Nat
  session : Nat → PortForwardSession
  call : Nat → Phase E
  listener : Nat → Bool
  handle : Nat → Bool
  stopping : Nat → Bool

namespace PortForwardManager

variable {E : Type} (m : PortForwardManager E)

def setCall (c : Nat) (phase : Phase E) : PortForwardManager E :=
  { m with call := update m.call c phase }

def setGates (targetGates : KeyedMutex PortForwardOrigin) : PortForwardManager E :=
  { m with targetGates := targetGates }

/-- `listener.Close()` and `handle.Close()`. -/
def closeAll (c : Nat) : PortForwardManager E :=
  { m with
    listener := update m.listener c false
    handle := update m.handle c false }

def isActive (p : Nat) : Bool := (m.session p).status == .PortForwardActive

def pruneLocked (retention now : Int) : PortForwardManager E :=
  { m with
    sessions := m.sessions.prune fun _ p =>
      (m.session p).endedAt.all fun endedAt => now < endedAt + retention }

def rows : List Nat := m.sessions.entries.map fun row => row.2

def activeSlots : Nat := m.starts.size + (m.rows.filter m.isActive).length

def replacing (origin : PortForwardOrigin) : Bool :=
  m.rows.any fun p => m.isActive p && (m.session p).origin == origin

def addStart (c g : Nat) (generation : String) : PortForwardManager E :=
  { m with
    nextStart := m.nextStart + 1
    starts := m.starts.insert (m.nextStart + 1) ⟨generation, false, false, c⟩
    call := update m.call c (.reserved g (m.nextStart + 1)) }

/-- Behind `pruneLocked`. -/
def reserve (c g : Nat) (origin : PortForwardOrigin) : PortForwardManager E :=
  if m.shutdown then m.setCall c (.released g (.code .CodeServerShutdown))
  else if m.activeSlots ≥ MaximumPortForwardSessions && !m.replacing origin then
    m.setCall c (.released g (.code .CodeLimitExceeded))
  else m.addStart c g origin.generation

/-- The section of `closeTarget`. -/
def collectPrevious (c g s : Nat) (origin : PortForwardOrigin) : PortForwardManager E :=
  m.setCall c (.closing g s (m.rows.filter fun p => (m.session p).origin == origin))

def endSession (p : Nat) (status : PortForwardStatus) (now : Int) : PortForwardManager E :=
  { m with
    session := update m.session p
      { m.session p with status := status, endedAt := some now }
    stopping := update m.stopping p true }

def finish (identifier : String) (status : PortForwardStatus) (now : Int) : PortForwardManager E :=
  match m.sessions.lookup identifier with
  | none => m
  | some p => if !m.isActive p then m else m.endSession p status now

def attachReservation (c g s : Nat) : PortForwardManager E :=
  match m.starts.lookup s with
  | none => m.setCall c (.failing g s (.code .CodeInternal))
  | some start =>
    { m with
      starts := m.starts.insert s { start with attached := true }
      call := update m.call c
        (if m.shutdown then .failing g s (.code .CodeServerShutdown)
        else if start.stale then .failing g s (.code .CodeGenerationChanged)
        else .attached g s) }

def releaseReservation (c g s : Nat) (err : PortForwardError E) : PortForwardManager E :=
  { m with
    starts := m.starts.erase s
    call := update m.call c (.released g err) }

/-- `delete(m.starts, startID)` in the last section of `createOnce`. -/
def dropStart (c s : Nat) (phase : Phase E) : PortForwardManager E :=
  { m with
    starts := m.starts.erase s
    call := update m.call c phase }

/-- `m.sessions[identifier] = session` -/
def addSession (c g s : Nat) (identifier : String) (origin : PortForwardOrigin) :
    PortForwardManager E :=
  { m with
    starts := m.starts.erase s
    sessions := m.sessions.insert identifier c
    session := update m.session c ⟨identifier, origin, .PortForwardActive, none⟩
    call := update m.call c (.leaving g none) }

/-- The last section of `createOnce`.  `origin` is that of the DTO, and `current` the generation
that it has read. -/
def publish (c g s : Nat) (identifier current : String) (origin : PortForwardOrigin)
    (done : Bool) : PortForwardManager E :=
  let stale := (m.starts.lookup s).any fun start => start.stale
  if m.shutdown then m.dropStart c s (.stopping g (.code .CodeServerShutdown))
  else if stale || current != origin.generation then
    m.dropStart c s (.stopping g (.code .CodeGenerationChanged))
  else if done then m.dropStart c s (.stopping g .context)
  else
    match m.sessions.lookup identifier with
    | some _ => m.dropStart c s (.stopping g (.code .CodeInternal))
    | none => m.addSession c g s identifier origin

/-- The section of `Close`, behind `pruneLocked`, with its error. -/
def Close (identifier generation : String) (now : Int) :
    PortForwardManager E × Option ErrorCode :=
  match m.sessions.lookup identifier with
  | none => (m, some .CodeNotFound)
  | some p =>
    if (m.session p).origin.generation != generation then (m, some .CodeGenerationChanged)
    else if !m.isActive p then (m, some .CodeSessionGone)
    else (m.endSession p .PortForwardClosed now, none)

/-- Both sweeps: the reservations become stale and the sessions are deleted. -/
def sweep (keep : String → Bool) : PortForwardManager E :=
  { m with
    starts := Table.map m.starts fun start =>
      { start with stale := start.stale || !keep start.generation }
    sessions := m.sessions.prune fun _ p => keep (m.session p).origin.generation
    stopping := fun p => m.stopping p ||
      (m.rows.contains p && !keep (m.session p).origin.generation) }

def OnGeneration (current : String) : PortForwardManager E :=
  m.sweep fun generation => generation == current

def Shutdown : PortForwardManager E :=
  if m.shutdown then m else { m.sweep fun _ => false with shutdown := true }

end PortForwardManager

/-! ## Interleavings -/

inductive Action (E : Type) where
  | rotate (next : String)
  | create (c : Nat)
  | giveUp (c : Nat)
  | acquire (c : Nat)
  | keyFailed (c : Nat) (err : E)
  | refuse (c : Nat) (err : E)
  | withdraw (c : Nat)
  | permit (c : Nat)
  | checkCurrent (c : Nat)
  | reserve (c : Nat) (now : Int)
  | collectPrevious (c : Nat)
  | finishPrevious (c : Nat) (now : Int)
  | joinPrevious (c : Nat)
  | attachReservation (c : Nat)
  | identify (c : Nat) (identifier : String)
  | identifyFailed (c : Nat)
  | listen (c : Nat)
  | listenFailed (c : Nat) (err : PortForwardError E)
  | addressFailed (c : Nat)
  | connect (c : Nat)
  | connectFailed (c : Nat) (err : Option E)
  | compare (c : Nat)
  | publish (c : Nat) (done : Bool)
  | stop (c : Nat)
  | releaseReservation (c : Nat)
  | checkShutdown (c : Nat)
  | panics (c : Nat)
  | releaseToken (c : Nat)
  | releaseRef (c : Nat)
  | close (identifier generation : String) (now : Int)
  | finish (p : Nat) (status : PortForwardStatus) (now : Int)
  | stopSession (p : Nat)
  | list (now : Int)
  | onGeneration (current : String)
  | shutdown
  deriving DecidableEq, Repr

section Phases

variable {E : Type}

/-- The gate of a create in a phase in which it calls what can panic: the authorizer, the
identifiers, the binder, the listener or the adapter. -/
def Phase.panics? : Phase E → Option Nat
  | .reviewing g => some g
  | .checked g _ => some g
  | .identified g _ _ => some g
  | .bound g _ _ => some g
  | .ready g _ _ => some g
  | _ => none

def Phase.isPublished : Phase E → Bool
  | .leaving _ result => result.isNone
  | .unregistering _ result => result.isNone
  | .finished result => result.isNone
  | _ => false

/-- The error of an adapter, which can also return no handle and no error. -/
def connectError : Option E → PortForwardError E
  | none => .code .CodeInternal
  | some err => .environment err

end Phases

section Steps

variable {E : Type} (origin : Nat → PortForwardOrigin) (podNamespace : Nat → String)
  (retention : Int)

def dtoOrigin (c : Nat) : PortForwardOrigin :=
  { origin c with Namespace := podNamespace c }

inductive Step : PortForwardManager E → Action E → PortForwardManager E → Prop where
  | rotate {m : PortForwardManager E} (next : String) (h : next ∉ m.generations.seen) :
    Step m (.rotate next) { m with generations := m.generations.rotate next h }
  | create {m : PortForwardManager E} {c : Nat} (h : m.call c = .idle) :
    Step m (.create c) ((m.setGates (m.targetGates.register (origin c))).setCall c
      (.waiting (m.targetGates.find (origin c))))
  | giveUp {m : PortForwardManager E} {c g : Nat} (h : m.call c = .waiting g) :
    Step m (.giveUp c) (m.setCall c (.unregistering g (some .context)))
  | acquire {m : PortForwardManager E} {c g : Nat} (h : m.call c = .waiting g)
    (hfree : (m.targetGates.gate g).held = false) :
    Step m (.acquire c) ((m.setGates (m.targetGates.setHeld g true)).setCall c (.reviewing g))
  | keyFailed {m : PortForwardManager E} {c g : Nat} (err : E) (h : m.call c = .reviewing g) :
    Step m (.keyFailed c err) (m.setCall c (.leaving g (some (.environment err))))
  | refuse {m : PortForwardManager E} {c g : Nat} (err : E) (h : m.call c = .reviewing g) :
    Step m (.refuse c err) (m.setCall c (.released g (.environment err)))
  | withdraw {m : PortForwardManager E} {c g : Nat} (h : m.call c = .reviewing g) :
    Step m (.withdraw c) (m.setCall c (.released g .context))
  | permit {m : PortForwardManager E} {c g : Nat} (h : m.call c = .reviewing g) :
    Step m (.permit c) (m.setCall c (.permitted g))
  | checkPermitted {m : PortForwardManager E} {c g : Nat} (h : m.call c = .permitted g) :
    Step m (.checkCurrent c) (m.setCall c
      (if m.generations.requireCurrent (origin c).generation then .current g
      else .released g (.code .CodeGenerationChanged)))
  | reserve {m : PortForwardManager E} {c g : Nat} (now : Int) (h : m.call c = .current g) :
    Step m (.reserve c now) ((m.pruneLocked retention now).reserve c g (origin c))
  | collectPrevious {m : PortForwardManager E} {c g s : Nat} (h : m.call c = .reserved g s) :
    Step m (.collectPrevious c) (m.collectPrevious c g s (origin c))
  | finishPrevious {m : PortForwardManager E} {c g s p : Nat} {previous : List Nat} (now : Int)
    (h : m.call c = .closing g s (p :: previous)) :
    Step m (.finishPrevious c now) ((m.finish (m.session p).id .PortForwardClosed now).setCall c
      (.joining g s p previous))
  | joinPrevious {m : PortForwardManager E} {c g s p : Nat} {previous : List Nat}
    (h : m.call c = .joining g s p previous) :
    Step m (.joinPrevious c) ((m.closeAll p).setCall c (.closing g s previous))
  | attachReservation {m : PortForwardManager E} {c g s : Nat} (h : m.call c = .closing g s []) :
    Step m (.attachReservation c) (m.attachReservation c g s)
  | checkAttached {m : PortForwardManager E} {c g s : Nat} (h : m.call c = .attached g s) :
    Step m (.checkCurrent c) (m.setCall c
      (if m.generations.requireCurrent (origin c).generation then .checked g s
      else .failing g s (.code .CodeGenerationChanged)))
  | identify {m : PortForwardManager E} {c g s : Nat} (identifier : String)
    (h : m.call c = .checked g s) :
    Step m (.identify c identifier) (m.setCall c (.identified g s identifier))
  | identifyFailed {m : PortForwardManager E} {c g s : Nat} (h : m.call c = .checked g s) :
    Step m (.identifyFailed c) (m.setCall c (.failing g s (.code .CodeInternal)))
  | listen {m : PortForwardManager E} {c g s : Nat} {identifier : String}
    (h : m.call c = .identified g s identifier) :
    Step m (.listen c) ({ m with listener := update m.listener c true }.setCall c
      (.bound g s identifier))
  | listenFailed {m : PortForwardManager E} {c g s : Nat} {identifier : String}
    (err : PortForwardError E) (h : m.call c = .identified g s identifier) :
    Step m (.listenFailed c err) (m.setCall c (.failing g s err))
  | addressFailed {m : PortForwardManager E} {c g s : Nat} {identifier : String}
    (h : m.call c = .bound g s identifier) :
    Step m (.addressFailed c)
      ((m.closeAll c).setCall c (.failing g s (.code .CodeInternal)))
  | connect {m : PortForwardManager E} {c g s : Nat} {identifier : String}
    (h : m.call c = .bound g s identifier) :
    Step m (.connect c) ({ m with handle := update m.handle c true }.setCall c
      (.connected g s identifier))
  | connectFailed {m : PortForwardManager E} {c g s : Nat} {identifier : String} (err : Option E)
    (h : m.call c = .bound g s identifier) :
    Step m (.connectFailed c err) ((m.closeAll c).setCall c (.failing g s (connectError err)))
  | checkConnected {m : PortForwardManager E} {c g s : Nat} {identifier : String}
    (h : m.call c = .connected g s identifier)
    (hcurrent : m.generations.requireCurrent (origin c).generation = true) :
    Step m (.checkCurrent c) (m.setCall c (.ready g s identifier))
  | checkConnectedFailed {m : PortForwardManager E} {c g s : Nat} {identifier : String}
    (h : m.call c = .connected g s identifier)
    (hcurrent : m.generations.requireCurrent (origin c).generation = false) :
    Step m (.checkCurrent c)
      ((m.closeAll c).setCall c (.failing g s (.code .CodeGenerationChanged)))
  -- In the code only a new generation can come between these two, in the model also a section of
  -- another call.
  | compare {m : PortForwardManager E} {c g s : Nat} {identifier : String}
    (h : m.call c = .ready g s identifier) :
    Step m (.compare c) (m.setCall c (.comparing g s identifier m.generations.current))
  | publish {m : PortForwardManager E} {c g s : Nat} {identifier current : String} (done : Bool)
    (h : m.call c = .comparing g s identifier current) :
    Step m (.publish c done)
      (m.publish c g s identifier current (dtoOrigin origin podNamespace c) done)
  | stop {m : PortForwardManager E} {c g : Nat} {err : PortForwardError E}
    (h : m.call c = .stopping g err) :
    Step m (.stop c) ((m.closeAll c).setCall c (.leaving g (some err)))
  | releaseReservation {m : PortForwardManager E} {c g s : Nat} {err : PortForwardError E}
    (h : m.call c = .failing g s err) :
    Step m (.releaseReservation c) (m.releaseReservation c g s err)
  | checkReleased {m : PortForwardManager E} {c g : Nat} {err : PortForwardError E}
    (h : m.call c = .released g err) :
    Step m (.checkCurrent c) (m.setCall c
      (if m.generations.requireCurrent (origin c).generation then .rechecked g err
      else .leaving g (some (.code .CodeGenerationChanged))))
  | checkShutdown {m : PortForwardManager E} {c g : Nat} {err : PortForwardError E}
    (h : m.call c = .rechecked g err) :
    Step m (.checkShutdown c) (m.setCall c
      (.leaving g (some (if m.shutdown then .code .CodeServerShutdown else err))))
  | panics {m : PortForwardManager E} {c g : Nat} (h : (m.call c).panics? = some g) :
    Step m (.panics c) (m.setCall c (.leaving g (some (.code .CodeInternal))))
  | releaseToken {m : PortForwardManager E} {c g : Nat} {result : Option (PortForwardError E)}
    (h : m.call c = .leaving g result) :
    Step m (.releaseToken c) ((m.setGates (m.targetGates.setHeld g false)).setCall c
      (.unregistering g result))
  | releaseRef {m : PortForwardManager E} {c g : Nat} {result : Option (PortForwardError E)}
    (h : m.call c = .unregistering g result) :
    Step m (.releaseRef c) ((m.setGates (m.targetGates.leave (origin c) g)).setCall c
      (.finished result))
  | close {m : PortForwardManager E} (identifier generation : String) (now : Int) :
    Step m (.close identifier generation now)
      ((m.pruneLocked retention now).Close identifier generation now).1
  | finish {m : PortForwardManager E} {p : Nat} (status : PortForwardStatus) (now : Int)
    (h : (m.call p).isPublished = true) (hstatus : status ≠ .PortForwardActive) :
    Step m (.finish p status now) (m.finish (m.session p).id status now)
  | stopSession {m : PortForwardManager E} {p : Nat} (h : m.stopping p = true) :
    Step m (.stopSession p) (m.closeAll p)
  | list {m : PortForwardManager E} (now : Int) : Step m (.list now) (m.pruneLocked retention now)
  | onGeneration {m : PortForwardManager E} (current : String) :
    Step m (.onGeneration current) (m.OnGeneration current)
  | shutdown {m : PortForwardManager E} : Step m .shutdown m.Shutdown

end Steps

structure PortForwardManager.New {E : Type} (m : PortForwardManager E) : Prop where
  shutdown : m.shutdown = false
  targetGates : m.targetGates.gates = ∅
  starts : m.starts = ∅
  sessions : m.sessions = ∅
  call : ∀ c, m.call c = .idle
  listener : ∀ c, m.listener c = false
  handle : ∀ c, m.handle c = false
  stopping : ∀ p, m.stopping p = false

end Kubepeep.Actions.PortForward
