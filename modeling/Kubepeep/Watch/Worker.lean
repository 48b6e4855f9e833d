import Kubepeep.Lib.System
import Kubepeep.Watch.Subscription

/-!
# A watch worker and its subscribers

`watchWorker` (`internal/services/resources/watch.go`).  Every critical section of `manager.mu` is
one step, and so is every push of a broadcast, which happens outside of it.  `Subscribe` may
therefore come between an install or an update and its broadcast, and between two pushes of one.
-/

open Function Kubepeep.System

namespace Kubepeep.Watch

structure Worker (B : Type) where
  snapshot : WatchSnapshot (TopicObject B)
  snapshotBytes : Int
  snapshotReady : Bool
  initial : List (StreamEvent B)
  stopping : Bool

/-- The zero value of the fields, as `Subscribe` creates them. -/
def Worker.zero (B : Type) : Worker B := ⟨⟨"", []⟩, 0, false, [], false⟩

variable {B : Type} (objectSize : TopicObject B → Nat) (generation : String) (topic : Topic)

/-- `ended` is `worker.manager.closed || worker.ctx.Err() != nil`, and `fits` the budget that is
left by the other workers. -/
def installSnapshotLocked (worker : Worker B) (ended : Bool) (fits : Int → Bool)
    (snapshot : WatchSnapshot (TopicObject B)) (events : List (StreamEvent B)) :
    Option (Worker B) :=
  let size := itemsSize objectSize snapshot.items
  if worker.stopping || ended then
    none
  else if snapshot.items.length > MaximumSnapshotItems ∨ size > MaximumSnapshotBytes ∨
      fits size = false then
    none
  else
    some { worker with
      snapshot := snapshot
      snapshotBytes := size
      snapshotReady := true
      initial := events }

inductive Update where
  /-- `true`: the event is broadcast. -/
  | active
  /-- `false`: the worker returns. -/
  | stopped
  /-- `false`, after the broadcast of a reset. -/
  | exceeded
  deriving DecidableEq, Repr

def updateSnapshot (worker : Worker B) (fits : Int → Bool) (event : StreamEvent B) :
    Worker B × Update :=
  if worker.stopping then
    (worker, .stopped)
  else if !worker.snapshotReady then
    (worker, .active)
  else
    let snapshotBytes :=
      if worker.snapshotBytes = 0 then (itemsSize objectSize worker.snapshot.items : Int)
      else worker.snapshotBytes
    let next := applyStreamEventToSnapshot topic worker.snapshot event
    let size := snapshotBytes + snapshotEventSizeDelta objectSize topic worker.snapshot event
    if next.items.length > MaximumSnapshotItems ∨ size > MaximumSnapshotBytes ∨
        fits size = false then
      (⟨⟨"", []⟩, 0, false, [], true⟩, .exceeded)
    else
      ({ worker with snapshot := next, snapshotBytes := size, initial := [] }, .active)

theorem updateSnapshot_cases {worker next : Worker B} {fits : Int → Bool} {event : StreamEvent B}
    {update : Update} (hready : worker.snapshotReady = true ∨ worker.stopping = true)
    (h : updateSnapshot objectSize topic worker fits event = (next, update)) :
    next = worker ∧ update = .stopped ∨
      next = ⟨⟨"", []⟩, 0, false, [], true⟩ ∧ update = .exceeded ∨
      worker.snapshotReady = true ∧ update = .active ∧ ∃ size,
        next = { worker with
          snapshot := applyStreamEventToSnapshot topic worker.snapshot event
          snapshotBytes := size
          initial := [] } := by
  unfold updateSnapshot at h
  by_cases hstopping : worker.stopping = true
  · rw [if_pos hstopping] at h
    exact .inl ⟨(Prod.mk.inj h).1.symm, (Prod.mk.inj h).2.symm⟩
  have hready : worker.snapshotReady = true := hready.resolve_right hstopping
  rw [if_neg hstopping, if_neg (by simp [hready])] at h
  -- The size before the event does not matter here.
  generalize (if worker.snapshotBytes = 0 then _ else _ : Int) = size at h
  dsimp only at h
  split at h
  · exact .inr (.inl ⟨(Prod.mk.inj h).1.symm, (Prod.mk.inj h).2.symm⟩)
  · exact .inr (.inr ⟨hready, (Prod.mk.inj h).2.symm, _, (Prod.mk.inj h).1.symm⟩)

/-- A bookmark, once the worker has a snapshot. -/
def bookmark (worker : Worker B) (resourceVersion : String) : Worker B :=
  if worker.snapshotReady then
    { worker with
      snapshot := { worker.snapshot with resourceVersion := resourceVersion }
      initial := [] }
  else
    worker

def initialEvents (worker : Worker B) : Except Resources.ReadError (List (StreamEvent B)) :=
  if worker.snapshotReady = true ∧ worker.initial = [] then
    SnapshotEvents objectSize generation topic worker.snapshot
  else
    .ok worker.initial

def resetEvent (reason : String) : StreamEvent B :=
  { event := .reset, topic, generation, reason, refetchRequired := true }

def Update.announced (update : Update) (event : StreamEvent B) : List (StreamEvent B) :=
  match update with
  | .active => [event]
  | .stopped => []
  | .exceeded => [resetEvent generation topic "snapshot_limit_exceeded"]

/-! ## Steps -/

/-- The worker, its subscriptions by number, and where its goroutine is: the events it still has to
broadcast, and of the broadcast under way the subscribers it still has to push to. -/
structure World (B : Type) where
  worker : Worker B
  watching : Bool
  subscription : Nat → Subscription B
  count : Nat
  subscribers : List Nat
  pending : List (StreamEvent B)
  sending : Option (StreamEvent B × List Nat)

namespace World

/-- A push to one subscriber: a full queue is replaced by a reset, and the subscriber is removed. -/
def push (world : World B) (id : Nat) (event : StreamEvent B) : World B :=
  let pushed := (world.subscription id).push objectSize event
  { world with
    subscription := update world.subscription id
      (if pushed.2 then pushed.1
      else pushed.1.forceTerminal objectSize (resetEvent generation topic "slow_consumer"))
    subscribers := if pushed.2 then world.subscribers else world.subscribers.erase id }

/-- The critical section of `Subscribe`. -/
def subscribe (world : World B) (initial : List (StreamEvent B)) : World B :=
  let joined := (newSubscription B).pushAll objectSize initial
  { world with
    worker := { world.worker with initial := initial }
    subscription := update world.subscription world.count
      (if joined.2 then joined.1
      else joined.1.forceTerminal objectSize (resetEvent generation topic "slow_consumer"))
    count := world.count + 1
    subscribers := if joined.2 then world.subscribers ++ [world.count] else world.subscribers }

def Idle (world : World B) : Prop :=
  world.pending = [] ∧ world.sending = none

end World

inductive Action (B : Type) where
  | subscribe
  | install (snapshot : WatchSnapshot (TopicObject B))
  | change (event : StreamEvent B)
  | bookmark (resourceVersion : String)
  | notice (event : StreamEvent B)
  | broadcast
  | deliver (id : Nat)
  | delivered
  | terminal (id : Nat) (event : StreamEvent B)
  | next (id : Nat)
  | close (id : Nat)
  | finish

/-- The kinds of event that say nothing about objects. -/
def Notice (event : StreamEvent B) : Prop :=
  event.event = .progress ∨ event.event = .refreshed ∨ event.event = .error

/-- What `watchChangeEvent` makes of a change. -/
def Change (event : StreamEvent B) : Prop :=
  event.event = .added ∨ event.event = .modified ∨ event.event = .deleted

inductive Step : World B → Action B → World B → Prop where
  | subscribe {world : World B} {initial : List (StreamEvent B)} :
    initialEvents objectSize generation topic world.worker = .ok initial →
    Step world .subscribe (world.subscribe objectSize generation topic initial)
  /-- `relist` and `tryInitialWatch`. -/
  | install {world : World B} {snapshot : WatchSnapshot (TopicObject B)} {worker : Worker B}
      {events : List (StreamEvent B)} (ended : Bool) (fits : Int → Bool) :
    world.Idle → Distinct snapshot.items →
    SnapshotEvents objectSize generation topic snapshot = .ok events →
    installSnapshotLocked objectSize world.worker ended fits snapshot events = some worker →
    Step world (.install snapshot)
      { world with worker := worker, watching := true, pending := events }
  /-- The stream is read only after an install, or with a fresh snapshot of the cache. -/
  | change {world : World B} {event : StreamEvent B} {worker : Worker B} {update : Update}
      (fits : Int → Bool) :
    world.Idle → world.watching = true → Change event → event.topic = topic →
    updateSnapshot objectSize topic world.worker fits event = (worker, update) →
    Step world (.change event)
      { world with worker := worker, pending := update.announced generation topic event }
  | bookmark {world : World B} {resourceVersion : String} :
    world.Idle → world.watching = true → resourceVersion ≠ "" →
    Step world (.bookmark resourceVersion)
      { world with worker := bookmark world.worker resourceVersion }
  | notice {world : World B} {event : StreamEvent B} :
    world.Idle → Notice event → event.topic = topic →
    Step world (.notice event) { world with pending := [event] }
  /-- `broadcast` takes the subscribers under the lock. -/
  | broadcast {world : World B} {event : StreamEvent B} {rest : List (StreamEvent B)} :
    world.pending = event :: rest → world.sending = none →
    Step world .broadcast
      { world with pending := rest, sending := some (event, world.subscribers) }
  | deliver {world : World B} {event : StreamEvent B} {left : List Nat} {id : Nat} :
    world.sending = some (event, left) → id ∈ left →
    Step world (.deliver id)
      { world.push objectSize generation topic id event with
        sending := some (event, left.erase id) }
  | delivered {world : World B} {event : StreamEvent B} :
    world.sending = some (event, []) → Step world .delivered { world with sending := none }
  /-- The broadcast of `CancelGeneration` or `Close`, from another goroutine. -/
  | terminal {world : World B} {event : StreamEvent B} {id : Nat} :
    id ∈ world.subscribers → event.event = .reset → event.topic = topic →
    Step world (.terminal id event) (world.push objectSize generation topic id event)
  | next {world : World B} {id : Nat} :
    Step world (.next id)
      { world with
        subscription := update world.subscription id (world.subscription id).Next }
  | close {world : World B} {id : Nat} :
    Step world (.close id)
      { world with
        subscription := update world.subscription id (world.subscription id).close
        subscribers := world.subscribers.erase id }
  | finish {world : World B} :
    Step world .finish
      { world with
        worker := { world.worker with stopping := true }
        subscription := fun id =>
          if id ∈ world.subscribers then (world.subscription id).close else world.subscription id
        subscribers := [] }

structure Start (world : World B) : Prop where
  count : world.count = 0
  subscribers : world.subscribers = []
  idle : world.Idle
  worker : world.worker = Worker.zero B ∧ world.watching = false ∨
    Distinct world.worker.snapshot.items ∧ world.worker.snapshotReady = true ∧
      SnapshotEvents objectSize generation topic world.worker.snapshot = .ok world.worker.initial

end Kubepeep.Watch
