import Mathlib
import Kubepeep.Watch.Served

/-!
# The snapshot budget of a manager

`snapshotFitsLocked` (`internal/services/resources/watch.go`) adds up the sizes of the other workers
of the manager, so here the workers take their steps together.
-/

open Function Kubepeep.System

namespace Kubepeep.Watch

def DefaultWatchSnapshotBytes : Int := 32 * 2 ^ 20

/-- The workers by number; those in `manager.workers` are registered. -/
structure WatchManager (B : Type) where
  workers : Finset Nat
  worker : Nat → Worker B
  maxSnapshotBytes : Int

variable {B : Type}

namespace WatchManager

def SnapshotBytes (m : WatchManager B) : Int := ∑ id ∈ m.workers, (m.worker id).snapshotBytes

def limit (m : WatchManager B) : Int :=
  if m.maxSnapshotBytes ≤ 0 then DefaultWatchSnapshotBytes else m.maxSnapshotBytes

def snapshotFitsLocked (m : WatchManager B) (id : Nat) (size : Int) : Bool :=
  size + ∑ other ∈ m.workers.erase id, (m.worker other).snapshotBytes ≤ m.limit

def set (m : WatchManager B) (id : Nat) (worker : Worker B) : WatchManager B :=
  { m with worker := update m.worker id worker }

end WatchManager

inductive ManagerAction (B : Type) where
  | create (id : Nat)
  | input (id : Nat) (input : WorkerInput B)
  | remove (id : Nat)

section

variable (objectSize : TopicObject B → Nat) (generation : Nat → String) (topic : Nat → Topic)

/-- A worker that is no longer registered may still run.  The snapshot of the cache that `Subscribe`
gives a new worker is an `install`: the budget leaves out the worker itself. -/
inductive ManagerStep : WatchManager B → ManagerAction B → WatchManager B → Prop
  | create {m : WatchManager B} {id : Nat} (hnew : m.worker id = Worker.zero B) :
      ManagerStep m (.create id) { m with workers := insert id m.workers }
  | install {m : WatchManager B} {id : Nat} {next : Worker B}
      {snapshot : WatchSnapshot (TopicObject B)} {events : List (StreamEvent B)} (ended : Bool)
      (hinstall : installSnapshotLocked objectSize (m.worker id) ended (m.snapshotFitsLocked id)
        snapshot events = some next) :
      ManagerStep m (.input id (.install snapshot)) (m.set id next)
  | change {m : WatchManager B} {id : Nat} {next : Worker B} {change : WatchChange B}
      {event : StreamEvent B} {update : Update}
      (hchange : watchChangeEvent objectSize (generation id) (topic id) change = .ok event)
      (hupdate : updateSnapshot objectSize (topic id) (m.worker id) (m.snapshotFitsLocked id)
        event = (next, update)) :
      ManagerStep m (.input id (.change event)) (m.set id next)
  | bookmark {m : WatchManager B} {id : Nat} {resourceVersion : String} :
      ManagerStep m (.input id (.bookmark resourceVersion))
        (m.set id (bookmark (m.worker id) resourceVersion))
  | subscribe {m : WatchManager B} {id : Nat} {events : List (StreamEvent B)}
      (hevents : initialEvents objectSize (generation id) (topic id) (m.worker id) = .ok events) :
      ManagerStep m (.input id .subscribe) (m.set id { m.worker id with initial := events })
  | stop {m : WatchManager B} {id : Nat} :
      ManagerStep m (.input id .stop) (m.set id { m.worker id with stopping := true })
  | remove {m : WatchManager B} {id : Nat} :
      ManagerStep m (.remove id) { m with workers := m.workers.erase id }

end

/-! ## One worker -/

/-- Without a snapshot the size is zero. -/
structure Tracked (objectSize : TopicObject B → Nat) (worker : Worker B) : Prop where
  few : worker.snapshot.items.length ≤ MaximumSnapshotItems
  size : worker.snapshotBytes =
    if worker.snapshotReady then (itemsSize objectSize worker.snapshot.items : Int) else 0

def Charged (fits : Int → Bool) (worker next : Worker B) : Prop :=
  next.snapshotBytes ≤ worker.snapshotBytes ∨ fits next.snapshotBytes = true

variable {objectSize : TopicObject B → Nat} {worker next : Worker B} {fits : Int → Bool}

theorem Tracked.nonneg (h : Tracked objectSize worker) : 0 ≤ worker.snapshotBytes := by
  rw [h.size]
  split <;> omega

theorem tracked_zero : Tracked objectSize (Worker.zero B) := ⟨Nat.zero_le _, rfl⟩

theorem installSnapshotLocked_tracked {ended : Bool} {snapshot : WatchSnapshot (TopicObject B)}
    {events : List (StreamEvent B)}
    (h : installSnapshotLocked objectSize worker ended fits snapshot events = some next) :
    Tracked objectSize next ∧ Charged fits worker next := by
  unfold installSnapshotLocked at h
  dsimp only at h
  split at h
  · cases h
  split at h
  · cases h
  next hlimits =>
  obtain rfl := Option.some.inj h
  rw [not_or, not_or, Nat.not_lt, Bool.not_eq_false] at hlimits
  exact ⟨⟨hlimits.1, rfl⟩, .inr hlimits.2.2⟩

theorem updateSnapshot_tracked {topic : Topic} {event : StreamEvent B} {update : Update}
    (h : Tracked objectSize worker) (hsize : ∀ object, 0 < objectSize object)
    (hevent : Converted topic event)
    (hupdate : updateSnapshot objectSize topic worker fits event = (next, update)) :
    Tracked objectSize next ∧ Charged fits worker next := by
  have hnone : Charged fits worker (⟨⟨"", []⟩, 0, false, [], true⟩ : Worker B) := .inl h.nonneg
  have hbytes : (itemsSize objectSize (applyStreamEventToSnapshot topic worker.snapshot event).items
      : Int) = itemsSize objectSize worker.snapshot.items +
        snapshotEventSizeDelta objectSize topic worker.snapshot event := by
    rcases hevent with ⟨hkind, object, hobject, _⟩ | hkind
    · exact (apply_object hkind hobject (hsize object)).2
    · exact (apply_deleted hkind).2
  unfold updateSnapshot at hupdate
  split at hupdate
  · obtain ⟨rfl, -⟩ := Prod.mk.inj hupdate
    exact ⟨h, .inl le_rfl⟩
  split at hupdate
  · obtain ⟨rfl, -⟩ := Prod.mk.inj hupdate
    exact ⟨h, .inl le_rfl⟩
  next hready =>
  have hexact : worker.snapshotBytes = itemsSize objectSize worker.snapshot.items := by
    rw [h.size, if_pos (by simpa using hready)]
  simp only [hexact, ite_self] at hupdate
  split at hupdate
  · obtain ⟨rfl, -⟩ := Prod.mk.inj hupdate
    exact ⟨⟨Nat.zero_le _, rfl⟩, hnone⟩
  next hlimits =>
  obtain ⟨rfl, -⟩ := Prod.mk.inj hupdate
  rw [not_or, not_or, Nat.not_lt, Bool.not_eq_false] at hlimits
  refine ⟨⟨hlimits.1, ?_⟩, .inr hlimits.2.2⟩
  dsimp only
  rw [if_pos (by simpa using hready), hbytes]

/-! ## All workers -/

namespace WatchManager

structure Budgeted (objectSize : TopicObject B → Nat) (m : WatchManager B) : Prop where
  tracked : ∀ id, Tracked objectSize (m.worker id)
  total : m.SnapshotBytes ≤ m.limit

variable {m : WatchManager B} {id : Nat}

theorem Budgeted.set (h : Budgeted objectSize m) (hnext : Tracked objectSize next)
    (hcharged : Charged (m.snapshotFitsLocked id) (m.worker id) next) :
    Budgeted objectSize (m.set id next) := by
  refine ⟨(forall_update_iff m.worker fun _ worker => Tracked objectSize worker).mpr
    ⟨hnext, fun other _ => h.tracked other⟩, ?_⟩
  have hothers : ∀ other ≠ id, (m.set id next).worker other = m.worker other := fun other hne =>
    update_of_ne hne ..
  have hself : (m.set id next).worker id = next := update_self ..
  have htotal := h.total
  change ∑ other ∈ m.workers, ((m.set id next).worker other).snapshotBytes ≤ m.limit
  unfold SnapshotBytes at htotal
  by_cases hid : id ∈ m.workers
  · rw [← Finset.add_sum_erase _ _ hid] at htotal ⊢
    rw [hself, Finset.sum_congr rfl fun other hother => by
      rw [hothers other (Finset.ne_of_mem_erase hother)]]
    rcases hcharged with hless | hfits
    · omega
    · exact of_decide_eq_true hfits
  · rwa [Finset.sum_congr rfl fun other hother => by
      rw [hothers other (ne_of_mem_of_not_mem hother hid)]]

end WatchManager

open WatchManager

theorem ManagerStep.budgeted {generation : Nat → String} {topic : Nat → Topic}
    {m after : WatchManager B} {action : ManagerAction B}
    (hsize : ∀ object, 0 < objectSize object) (h : Budgeted objectSize m)
    (hstep : ManagerStep objectSize generation topic m action after) :
    Budgeted objectSize after := by
  -- The fields that the size depends on are left alone.
  have hkept : ∀ id next, next.snapshot.items = (m.worker id).snapshot.items →
      next.snapshotBytes = (m.worker id).snapshotBytes →
      next.snapshotReady = (m.worker id).snapshotReady → Budgeted objectSize (m.set id next) := by
    intro id next hitems hbytes hready
    have hworker := h.tracked id
    refine h.set ⟨hitems ▸ hworker.few, ?_⟩ (.inl hbytes.le)
    rw [hbytes, hready, hitems, hworker.size]
  cases hstep with
  | create hnew =>
    refine ⟨h.tracked, (Finset.sum_insert_of_eq_zero_if_notMem fun _ => ?_).trans_le h.total⟩
    rw [hnew]
    rfl
  | install ended hinstall =>
    have hinstalled := installSnapshotLocked_tracked hinstall
    exact h.set hinstalled.1 hinstalled.2
  | change hchange hupdate =>
    have hupdated := updateSnapshot_tracked (h.tracked _) hsize
      (watchChangeEvent_converted hchange) hupdate
    exact h.set hupdated.1 hupdated.2
  | bookmark =>
    unfold Watch.bookmark
    split
    · exact hkept _ _ rfl rfl rfl
    · exact hkept _ _ rfl rfl rfl
  | subscribe _ => exact hkept _ _ rfl rfl rfl
  | stop => exact hkept _ _ rfl rfl rfl
  | remove =>
    refine ⟨h.tracked, le_trans ?_ h.total⟩
    exact Finset.sum_le_sum_of_subset_of_nonneg (Finset.erase_subset ..) fun other _ _ =>
      (h.tracked other).nonneg

def newWatchManager (B : Type) (maxSnapshotBytes : Int) : WatchManager B :=
  ⟨∅, fun _ => Worker.zero B, maxSnapshotBytes⟩

/-- In every run the sizes are exact and within the budget. -/
theorem snapshotBytes_exact (hsize : ∀ object, 0 < objectSize object)
    {generation : Nat → String} {topic : Nat → Topic} {maxSnapshotBytes : Int}
    {actions : List (ManagerAction B)} {m : WatchManager B}
    (hrun : Runs (ManagerStep objectSize generation topic) (newWatchManager B maxSnapshotBytes)
      actions m) :
    (∀ id, (m.worker id).snapshotReady = true →
      (m.worker id).snapshotBytes = 2 + ((m.worker id).snapshot.items.map objectSize).sum +
        (((m.worker id).snapshot.items.length - 1 : Nat) : Int)) ∧
    (∀ id, (m.worker id).snapshot.items.length ≤ MaximumSnapshotItems) ∧
    m.SnapshotBytes ≤ m.limit := by
  have hstart : Budgeted objectSize (newWatchManager B maxSnapshotBytes) := by
    refine ⟨fun _ => tracked_zero, ?_⟩
    unfold limit DefaultWatchSnapshotBytes
    change 0 ≤ if maxSnapshotBytes ≤ 0 then _ else maxSnapshotBytes
    split <;> omega
  have h := hrun.invariant hstart fun h hstep => hstep.budgeted hsize h
  refine ⟨fun id hready => ?_, fun id => (h.tracked id).few, h.total⟩
  rw [(h.tracked id).size, if_pos hready, itemsSize_eq]

def weighedPod (name : String) (weight : Nat) : TopicObject Nat :=
  ⟨.PodDTO ⟨"shop", name, weight⟩, false⟩

def weigh (object : TopicObject Nat) : Nat :=
  match object.dto with
  | .PodDTO pod => pod.body + 50
  | _ => 50

def weighedChange (kind : ChangeType) (name : String) (weight : Nat) : WatchChange Nat :=
  if kind = .deleted then
    { type := kind, deleted := some ⟨"", "Pod", "shop", name, ""⟩, resourceVersion := "2" }
  else { type := kind, object := some (weighedPod name weight), resourceVersion := "2" }

def weighedEvent (event : EventType) (name : String) (weight : Nat) : StreamEvent Nat :=
  if event = .deleted then
    { event := event, topic := .TopicPods, generation := "g1", resourceVersion := "2"
      deleted := some ⟨"", "Pod", "shop", name, ""⟩ }
  else
    { event := event, topic := .TopicPods, generation := "g1", resourceVersion := "2"
      object := some (weighedPod name weight) }

/-- Two workers: one has a pod, the other gets two, then a third, a heavier version of the first and
the deletion of the second. -/
theorem snapshotBytes_exact_pods : ∃ m : WatchManager Nat,
    Runs (ManagerStep weigh (fun _ => "g1") fun _ => .TopicPods) (newWatchManager Nat 300)
      [.create 0, .create 1, .input 1 (.install ⟨"1", [weighedPod "db" 10]⟩),
        .input 0 (.install ⟨"1", [weighedPod "web" 50, weighedPod "api" 0]⟩),
        .input 0 (.change (weighedEvent .added "cron" 0)),
        .input 0 (.change (weighedEvent .modified "web" 70)),
        .input 0 (.change (weighedEvent .deleted "api" 0))] m ∧
    (m.worker 0).snapshot.items = [weighedPod "web" 70, weighedPod "cron" 0] ∧
    (m.worker 0).snapshotBytes = 2 + (120 + 50) + 1 ∧
    m.SnapshotBytes = 173 + 62 ∧ m.SnapshotBytes ≤ m.limit := by
  apply runs_with
  apply runs_cons (.create rfl)
  apply runs_cons (.create rfl)
  apply runs_cons (@ManagerStep.install _ _ _ _ _ _ _ _ [] false rfl)
  apply runs_cons (@ManagerStep.install _ _ _ _ _ _ _ _ [] false rfl)
  apply runs_cons (@ManagerStep.change _ _ _ _ _ _ _ (weighedChange .added "cron" 0) _ .active
    (by decide +kernel) rfl)
  apply runs_cons (@ManagerStep.change _ _ _ _ _ _ _ (weighedChange .modified "web" 70) _ .active
    (by decide +kernel) rfl)
  apply runs_cons (@ManagerStep.change _ _ _ _ _ _ _ (weighedChange .deleted "api" 0) _ .active
    (by decide +kernel) rfl)
  refine ⟨_, .nil _, fun hrun => ⟨by decide, ?_⟩⟩
  have h := snapshotBytes_exact (fun object => by unfold weigh; split <;> omega) hrun
  exact ⟨h.1 0 rfl, by decide, h.2.2⟩

end Kubepeep.Watch
