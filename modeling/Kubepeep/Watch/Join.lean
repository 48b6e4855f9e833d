import Kubepeep.Watch.Replica

/-!
# Joining a worker that has a snapshot

`Subscribe` queues all chunks of the snapshot before the caller can read one of them.  A snapshot
may have ten mebibytes and a queue one, so whether the chunks fit is a condition of its own.
-/

open List Function Kubepeep.System

namespace Kubepeep.Watch

section

variable {B : Type} (objectSize : TopicObject B → Nat)

def totalBytes (events : List (StreamEvent B)) : Nat :=
  (events.map fun event => event.wireBytes objectSize).sum

structure FitsQueue (events : List (StreamEvent B)) : Prop where
  each : ∀ event ∈ events, event.wireBytes objectSize ≤ MaximumStreamEventBytes
  count : events.length ≤ MaximumStreamQueueEvents
  bytes : totalBytes objectSize events ≤ MaximumStreamQueueBytes

def filled (events : List (StreamEvent B)) : Subscription B :=
  { queue := events.map fun event => ⟨event, event.wireBytes objectSize⟩
    bytes := totalBytes objectSize events
    closed := false
    consumed := [] }

variable {objectSize} {generation : String} {topic : Topic}

theorem totalBytes_append (first second : List (StreamEvent B)) :
    totalBytes objectSize (first ++ second) =
      totalBytes objectSize first + totalBytes objectSize second := by
  simp [totalBytes]

theorem totalBytes_singleton (event : StreamEvent B) :
    totalBytes objectSize [event] = event.wireBytes objectSize := by
  simp [totalBytes]

theorem FitsQueue.of_append {first second : List (StreamEvent B)}
    (h : FitsQueue objectSize (first ++ second)) : FitsQueue objectSize first where
  each event hevent := h.each event (mem_append_left _ hevent)
  count := by
    have hcount := h.count
    rw [length_append] at hcount
    omega
  bytes := by
    have hbytes := h.bytes
    rw [totalBytes_append] at hbytes
    omega

theorem filled_delivered (events : List (StreamEvent B)) :
    (filled objectSize events).delivered = events := by
  simp [filled, Subscription.delivered, comp_def]

theorem filled_push {sent : List (StreamEvent B)} {event : StreamEvent B}
    (hevent : event.event = .snapshot) (hsent : FitsQueue objectSize sent) :
    FitsQueue objectSize (sent ++ [event]) ∧
        (filled objectSize sent).push objectSize event =
          (filled objectSize (sent ++ [event]), true) ∨
      ¬ FitsQueue objectSize (sent ++ [event]) ∧
        (filled objectSize sent).push objectSize event = (filled objectSize sent, false) := by
  have hidentity : streamEventIdentity event = none := by
    unfold streamEventIdentity
    rw [hevent]
    simp
  unfold Subscription.push
  by_cases hlarge : event.wireBytes objectSize > MaximumStreamEventBytes
  · rw [if_pos hlarge]
    refine .inr ⟨fun hfits => ?_, rfl⟩
    have hsmall := hfits.each event (by simp)
    omega
  rw [if_neg hlarge, if_neg (by simp [filled]), hidentity]
  show _ ∧ (filled objectSize sent).append _ = _ ∨ _ ∧ (filled objectSize sent).append _ = _
  unfold Subscription.append
  split_ifs with hfull
  · refine .inr ⟨fun hfits => ?_, rfl⟩
    have hcount := hfits.count
    have hbytes := hfits.bytes
    rw [length_append, length_singleton] at hcount
    rw [totalBytes_append, totalBytes_singleton] at hbytes
    simp only [filled, length_map] at hfull
    omega
  · simp only [filled, length_map] at hfull
    refine .inl ⟨⟨fun other hother => ?_, ?_, ?_⟩, ?_⟩
    · rcases mem_append.mp hother with hother | hother
      · exact hsent.each other hother
      · rw [mem_singleton.mp hother]
        omega
    · rw [length_append, length_singleton]
      omega
    · rw [totalBytes_append, totalBytes_singleton]
      omega
    · simp [filled, totalBytes_append, totalBytes_singleton]

/-- The pushes of `Subscribe`: all chunks are queued, or those before the first that does not
fit. -/
theorem filled_pushAll {events : List (StreamEvent B)}
    (hevents : ∀ event ∈ events, event.event = .snapshot) :
    ∀ {sent : List (StreamEvent B)}, FitsQueue objectSize sent →
      FitsQueue objectSize (sent ++ events) ∧ (filled objectSize sent).pushAll objectSize events =
          (filled objectSize (sent ++ events), true) ∨
        ¬ FitsQueue objectSize (sent ++ events) ∧ ∃ queued,
          (filled objectSize sent).pushAll objectSize events =
            (filled objectSize queued, false) := by
  induction events with
  | nil =>
    intro sent hsent
    rw [append_nil]
    exact .inl ⟨hsent, rfl⟩
  | cons event rest ih =>
    intro sent hsent
    obtain ⟨hevent, hrest⟩ := forall_mem_cons.mp hevents
    rw [append_cons]
    unfold Subscription.pushAll
    rcases filled_push hevent hsent with ⟨hfits, hpush⟩ | ⟨hfull, hpush⟩
    · rw [hpush]
      exact ih hrest hfits
    · rw [hpush]
      exact .inr ⟨fun hfits => hfull hfits.of_append, sent, rfl⟩

theorem Subscription.consumed_iterate_Next (count : Nat) : ∀ subscription : Subscription B,
    (Next^[count] subscription).consumed =
      subscription.consumed ++ (subscription.queue.take count).map QueuedEvent.event := by
  induction count with
  | zero => simp
  | succ count ih =>
    intro subscription
    rw [iterate_succ_apply, ih]
    unfold Next
    cases hqueue : subscription.queue with
    | nil => simp [hqueue]
    | cons item rest => simp

/-- In every run, of a worker with a snapshot: a new subscriber can read all its chunks, and no
reset takes their place, exactly if the chunks fit an empty queue. -/
theorem subscribe_reads_snapshot_iff {start world next : World B} {actions : List (Action B)}
    {events : List (StreamEvent B)} (hstart : Start objectSize generation topic start)
    (hrun : Runs (Step objectSize generation topic) start actions world)
    (hready : world.worker.snapshotReady = true)
    (hevents : SnapshotEvents objectSize generation topic world.worker.snapshot = .ok events)
    (hstep : Step objectSize generation topic world .subscribe next) :
    (Subscription.Next^[events.length] (next.subscription world.count)).consumed = events ∧
        (∀ event ∈ (next.subscription world.count).delivered, event.reason ≠ "slow_consumer") ↔
      FitsQueue objectSize events := by
  have hinv : Inv objectSize generation topic world :=
    hrun.invariant hstart.inv fun h hstep => hstep.inv h
  have hchunked := SnapshotEvents_chunked hevents
  cases hstep with
  | @subscribe initial hinitial =>
    -- What the worker keeps for new subscribers is `SnapshotEvents` of its snapshot.
    obtain ⟨hempty, hkept⟩ := hinv.worker.initialEvents hinitial
    have hsame : initial = events := by
      have hnil : initial ≠ [] := fun hnil => absurd (hready.symm.trans (hempty hnil)) (by simp)
      exact Except.ok.inj ((hkept hnil).symm.trans hevents)
    subst hsame
    have hjoin := filled_pushAll (fun event hevent => (hchunked.snapshot event hevent).1)
      (⟨by simp, by simp, by simp [totalBytes]⟩ : FitsQueue objectSize [])
    rw [List.nil_append, show filled objectSize [] = newSubscription B from rfl] at hjoin
    unfold World.subscribe
    dsimp only
    rw [Function.update_self]
    rcases hjoin with ⟨hfits, hjoin⟩ | ⟨hfull, queued, hjoin⟩
    · rw [hjoin, if_pos rfl, filled_delivered, Subscription.consumed_iterate_Next]
      refine iff_of_true ⟨?_, fun event hevent => ?_⟩ hfits
      · simp [filled, List.take_of_length_le, Function.comp_def]
      · rw [(hchunked.snapshot event hevent).2]
        decide
    · rw [hjoin, if_neg (by simp)]
      refine iff_of_false ?_ hfull
      rintro ⟨-, hquiet⟩
      exact hquiet (resetEvent generation topic "slow_consumer")
        (by simp [filled, Subscription.forceTerminal, Subscription.delivered]) rfl

end

def webSlice (i : Nat) : TopicObject Unit :=
  ⟨.EndpointSliceDTO ⟨"shop", "web-" ++ i.repr, ()⟩, false⟩

def slicesWorld (count : Nat) : World Unit :=
  let slices := (range count).map webSlice
  let chunks := (range count).map fun i =>
    chunkEvent "g1" .TopicEndpointSlices "7" i [webSlice i] (i + 1 == count)
  { worker := ⟨⟨"7", slices⟩, itemsSize (fun _ => 60000) slices, true, chunks, false⟩
    watching := true
    subscription := fun _ => newSubscription Unit
    count := 0
    subscribers := []
    pending := []
    sending := none }

/-- Eighteen of them are within every limit of a snapshot, and a new subscriber gets only a
reset. -/
theorem subscribe_slices_reset :
    Start (fun _ => 60000) "g1" .TopicEndpointSlices (slicesWorld 18) ∧
      (slicesWorld 18).worker.snapshotReady = true ∧
      (slicesWorld 18).worker.snapshot.items.length ≤ MaximumSnapshotItems ∧
      itemsSize (fun _ => 60000) (slicesWorld 18).worker.snapshot.items ≤ MaximumSnapshotBytes ∧
      SnapshotEvents (fun _ => 60000) "g1" .TopicEndpointSlices (slicesWorld 18).worker.snapshot =
        .ok (slicesWorld 18).worker.initial ∧
      ∃ next, Step (fun _ => 60000) "g1" .TopicEndpointSlices (slicesWorld 18) .subscribe next ∧
        (next.subscription 0).delivered =
          [resetEvent "g1" .TopicEndpointSlices "slow_consumer"] := by
  have hevents : SnapshotEvents (fun _ => 60000) "g1" .TopicEndpointSlices
      (slicesWorld 18).worker.snapshot = .ok (slicesWorld 18).worker.initial := by
    decide +kernel
  refine ⟨⟨rfl, rfl, ⟨rfl, rfl⟩, .inr ⟨by decide +kernel, rfl, hevents⟩⟩, rfl, by decide,
    by decide, hevents, _, .subscribe rfl, ?_⟩
  decide +kernel

theorem subscribe_reads_slices :
    ∃ next, Step (fun _ => 60000) "g1" .TopicEndpointSlices (slicesWorld 2) .subscribe next ∧
      (Subscription.Next^[2] (next.subscription 0)).consumed = (slicesWorld 2).worker.initial := by
  have hevents : SnapshotEvents (fun _ => 60000) "g1" .TopicEndpointSlices
      (slicesWorld 2).worker.snapshot = .ok (slicesWorld 2).worker.initial := by
    decide +kernel
  have hstart : Start (fun _ => 60000) "g1" .TopicEndpointSlices (slicesWorld 2) :=
    ⟨rfl, rfl, ⟨rfl, rfl⟩, .inr ⟨by decide +kernel, rfl, hevents⟩⟩
  have hfits : FitsQueue (fun _ => 60000) (slicesWorld 2).worker.initial :=
    ⟨by decide +kernel, by decide, by decide +kernel⟩
  refine ⟨_, .subscribe rfl, ?_⟩
  exact ((subscribe_reads_snapshot_iff hstart (.nil _) rfl hevents (.subscribe rfl)).mpr hfits).1

end Kubepeep.Watch
