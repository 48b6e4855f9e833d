import Kubepeep.Watch.Subscription

/-!
# Every sequence of pushes and reads

What a reader of a subscription has got and will get folds to the same map as all events that the
subscription accepted, although a queued change may have been replaced.  The byte counter is the sum
of the queued events, and both limits hold.
-/

open List

namespace Kubepeep.Watch

section

variable {B : Type} {objectSize : TopicObject B → Nat}

/-! ## Bytes -/

def queuedBytes (queue : List (QueuedEvent B)) : Int :=
  (queue.map fun item => (item.bytes : Int)).sum

@[simp] theorem queuedBytes_reverse (queue : List (QueuedEvent B)) :
    queuedBytes queue.reverse = queuedBytes queue := by
  rw [queuedBytes, map_reverse, sum_reverse, queuedBytes]

theorem coalesce_bytes {identity : String} {item old : QueuedEvent B}
    {queue next : List (QueuedEvent B)} (h : coalesce identity item queue = some (next, old)) :
    next.length = queue.length ∧
      queuedBytes next = queuedBytes queue + (item.bytes - old.bytes) := by
  obtain ⟨later, earlier, rfl, rfl, -⟩ := coalesce_eq_some h
  simp only [length_append, length_cons, queuedBytes, map_append, map_cons, sum_append, sum_cons,
    true_and]
  omega

structure QueueBounds (objectSize : TopicObject B → Nat) (subscription : Subscription B) :
    Prop where
  bytes : subscription.bytes = queuedBytes subscription.queue
  sizes : ∀ item ∈ subscription.queue, item.bytes = item.event.wireBytes objectSize
  limit : subscription.bytes ≤ MaximumStreamQueueBytes
  few : subscription.queue.length ≤ MaximumStreamQueueEvents

theorem QueueBounds.next {subscription : Subscription B} (h : QueueBounds objectSize subscription) :
    QueueBounds objectSize subscription.Next := by
  unfold Subscription.Next
  cases hqueue : subscription.queue with
  | nil => exact h
  | cons item rest =>
    have hbytes := h.bytes
    have hfew := h.few
    have hlimit := h.limit
    have hsizes := h.sizes
    rw [hqueue] at hbytes hfew hsizes
    simp only [queuedBytes, map_cons, sum_cons, length_cons] at hbytes hfew
    refine ⟨?_, fun other hother => hsizes other (mem_cons_of_mem _ hother), ?_, ?_⟩
    · show subscription.bytes - item.bytes = queuedBytes rest
      rw [hbytes, queuedBytes]
      omega
    · show subscription.bytes - item.bytes ≤ _
      omega
    · exact Nat.le_of_succ_le hfew

theorem QueueBounds.push {subscription next : Subscription B} {event : StreamEvent B}
    (h : QueueBounds objectSize subscription)
    (hpush : subscription.push objectSize event = (next, true)) :
    QueueBounds objectSize next := by
  unfold Subscription.push at hpush
  dsimp only at hpush
  split at hpush
  · cases hpush
  split at hpush
  · cases hpush
  split at hpush
  · next queue old hcoalesce =>
    obtain ⟨identity, -, hcoalesce⟩ := Option.bind_eq_some_iff.mp hcoalesce
    split at hpush
    · cases hpush
    next hroom =>
    obtain ⟨rfl, -⟩ := Prod.mk.inj hpush
    obtain ⟨hlength, hbytes⟩ := coalesce_bytes hcoalesce
    obtain ⟨-, hfrom⟩ := Subscription.coalesce_mem hcoalesce
    refine ⟨?_, ?_, ?_, ?_⟩
    · rw [queuedBytes_reverse, hbytes, queuedBytes_reverse, h.bytes]
    · intro item hitem
      rcases hfrom item (mem_reverse.mp hitem) with rfl | hold
      · rfl
      · exact h.sizes item (mem_reverse.mp hold)
    · dsimp only at hroom ⊢
      omega
    · rw [length_reverse, hlength, length_reverse]
      exact h.few
  · unfold Subscription.append at hpush
    split at hpush
    · cases hpush
    next hroom =>
    obtain ⟨hfew, hlimit⟩ := not_or.mp hroom
    obtain ⟨rfl, -⟩ := Prod.mk.inj hpush
    refine ⟨?_, ?_, Int.not_lt.mp hlimit, ?_⟩
    · simp [queuedBytes, h.bytes]
    · intro item hitem
      rcases mem_append.mp hitem with hold | hnew
      · exact h.sizes item hold
      · rw [mem_singleton.mp hnew]
    · rw [length_append, length_singleton]
      exact Nat.not_le.mp hfew

/-! ## Runs -/

inductive QueueAction (B : Type) where
  | push (event : StreamEvent B)
  | next

structure Accepting (B : Type) where
  subscription : Subscription B
  accepted : List (StreamEvent B)

def Accepting.act (objectSize : TopicObject B → Nat) (state : Accepting B) :
    QueueAction B → Accepting B
  | .push event =>
    match state.subscription.push objectSize event with
    | (next, true) => ⟨next, state.accepted ++ [event]⟩
    | (next, false) => ⟨next, state.accepted⟩
  | .next => ⟨state.subscription.Next, state.accepted⟩

/-- What is delivered and queued folds to the same map as what was accepted. -/
structure Coalesced (objectSize : TopicObject B → Nat) (topic : Topic) (state : Accepting B) :
    Prop where
  bounds : QueueBounds objectSize state.subscription
  topics : ∀ item ∈ state.subscription.queue, item.event.topic = topic
  view : state.subscription.view = View.empty.applyAll state.accepted

theorem Coalesced.act {topic : Topic} {state : Accepting B} (h : Coalesced objectSize topic state)
    {action : QueueAction B} (htopic : ∀ event, action = .push event → event.topic = topic) :
    Coalesced objectSize topic (state.act objectSize action) := by
  cases action with
  | next =>
    refine ⟨h.bounds.next, fun item hitem => h.topics item ?_, ?_⟩
    · revert hitem
      unfold Accepting.act Subscription.Next
      cases hqueue : state.subscription.queue with
      | nil =>
        rw [hqueue]
        exact id
      | cons first rest => exact mem_cons_of_mem first
    · show Subscription.view state.subscription.Next = _
      rw [Subscription.view, Subscription.delivered_Next]
      exact h.view
  | push event =>
    have hevent := htopic event rfl
    unfold Accepting.act
    dsimp only
    cases hpush : state.subscription.push objectSize event with
    | mk next accepted =>
      cases accepted with
      | true =>
        have hspec := Subscription.push_spec objectSize
          (fun item hitem => (h.topics item hitem).trans hevent.symm) hpush
        refine ⟨h.bounds.push hpush, fun item hitem => (hspec.topic item hitem).trans hevent, ?_⟩
        rw [hspec.view, h.view, View.applyAll_append]
        rfl
      | false =>
        rw [Subscription.push_refused objectSize hpush]
        exact h

theorem Coalesced.run {topic : Topic} {actions : List (QueueAction B)} :
    ∀ {state : Accepting B}, Coalesced objectSize topic state →
      (∀ event, .push event ∈ actions → event.topic = topic) →
      Coalesced objectSize topic (actions.foldl (Accepting.act objectSize) state) := by
  induction actions with
  | nil => exact fun h _ => h
  | cons action rest ih =>
    intro state h htopic
    refine ih (h.act ?_) fun event hevent => htopic event (mem_cons_of_mem _ hevent)
    rintro event rfl
    exact htopic event mem_cons_self

/-- For every sequence of pushes of one topic and reads. -/
theorem queue_coalesces {topic : Topic} (actions : List (QueueAction B))
    (htopic : ∀ event, .push event ∈ actions → event.topic = topic) :
    Coalesced objectSize topic
      (actions.foldl (Accepting.act objectSize) ⟨newSubscription B, []⟩) :=
  Coalesced.run ⟨⟨rfl, by simp [newSubscription], Int.natCast_nonneg _, Nat.zero_le _⟩,
    by simp [newSubscription], rfl⟩ htopic

end

/-- An object is added, changed while it is queued, read, and deleted. -/
def changingPod : List (QueueAction Unit) :=
  let pod : TopicObject Unit := ⟨.PodDTO ⟨"shop", "web", ()⟩, false⟩
  [.push { event := .added, topic := .TopicPods, generation := "g1", object := some pod },
    .push { event := .modified, topic := .TopicPods, generation := "g1", object := some pod },
    .next,
    .push { event := .deleted, topic := .TopicPods, generation := "g1"
            deleted := some ⟨"", "Pod", "shop", "web", ""⟩ }]

theorem queue_coalesces_changingPod :
    (changingPod.foldl (Accepting.act fun _ => 100)
        ⟨newSubscription Unit, []⟩).accepted.length = 3 ∧
      Coalesced (fun _ => 100) .TopicPods
        (changingPod.foldl (Accepting.act fun _ => 100) ⟨newSubscription Unit, []⟩) := by
  refine ⟨by decide +kernel, queue_coalesces changingPod ?_⟩
  intro event hevent
  simp only [changingPod, List.mem_cons, QueueAction.push.injEq, reduceCtorEq, false_or,
    List.not_mem_nil, or_false] at hevent
  rcases hevent with rfl | rfl | rfl <;> rfl

end Kubepeep.Watch
