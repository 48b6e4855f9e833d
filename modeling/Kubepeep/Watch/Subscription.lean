import Kubepeep.Watch.Snapshot

/-!
# The queue of a subscription

`Subscription` (`internal/services/resources/watch.go`).  A change of an object replaces the queued
change of the same object, if no snapshot has been queued since; reading the queue in order then
gives the same map as reading every event that was pushed.
-/

open Option List Function

namespace Kubepeep.Watch

variable {B : Type} (objectSize : TopicObject B → Nat)

structure QueuedEvent (B : Type) where
  event : StreamEvent B
  bytes : Nat
  deriving DecidableEq, Repr

/-- `consumed` records what `Next` has returned so far. -/
structure Subscription (B : Type) where
  queue : List (QueuedEvent B)
  bytes : Int
  closed : Bool
  consumed : List (StreamEvent B)
  deriving DecidableEq, Repr

def newSubscription (B : Type) : Subscription B := ⟨[], 0, false, []⟩

namespace Subscription

/-- `Next` with a queued event. -/
def Next (subscription : Subscription B) : Subscription B :=
  match subscription.queue with
  | [] => subscription
  | item :: rest =>
    { subscription with
      queue := rest
      bytes := subscription.bytes - item.bytes
      consumed := subscription.consumed ++ [item.event] }

end Subscription

def streamEventIdentity (event : StreamEvent B) : Option String :=
  if event.topic = .TopicEvents then
    none
  else
    let identity :=
      match event.event with
      | .added | .modified => topicObjectIdentity event.object
      | .deleted => resourceRefIdentity event.topic event.deleted
      | _ => none
    identity.map fun identity => event.topic.text ++ "\x00" ++ identity

/-- The loop from the end of the queue, which is given in reverse: the queue with the new event in
the place of the old one, and the old one. -/
def coalesce (identity : String) (item : QueuedEvent B) :
    List (QueuedEvent B) → Option (List (QueuedEvent B) × QueuedEvent B)
  | [] => none
  | last :: before =>
    if last.event.event = .snapshot ∧ last.event.topic = item.event.topic then
      none
    else if streamEventIdentity last.event = some identity then
      some (item :: before, last)
    else
      (coalesce identity item before).map fun (queue, old) => (last :: queue, old)

namespace Subscription

variable (subscription : Subscription B)

/-- The end of `push`: nothing was replaced. -/
def append (item : QueuedEvent B) : Subscription B × Bool :=
  if subscription.queue.length ≥ MaximumStreamQueueEvents ∨
      subscription.bytes + item.bytes > MaximumStreamQueueBytes then
    (subscription, false)
  else
    ({ subscription with
      queue := subscription.queue ++ [item]
      bytes := subscription.bytes + item.bytes }, true)

def push (event : StreamEvent B) : Subscription B × Bool :=
  let item : QueuedEvent B := ⟨event, event.wireBytes objectSize⟩
  if item.bytes > MaximumStreamEventBytes then
    (subscription, false)
  else if subscription.closed then
    (subscription, false)
  else
    match (streamEventIdentity event).bind fun identity =>
      coalesce identity item subscription.queue.reverse with
    | some (queue, old) =>
      if subscription.bytes - old.bytes + item.bytes > MaximumStreamQueueBytes then
        (subscription, false)
      else
        ({ subscription with
          queue := queue.reverse
          bytes := subscription.bytes + (item.bytes - old.bytes) }, true)
    | none => subscription.append item

def forceTerminal (event : StreamEvent B) : Subscription B :=
  if subscription.closed then
    subscription
  else
    let wireBytes := event.wireBytes objectSize
    { subscription with queue := [⟨event, wireBytes⟩], bytes := wireBytes, closed := true }

/-- The flag of `Close`; the worker removes the subscription. -/
def close : Subscription B :=
  { subscription with closed := true }

def delivered : List (StreamEvent B) :=
  subscription.consumed ++ subscription.queue.map QueuedEvent.event

def view : View B :=
  View.empty.applyAll subscription.delivered

@[simp] theorem delivered_Next :
    subscription.Next.delivered = subscription.delivered := by
  unfold Next
  cases hqueue : subscription.queue with
  | nil => rfl
  | cons item rest => simp [delivered, hqueue]

end Subscription

def chunksOf (events : List (StreamEvent B)) : List (StreamEvent B) :=
  events.filter fun event => event.event = .snapshot

/-! ## Replacing a queued change -/

variable {event : StreamEvent B} {identity : String}

section

variable (h : streamEventIdentity event = some identity)

include h

theorem streamEventIdentity_eq_some :
    event.topic ≠ .TopicEvents ∧ ∃ key, identity = event.topic.text ++ "\x00" ++ key ∧
      ((event.event = .added ∨ event.event = .modified) ∧
          topicObjectIdentity event.object = some key ∨
        event.event = .deleted ∧ resourceRefIdentity event.topic event.deleted = some key) := by
  unfold streamEventIdentity at h
  split at h
  · cases h
  · next htopic =>
    refine ⟨htopic, ?_⟩
    obtain ⟨key, hkey, rfl⟩ := map_eq_some_iff.mp h
    refine ⟨key, rfl, ?_⟩
    cases hevent : event.event <;> rw [hevent] at hkey <;> simp_all

theorem not_snapshot_of_identity : event.event ≠ .snapshot := by
  obtain ⟨-, _, -, ⟨hkind | hkind, -⟩ | ⟨hkind, -⟩⟩ := streamEventIdentity_eq_some h
  all_goals simp [hkind]

theorem View.apply_of_identity :
    ∃ key value, identity = event.topic.text ++ "\x00" ++ key ∧
      ∀ view : View B, view.apply event = update view key value := by
  obtain ⟨_, key, rfl, hkind⟩ := streamEventIdentity_eq_some h
  rcases hkind with ⟨hevent, hobject⟩ | ⟨hevent, hdeleted⟩
  · obtain ⟨object, hsome, rfl⟩ := map_eq_some_iff.mp hobject
    refine ⟨object.identity, some object, rfl, fun view => ?_⟩
    unfold View.apply
    rcases hevent with hevent | hevent <;> rw [hevent] <;> simp only [hsome] <;> rfl
  · refine ⟨key, none, rfl, fun view => ?_⟩
    unfold View.apply
    rw [hevent]
    simp only [hdeleted]

end

theorem View.apply_of_no_identity (htopic : event.topic ≠ .TopicEvents)
    (h : streamEventIdentity event = none) (hsnapshot : event.event ≠ .snapshot) (view : View B) :
    view.apply event = view := by
  unfold streamEventIdentity at h
  unfold View.apply
  cases hevent : event.event <;> rw [hevent] at h <;> simp_all [topicObjectIdentity]

/-- The item takes the place of the last change of its identity, behind the last snapshot. -/
theorem coalesce_eq_some {item old : QueuedEvent B} {queue next : List (QueuedEvent B)}
    (h : coalesce identity item queue = some (next, old)) :
    ∃ later earlier, queue = later ++ old :: earlier ∧ next = later ++ item :: earlier ∧
      streamEventIdentity old.event = some identity ∧ ∀ other ∈ later,
        streamEventIdentity other.event ≠ some identity ∧
          ¬ (other.event.event = .snapshot ∧ other.event.topic = item.event.topic) := by
  induction queue generalizing next with
  | nil => simp [coalesce] at h
  | cons last before ih =>
    unfold coalesce at h
    split at h
    · cases h
    next hsnapshot =>
    split at h
    · next hsame =>
      obtain ⟨rfl, rfl⟩ : item :: before = next ∧ last = old := by simpa using h
      exact ⟨[], before, rfl, rfl, hsame, forall_mem_nil _⟩
    · next hother =>
      obtain ⟨⟨rest, found⟩, hrest, heq⟩ := map_eq_some_iff.mp h
      obtain ⟨rfl, rfl⟩ : last :: rest = next ∧ found = old := by simpa using heq
      obtain ⟨later, earlier, rfl, rfl, hold, hlater⟩ := ih hrest
      exact ⟨last :: later, earlier, rfl, rfl, hold,
        forall_mem_cons.mpr ⟨⟨hother, hsnapshot⟩, hlater⟩⟩

/-- By induction from the end of the queue: the events behind the replaced one write other
entries. -/
theorem coalesce_applyAll {item old : QueuedEvent B} {queue next : List (QueuedEvent B)}
    (hitem : streamEventIdentity item.event = some identity)
    (htopic : ∀ other ∈ queue, other.event.topic = item.event.topic)
    (h : coalesce identity item queue = some (next, old)) (view : View B) :
    view.applyAll (next.reverse.map QueuedEvent.event) =
      (view.applyAll (queue.reverse.map QueuedEvent.event)).apply item.event := by
  obtain ⟨key, value, hkey, hwrite⟩ := View.apply_of_identity hitem
  obtain ⟨later, earlier, rfl, rfl, hsame, hlater⟩ := coalesce_eq_some h
  clear h
  induction later with
  | nil =>
    -- The old change is right before the new one, at the same entry.
    obtain ⟨key', value', hkey', hwrite'⟩ := View.apply_of_identity hsame
    have heq : key' = key := by
      rw [hkey, htopic old (by simp)] at hkey'
      exact ((String.append_right_inj _).mp hkey').symm
    simp only [nil_append, reverse_cons, map_append, View.applyAll_append]
    change (View.apply _ _) = (View.apply (View.apply _ _) _)
    rw [hwrite, hwrite', hwrite, heq, update_idem]
  | cons last later ih =>
    obtain ⟨hlast, hbefore⟩ := forall_mem_cons.mp htopic
    obtain ⟨⟨hother, hsnapshot⟩, hlater⟩ := forall_mem_cons.mp hlater
    rw [cons_append, reverse_cons, map_append, View.applyAll_append, ih hbefore hlater, cons_append,
      reverse_cons, map_append, View.applyAll_append]
    change (View.apply (View.apply _ _) _) = (View.apply (View.apply _ _) _)
    cases hidentity : streamEventIdentity last.event with
    | none =>
      have hquiet := View.apply_of_no_identity
        (hlast ▸ (streamEventIdentity_eq_some hitem).1) hidentity
        (fun hevent => hsnapshot ⟨hevent, hlast⟩)
      rw [hquiet, hquiet]
    | some other =>
      obtain ⟨key', value', hkey', hwrite'⟩ := View.apply_of_identity hidentity
      have hdiff : key' ≠ key := by
        rintro rfl
        exact hother (by rw [hidentity, hkey', hkey, hlast])
      rw [hwrite, hwrite', hwrite', hwrite, update_comm hdiff]

/-! ## What a push does -/

namespace Subscription

def Reset (subscription : Subscription B) : Prop :=
  ∃ event ∈ subscription.delivered, event.event = .reset

variable {queue next : List (QueuedEvent B)} {item old : QueuedEvent B} {identity : String}

theorem coalesce_reset (h : coalesce identity item queue = some (next, old)) :
    ∀ other ∈ queue, other.event.event = .reset → other ∈ next := by
  obtain ⟨later, earlier, rfl, rfl, hsame, -⟩ := coalesce_eq_some h
  intro other hmem hreset
  rcases mem_append.mp hmem with hlater | hmem
  · exact mem_append_left _ hlater
  rcases mem_cons.mp hmem with rfl | hearlier
  · -- Only a change has an identity.
    obtain ⟨_, _, _, hkind⟩ := streamEventIdentity_eq_some hsame
    rw [hreset] at hkind
    simp at hkind
  · exact mem_append_right _ (mem_cons_of_mem _ hearlier)

theorem coalesce_mem (h : coalesce identity item queue = some (next, old)) :
    item ∈ next ∧ ∀ other ∈ next, other = item ∨ other ∈ queue := by
  obtain ⟨later, earlier, rfl, rfl, -⟩ := coalesce_eq_some h
  simp only [mem_append, mem_cons, true_or, or_true, true_and]
  tauto

theorem coalesce_chunks (hitem : streamEventIdentity item.event = some identity)
    (h : coalesce identity item queue = some (next, old)) :
    chunksOf (next.map QueuedEvent.event) = chunksOf (queue.map QueuedEvent.event) := by
  obtain ⟨later, earlier, rfl, rfl, hsame, -⟩ := coalesce_eq_some h
  simp [chunksOf, not_snapshot_of_identity hitem, not_snapshot_of_identity hsame]

structure Pushed (subscription : Subscription B) (event : StreamEvent B) (next : Subscription B) :
    Prop where
  view : next.view = subscription.view.apply event
  topic : ∀ item ∈ next.queue, item.event.topic = event.topic
  reset : subscription.Reset ∨ event.event = .reset → next.Reset
  consumed : next.consumed = subscription.consumed
  chunks : chunksOf next.delivered = chunksOf (subscription.delivered ++ [event])
  mem : ∀ other ∈ next.delivered, other ∈ subscription.delivered ∨ other = event

variable {subscription next : Subscription B} {event : StreamEvent B}

theorem push_spec (htopic : ∀ item ∈ subscription.queue, item.event.topic = event.topic)
    (h : subscription.push objectSize event = (next, true)) : Pushed subscription event next := by
  let item : QueuedEvent B := ⟨event, event.wireBytes objectSize⟩
  unfold push at h
  dsimp only at h
  split at h
  · cases h
  split at h
  · cases h
  split at h
  · next queue old hcoalesce =>
    obtain ⟨identity, hidentity, hcoalesce⟩ := bind_eq_some_iff.mp hcoalesce
    split at h
    · cases h
    obtain ⟨rfl, -⟩ := Prod.mk.inj h
    have hreverse : ∀ other ∈ subscription.queue.reverse, other.event.topic = item.event.topic :=
      fun other hother => htopic other (mem_reverse.mp hother)
    obtain ⟨hmem, hfrom⟩ := coalesce_mem hcoalesce
    refine ⟨?_, ?_, ?_, rfl, ?_, ?_⟩
    · have happly := coalesce_applyAll hidentity hreverse hcoalesce
        (View.empty.applyAll subscription.consumed)
      rw [reverse_reverse] at happly
      simp only [view, delivered, View.applyAll_append]
      exact happly
    · intro other hother
      rcases hfrom other (mem_reverse.mp hother) with rfl | hqueue
      · rfl
      · exact hreverse other hqueue
    · intro hreset
      rcases hreset with ⟨before, hbefore, hkind⟩ | hkind
      · refine ⟨before, ?_, hkind⟩
        rcases mem_append.mp hbefore with hconsumed | hqueue
        · exact mem_append_left _ hconsumed
        · obtain ⟨other, hother, rfl⟩ := mem_map.mp hqueue
          refine mem_append_right _ (mem_map_of_mem (mem_reverse.mpr ?_))
          exact coalesce_reset hcoalesce other (mem_reverse.mpr hother) hkind
      · refine ⟨event, mem_append_right _ ?_, hkind⟩
        exact mem_map.mpr ⟨item, mem_reverse.mpr hmem, rfl⟩
    · have hqueue := congrArg reverse (coalesce_chunks hidentity hcoalesce)
      unfold chunksOf at hqueue
      rw [← filter_reverse, ← filter_reverse, map_reverse, reverse_reverse,
        ← map_reverse] at hqueue
      simp only [chunksOf, delivered, filter_append]
      rw [hqueue]
      simp [not_snapshot_of_identity hidentity]
    · intro other hother
      rcases mem_append.mp hother with hconsumed | hqueue
      · exact .inl (mem_append_left _ hconsumed)
      · obtain ⟨queued, hqueued, rfl⟩ := mem_map.mp hqueue
        rcases hfrom queued (mem_reverse.mp hqueued) with rfl | hold
        · exact .inr rfl
        · refine .inl (mem_append_right _ (mem_map_of_mem ?_))
          exact mem_reverse.mp hold
  · unfold append at h
    split at h
    · cases h
    obtain ⟨rfl, -⟩ := Prod.mk.inj h
    have hdelivered : ({ subscription with
        queue := subscription.queue ++ [item]
        bytes := subscription.bytes + item.bytes } : Subscription B).delivered =
        subscription.delivered ++ [event] := by
      simp [delivered, item]
    refine ⟨?_, ?_, ?_, rfl, by rw [hdelivered], ?_⟩
    · rw [view, hdelivered, View.applyAll_append]
      rfl
    · intro other hother
      rcases mem_append.mp hother with hqueue | hlast
      · exact htopic other hqueue
      · rw [mem_singleton.mp hlast]
    · intro hreset
      unfold Reset
      rw [hdelivered]
      rcases hreset with ⟨before, hbefore, hkind⟩ | hkind
      · exact ⟨before, mem_append_left _ hbefore, hkind⟩
      · exact ⟨event, mem_append_right _ (mem_singleton_self event), hkind⟩
    · rw [hdelivered]
      simp

theorem push_refused
    (h : subscription.push objectSize event = (next, false)) : next = subscription := by
  unfold push append at h
  dsimp only at h
  split at h
  · exact (Prod.mk.inj h).1.symm
  split at h
  · exact (Prod.mk.inj h).1.symm
  split at h
  · split at h
    · exact (Prod.mk.inj h).1.symm
    · cases h
  · split at h
    · exact (Prod.mk.inj h).1.symm
    · cases h

/-- The pushes of `Subscribe`, up to the first that is refused. -/
def pushAll (subscription : Subscription B) : List (StreamEvent B) → Subscription B × Bool
  | [] => (subscription, true)
  | event :: rest =>
    match subscription.push objectSize event with
    | (next, true) => pushAll next rest
    | (next, false) => (next, false)

theorem pushAll_spec {topic : Topic} {events : List (StreamEvent B)} :
    ∀ {subscription : Subscription B},
      (∀ item ∈ subscription.queue, item.event.topic = topic) →
      (∀ event ∈ events, event.topic = topic) →
      (∀ item ∈ (subscription.pushAll objectSize events).1.queue, item.event.topic = topic) ∧
      ((subscription.pushAll objectSize events).2 = true →
        (subscription.pushAll objectSize events).1.view = subscription.view.applyAll events) := by
  induction events with
  | nil => exact fun hqueue _ => ⟨hqueue, fun _ => rfl⟩
  | cons event rest ih =>
    intro subscription hqueue hevents
    obtain ⟨hevent, hrest⟩ := forall_mem_cons.mp hevents
    unfold pushAll
    cases hpush : subscription.push objectSize event with
    | mk next accepted =>
      cases accepted with
      | true =>
        have hspec := push_spec objectSize
          (fun item hitem => (hqueue item hitem).trans hevent.symm) hpush
        obtain ⟨htopic, hview⟩ :=
          ih (fun item hitem => (hspec.topic item hitem).trans hevent) hrest
        rw [hspec.view] at hview
        exact ⟨htopic, hview⟩
      | false =>
        rw [push_refused objectSize hpush]
        exact ⟨hqueue, fun h => absurd h (by simp)⟩

end Subscription

end Kubepeep.Watch
