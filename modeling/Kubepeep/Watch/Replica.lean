import Kubepeep.Watch.Worker

/-!
# A subscriber's copy of the snapshot

Whatever comes between an install or an update and its broadcast, what a subscriber has been sent,
followed by what it is still to be sent, always folds to the map of the worker's snapshot.  A late
subscriber already has the new snapshot, and the rest of the broadcast does not change it.
-/

open Nat List Function Kubepeep.System

namespace Kubepeep.Watch

section

variable {B : Type} {objectSize : TopicObject B → Nat} {generation : String} {topic : Topic}

variable {event : StreamEvent B}

theorem View.apply_idem (h : event.event ≠ .snapshot) (view : View B) :
    (view.apply event).apply event = view.apply event := by
  unfold View.apply
  cases hevent : event.event with
  | snapshot => exact absurd hevent h
  | added =>
    cases event.object with
    | none => rfl
    | some object => exact update_idem _ _ _
  | modified =>
    cases event.object with
    | none => rfl
    | some object => exact update_idem _ _ _
  | deleted =>
    cases resourceRefIdentity event.topic event.deleted with
    | none => rfl
    | some identity => exact update_idem _ _ _
  | _ => rfl

theorem Notice.apply (h : Notice event) (view : View B) : view.apply event = view := by
  unfold View.apply
  rcases h with h | h | h <;> rw [h]

namespace World

/-- The event of the broadcast under way, if this subscriber is still to get it. -/
def underway (world : World B) (id : Nat) : List (StreamEvent B) :=
  match world.sending with
  | none => []
  | some (event, left) => if id ∈ left then [event] else []

def outstanding (world : World B) (id : Nat) : List (StreamEvent B) :=
  world.underway id ++ world.pending

def Resetting (world : World B) (id : Nat) : Prop :=
  (world.subscription id).Reset ∨ ∃ event ∈ world.outstanding id, event.event = .reset

/-- The subscriber will have the map of the snapshot, unless it is reset. -/
def Follows (world : World B) (id : Nat) : Prop :=
  ¬ world.Resetting id →
    (world.subscription id).view.applyAll (world.outstanding id) =
      viewOf world.worker.snapshot.items

end World

structure Consistent (objectSize : TopicObject B → Nat) (generation : String) (topic : Topic)
    (world : World B) : Prop where
  distinct : Distinct world.worker.snapshot.items
  empty : world.worker.snapshotReady = false → world.worker.snapshot.items = []
  initial : world.worker.initial ≠ [] →
    SnapshotEvents objectSize generation topic world.worker.snapshot = .ok world.worker.initial
  watching : world.watching = true →
    world.worker.snapshotReady = true ∨ world.worker.stopping = true
  stable : Stable (viewOf world.worker.snapshot.items) world.pending
  pendingTopic : ∀ event ∈ world.pending, event.topic = topic

structure Registered (topic : Topic) (world : World B) : Prop where
  subscriber : ∀ id ∈ world.subscribers, id < world.count
  nodup : world.subscribers.Nodup
  sending : ∀ event left, world.sending = some (event, left) →
    event.topic = topic ∧ left.Nodup ∧ ∀ id ∈ left, id < world.count
  queue : ∀ id < world.count, ∀ item ∈ (world.subscription id).queue, item.event.topic = topic

structure Inv (objectSize : TopicObject B → Nat) (generation : String) (topic : Topic)
    (world : World B) : Prop where
  worker : Consistent objectSize generation topic world
  subscriptions : Registered topic world
  follows : ∀ id ∈ world.subscribers, world.Follows id

/-! ## Pushes -/

theorem forceTerminal_queue {subscription : Subscription B} (hevent : event.topic = topic)
    (hqueue : ∀ item ∈ subscription.queue, item.event.topic = topic) :
    ∀ item ∈ (subscription.forceTerminal objectSize event).queue, item.event.topic = topic := by
  unfold Subscription.forceTerminal
  split
  · exact hqueue
  · simpa using hevent

variable {world : World B} {id : Nat}

theorem World.push_subscribers (world : World B) (id : Nat) (event : StreamEvent B) :
    (world.push objectSize generation topic id event).subscribers.Sublist world.subscribers := by
  unfold World.push
  dsimp only
  split
  · exact .refl _
  · exact erase_sublist

theorem World.push_queue (hevent : event.topic = topic)
    (hqueue : ∀ item ∈ (world.subscription id).queue, item.event.topic = topic) :
    ∀ item ∈ ((world.push objectSize generation topic id event).subscription id).queue,
      item.event.topic = topic := by
  unfold World.push
  dsimp only
  rw [update_self]
  cases hpush : (world.subscription id).push objectSize event with
  | mk next accepted =>
    cases accepted with
    | true =>
      have hspec := Subscription.push_spec objectSize
        (fun item hitem => (hqueue item hitem).trans hevent.symm) hpush
      exact fun item hitem => (hspec.topic item hitem).trans hevent
    | false =>
      rw [Subscription.push_refused objectSize hpush]
      exact forceTerminal_queue rfl hqueue

theorem World.push_self (hnodup : world.subscribers.Nodup) (hevent : event.topic = topic)
    (hqueue : ∀ item ∈ (world.subscription id).queue, item.event.topic = topic)
    (hmem : id ∈ (world.push objectSize generation topic id event).subscribers) :
    Subscription.Pushed (world.subscription id) event
      ((world.push objectSize generation topic id event).subscription id) := by
  unfold World.push at hmem ⊢
  dsimp only at hmem ⊢
  rw [update_self]
  cases hpush : (world.subscription id).push objectSize event with
  | mk next accepted =>
    rw [hpush] at hmem
    cases accepted with
    | true =>
      exact Subscription.push_spec objectSize
        (fun item hitem => (hqueue item hitem).trans hevent.symm) hpush
    | false => exact absurd hmem hnodup.not_mem_erase

structure PushedTo (world : World B) (id : Nat) (event : StreamEvent B) (next : World B) :
    Prop where
  worker : next.worker = world.worker
  watching : next.watching = world.watching
  pending : next.pending = world.pending
  sending : next.sending = world.sending
  count : next.count = world.count
  subscribers : next.subscribers.Sublist world.subscribers
  other : ∀ other, other ≠ id → next.subscription other = world.subscription other
  self : id ∈ next.subscribers →
    Subscription.Pushed (world.subscription id) event (next.subscription id)
  queue : ∀ item ∈ (next.subscription id).queue, item.event.topic = event.topic

theorem World.pushedTo (hnodup : world.subscribers.Nodup) (hevent : event.topic = topic)
    (hqueue : ∀ item ∈ (world.subscription id).queue, item.event.topic = topic) :
    PushedTo world id event (world.push objectSize generation topic id event) where
  worker := rfl
  watching := rfl
  pending := rfl
  sending := rfl
  count := rfl
  subscribers := world.push_subscribers id event
  other _ hne := update_of_ne hne _ _
  self hmem := World.push_self hnodup hevent hqueue hmem
  queue item hitem := (World.push_queue hevent hqueue item hitem).trans hevent.symm

variable {other : World B}

theorem World.Follows.congr (h : world.Follows id)
    (hdelivered : (other.subscription id).delivered = (world.subscription id).delivered)
    (houtstanding : other.outstanding id = world.outstanding id)
    (hitems : other.worker.snapshot.items = world.worker.snapshot.items) : other.Follows id := by
  unfold Follows Resetting Subscription.Reset Subscription.view at *
  rw [hdelivered, houtstanding, hitems]
  exact h

theorem World.Follows.pushed (h : world.Follows id)
    (hpushed : Subscription.Pushed (world.subscription id) event (other.subscription id))
    (houtstanding : world.outstanding id = event :: other.outstanding id)
    (hitems : other.worker.snapshot.items = world.worker.snapshot.items) : other.Follows id := by
  intro hreset
  have hbefore : ¬ world.Resetting id := by
    rintro (hold | ⟨later, hlater, hkind⟩)
    · exact hreset (.inl (hpushed.reset (.inl hold)))
    · rw [houtstanding] at hlater
      rcases mem_cons.mp hlater with rfl | hlater
      · exact hreset (.inl (hpushed.reset (.inr hkind)))
      · exact hreset (.inr ⟨later, hlater, hkind⟩)
  have hview := h hbefore
  rw [houtstanding, View.applyAll_cons] at hview
  rw [hpushed.view, hitems]
  exact hview

theorem Registered.pushed {next : World B} (h : Registered topic world)
    (hevent : event.topic = topic) (hnext : PushedTo world id event next) :
    Registered topic next where
  subscriber other hother := hnext.count ▸ h.subscriber other (hnext.subscribers.subset hother)
  nodup := h.nodup.sublist hnext.subscribers
  sending := by
    rw [hnext.sending, hnext.count]
    exact h.sending
  queue := by
    intro other hother
    by_cases hsame : other = id
    · subst hsame
      exact fun item hitem => (hnext.queue item hitem).trans hevent
    · rw [hnext.other other hsame]
      exact h.queue other (hnext.count ▸ hother)

theorem Consistent.congr (h : Consistent objectSize generation topic world)
    (hworker : other.worker = world.worker) (hwatching : other.watching = world.watching)
    (hpending : other.pending = world.pending) : Consistent objectSize generation topic other := by
  obtain ⟨_, _, _, _, _, _⟩ := h
  constructor <;> simp_all

theorem World.Idle.outstanding (h : world.Idle) (id : Nat) : world.outstanding id = [] := by
  rw [World.outstanding, World.underway, h.1, h.2]
  rfl

theorem World.Follows.view_eq (h : world.Follows id)
    (hidle : world.Idle) (hreset : ¬ (world.subscription id).Reset) :
    (world.subscription id).view = viewOf world.worker.snapshot.items := by
  have houtstanding := hidle.outstanding id
  have hview := h (by
    rintro (hold | ⟨event, hevent, _⟩)
    · exact hreset hold
    · rw [houtstanding] at hevent
      exact absurd hevent not_mem_nil)
  rw [houtstanding] at hview
  exact hview

theorem World.Follows.announce (h : world.Follows id)
    (hidle : world.Idle) (hsubscription : other.subscription id = world.subscription id)
    (hsending : other.sending = none)
    (hview : (viewOf world.worker.snapshot.items).applyAll other.pending =
        viewOf other.worker.snapshot.items ∨
      ∃ event ∈ other.pending, event.event = .reset) : other.Follows id := by
  have houtstanding : other.outstanding id = other.pending := by
    rw [outstanding, underway, hsending]
    rfl
  intro hreset
  rw [Resetting, houtstanding, hsubscription] at hreset
  rw [houtstanding, hsubscription, h.view_eq hidle fun hold => hreset (.inl hold)]
  exact hview.resolve_right fun hpending => hreset (.inr hpending)

variable {initial : List (StreamEvent B)}

theorem Consistent.initialEvents (h : Consistent objectSize generation topic world)
    (hinitial : initialEvents objectSize generation topic world.worker = .ok initial) :
    (initial = [] → world.worker.snapshotReady = false) ∧ (initial ≠ [] →
      SnapshotEvents objectSize generation topic world.worker.snapshot = .ok initial) := by
  unfold Watch.initialEvents at hinitial
  split at hinitial
  · refine ⟨fun hnil => ?_, fun _ => hinitial⟩
    exact absurd hnil (SnapshotEvents_chunked hinitial).ne_nil
  · next hready =>
    obtain rfl := Except.ok.inj hinitial
    refine ⟨fun hnil => ?_, h.initial⟩
    by_contra hnot
    exact hready ⟨by simpa using hnot, hnil⟩

/-! ## One step -/

section

variable {world : World B} (h : Inv objectSize generation topic world)
include h

variable {event : StreamEvent B}

theorem Inv.deliver {left : List Nat} {id : Nat}
    (hsending : world.sending = some (event, left)) (hid : id ∈ left) :
    Inv objectSize generation topic
      { world.push objectSize generation topic id event with
        sending := some (event, left.erase id) } := by
  obtain ⟨hevent, hnodup, hbound⟩ := h.subscriptions.sending event left hsending
  have hnext : PushedTo world id event (world.push objectSize generation topic id event) :=
    World.pushedTo h.subscriptions.nodup hevent (h.subscriptions.queue id (hbound id hid))
  generalize world.push objectSize generation topic id event = next at hnext
  have hregistered := h.subscriptions.pushed hevent hnext
  refine ⟨h.worker.congr hnext.worker hnext.watching hnext.pending, ⟨hregistered.subscriber,
    hregistered.nodup, ?_, hregistered.queue⟩, ?_⟩
  · intro event' left' heq
    obtain ⟨rfl, rfl⟩ : event = event' ∧ left.erase id = left' := by simpa using heq
    exact ⟨hevent, hnodup.erase id, fun other hother =>
      hnext.count ▸ hbound other (mem_of_mem_erase hother)⟩
  intro other hother
  have hmember := hnext.subscribers.subset hother
  have hitems : next.worker.snapshot.items = world.worker.snapshot.items := by rw [hnext.worker]
  by_cases hsame : other = id
  · -- The event is the first of what was outstanding, and the queue has it now.
    subst hsame
    refine World.Follows.pushed (h.follows other hmember) (hnext.self hother) ?_ hitems
    simp [World.outstanding, World.underway, hsending, hid, hnodup.not_mem_erase, hnext.pending]
  · refine World.Follows.congr (h.follows other hmember) ?_ ?_ hitems
    · exact congrArg Subscription.delivered (hnext.other other hsame)
    · simp [World.outstanding, World.underway, hsending, mem_erase_of_ne hsame, hnext.pending]

theorem Inv.terminal {id : Nat} (hid : id ∈ world.subscribers)
    (hreset : event.event = .reset) (hevent : event.topic = topic) :
    Inv objectSize generation topic (world.push objectSize generation topic id event) := by
  have hnext : PushedTo world id event (world.push objectSize generation topic id event) :=
    World.pushedTo h.subscriptions.nodup hevent
      (h.subscriptions.queue id (h.subscriptions.subscriber id hid))
  generalize world.push objectSize generation topic id event = next at hnext
  refine ⟨h.worker.congr hnext.worker hnext.watching hnext.pending,
    h.subscriptions.pushed hevent hnext, fun other hother => ?_⟩
  have hmember := hnext.subscribers.subset hother
  by_cases hsame : other = id
  · subst hsame
    exact fun hquiet => absurd (.inl ((hnext.self hother).reset (.inr hreset))) hquiet
  · refine World.Follows.congr (h.follows other hmember) ?_ ?_ ?_
    · exact congrArg Subscription.delivered (hnext.other other hsame)
    · simp [World.outstanding, World.underway, hnext.sending, hnext.pending]
    · rw [hnext.worker]

theorem World.underway_of_new : world.underway world.count = [] := by
  unfold World.underway
  split
  · rfl
  · next event left hsending =>
    rw [if_neg fun hmem => lt_irrefl _
      ((h.subscriptions.sending event left hsending).2.2 _ hmem)]

theorem Inv.subscribe
    (hinitial : initialEvents objectSize generation topic world.worker = .ok initial) :
    Inv objectSize generation topic (world.subscribe objectSize generation topic initial) := by
  obtain ⟨hempty, hevents⟩ := h.worker.initialEvents hinitial
  have hview : View.empty.applyAll initial = viewOf world.worker.snapshot.items := by
    by_cases hnil : initial = []
    · rw [hnil, h.worker.empty (hempty hnil)]
      rfl
    · exact (SnapshotEvents_chunked (hevents hnil)).applyAll_eq_viewOf _
  have htopics : ∀ event ∈ initial, event.topic = topic := by
    intro event hevent
    exact (SnapshotEvents_chunked (hevents (ne_nil_of_mem hevent))).topic_eq event hevent
  have hfresh : ∀ item ∈ (newSubscription B).queue, item.event.topic = topic := by
    simp [newSubscription]
  obtain ⟨hqueue, hjoined⟩ := Subscription.pushAll_spec objectSize hfresh htopics
  unfold World.subscribe
  generalize (newSubscription B).pushAll objectSize initial = joined at hqueue hjoined
  refine ⟨⟨h.worker.distinct, h.worker.empty, hevents, h.worker.watching, h.worker.stable,
    h.worker.pendingTopic⟩, ⟨?_, ?_, ?_, ?_⟩, ?_⟩
  · intro id hid
    have hcases : id ∈ world.subscribers ∨ id = world.count := by
      dsimp only at hid
      split at hid
      · simpa using hid
      · exact .inl hid
    rcases hcases with hold | rfl
    · exact Nat.lt_succ_of_lt (h.subscriptions.subscriber id hold)
    · exact Nat.lt_succ_self _
  · dsimp only
    split
    · refine nodup_append.mpr ⟨h.subscriptions.nodup, by simp, ?_⟩
      intro id hid other hother
      rw [mem_singleton.mp hother]
      exact Nat.ne_of_lt (h.subscriptions.subscriber id hid)
    · exact h.subscriptions.nodup
  · intro event left hsending
    obtain ⟨hevent, hnodup, hleft⟩ := h.subscriptions.sending event left hsending
    exact ⟨hevent, hnodup, fun id hid => Nat.lt_succ_of_lt (hleft id hid)⟩
  · intro id hid
    dsimp only at hid ⊢
    by_cases hsame : id = world.count
    · rw [hsame, update_self]
      split
      · exact hqueue
      · exact forceTerminal_queue rfl hqueue
    · rw [update_of_ne hsame]
      exact h.subscriptions.queue id (by omega)
  · intro id hid
    dsimp only at hid
    by_cases hsame : id = world.count
    · -- The new subscriber has the snapshot; the rest of a broadcast does not change it.
      subst hsame
      have haccepted : joined.2 = true := by
        by_contra hrefused
        rw [if_neg hrefused] at hid
        exact absurd (h.subscriptions.subscriber _ hid) (Nat.lt_irrefl _)
      intro _
      have houtstanding : world.outstanding world.count = world.pending := by
        rw [World.outstanding, World.underway_of_new h, nil_append]
      change View.applyAll (update world.subscription world.count _ world.count).view
        (world.outstanding world.count) = viewOf world.worker.snapshot.items
      rw [update_self, if_pos haccepted, hjoined haccepted, houtstanding]
      change View.applyAll (View.empty.applyAll initial) _ = _
      rw [hview]
      exact h.worker.stable.applyAll
    · have hmember : id ∈ world.subscribers := by
        split at hid
        · simpa [hsame] using hid
        · exact hid
      refine World.Follows.congr (h.follows id hmember) ?_ rfl rfl
      exact congrArg Subscription.delivered (update_of_ne hsame _ _)

/-! Steps of the worker's goroutine between two broadcasts. -/

variable {fits : Int → Bool} {worker : Worker B}

theorem Inv.install {snapshot : WatchSnapshot (TopicObject B)}
    {events : List (StreamEvent B)} {ended : Bool} (hidle : world.Idle)
    (hdistinct : Distinct snapshot.items)
    (hevents : SnapshotEvents objectSize generation topic snapshot = .ok events)
    (hinstall : installSnapshotLocked objectSize world.worker ended fits snapshot events =
      some worker) :
    Inv objectSize generation topic
      { world with worker := worker, watching := true, pending := events } := by
  have hchunked := SnapshotEvents_chunked hevents
  unfold installSnapshotLocked at hinstall
  dsimp only at hinstall
  split at hinstall
  · cases hinstall
  split at hinstall
  · cases hinstall
  obtain rfl := Option.some.inj hinstall
  refine ⟨⟨hdistinct, fun hready => absurd hready (by simp), fun _ => hevents,
    fun _ => .inl rfl, ?_, hchunked.topic_eq⟩, ⟨h.subscriptions.subscriber, h.subscriptions.nodup,
    h.subscriptions.sending, h.subscriptions.queue⟩, ?_⟩
  · exact hchunked.stable hdistinct (fun _ hitem => hitem) fun _ => rfl
  · intro id hid
    refine World.Follows.announce (h.follows id hid) hidle rfl hidle.2 (.inl ?_)
    exact hchunked.applyAll_eq_viewOf _

theorem Inv.bookmark (resourceVersion : String) :
    Inv objectSize generation topic
      { world with worker := bookmark world.worker resourceVersion } := by
  have hitems : (Watch.bookmark world.worker resourceVersion).snapshot.items =
      world.worker.snapshot.items := by
    unfold Watch.bookmark
    split <;> rfl
  have hready : (Watch.bookmark world.worker resourceVersion).snapshotReady =
      world.worker.snapshotReady ∧ (Watch.bookmark world.worker resourceVersion).stopping =
      world.worker.stopping := by
    unfold Watch.bookmark
    split <;> exact ⟨rfl, rfl⟩
  refine ⟨⟨?_, ?_, ?_, ?_, ?_, h.worker.pendingTopic⟩, ⟨h.subscriptions.subscriber,
    h.subscriptions.nodup, h.subscriptions.sending, h.subscriptions.queue⟩, fun id hid => ?_⟩
  · rw [hitems]
    exact h.worker.distinct
  · rw [hitems, hready.1]
    exact h.worker.empty
  · unfold Watch.bookmark
    split
    · exact fun hnil => absurd rfl hnil
    · exact h.worker.initial
  · rw [hready.1, hready.2]
    exact h.worker.watching
  · rw [hitems]
    exact h.worker.stable
  · exact World.Follows.congr (h.follows id hid) rfl rfl hitems

theorem Inv.notice (hidle : world.Idle) (hnotice : Notice event) (hevent : event.topic = topic) :
    Inv objectSize generation topic { world with pending := [event] } := by
  refine ⟨⟨h.worker.distinct, h.worker.empty, h.worker.initial, h.worker.watching,
    stable_singleton (hnotice.apply _), by simpa using hevent⟩, ⟨h.subscriptions.subscriber,
    h.subscriptions.nodup, h.subscriptions.sending, h.subscriptions.queue⟩, fun id hid => ?_⟩
  exact World.Follows.announce (h.follows id hid) hidle rfl hidle.2 (.inl (hnotice.apply _))

theorem Inv.change {update : Update} (hidle : world.Idle) (hwatching : world.watching = true)
    (hchange : Change event) (hevent : event.topic = topic)
    (hupdate : updateSnapshot objectSize topic world.worker fits event = (worker, update)) :
    Inv objectSize generation topic
      { world with worker := worker, pending := update.announced generation topic event } := by
  have hsubscriptions : ∀ pending, Registered topic
      { world with worker := worker, pending := pending } := fun _ =>
    ⟨h.subscriptions.subscriber, h.subscriptions.nodup, h.subscriptions.sending,
      h.subscriptions.queue⟩
  have hkind : event.event ≠ .snapshot := by rcases hchange with h | h | h <;> simp [h]
  rcases updateSnapshot_cases objectSize topic (h.worker.watching hwatching) hupdate with
    ⟨rfl, rfl⟩ | ⟨rfl, rfl⟩ | ⟨hready, rfl, size, rfl⟩
  · -- The worker is stopping: it returns.
    refine ⟨⟨h.worker.distinct, h.worker.empty, h.worker.initial, h.worker.watching, stable_nil,
      fun _ hnone => absurd hnone not_mem_nil⟩, hsubscriptions _, fun id hid => ?_⟩
    exact World.Follows.announce (h.follows id hid) hidle rfl hidle.2 (.inl rfl)
  · refine ⟨⟨nodup_nil, fun _ => rfl, fun hnil => absurd rfl hnil, fun _ => .inr rfl,
      stable_singleton rfl, by simp [Update.announced, resetEvent]⟩,
      hsubscriptions _, fun id hid => ?_⟩
    exact World.Follows.announce (h.follows id hid) hidle rfl hidle.2
      (.inr ⟨_, mem_singleton_self _, rfl⟩)
  · obtain ⟨hdistinct, hview⟩ := applyStreamEventToSnapshot_spec h.worker.distinct hevent hkind
    refine ⟨⟨hdistinct, fun hnot => absurd (hready.symm.trans hnot) (by simp),
      fun hnil => absurd rfl hnil, fun _ => .inl hready, ?_,
      by simpa [Update.announced] using hevent⟩,
      hsubscriptions _, fun id hid => ?_⟩
    · apply stable_singleton
      rw [hview]
      exact View.apply_idem hkind _
    · exact World.Follows.announce (h.follows id hid) hidle rfl hidle.2 (.inl hview.symm)

theorem Inv.broadcast {rest : List (StreamEvent B)}
    (hpending : world.pending = event :: rest) (hsending : world.sending = none) :
    Inv objectSize generation topic
      { world with pending := rest, sending := some (event, world.subscribers) } := by
  have hstable := h.worker.stable
  have htopics := h.worker.pendingTopic
  rw [hpending] at hstable htopics
  refine ⟨⟨h.worker.distinct, h.worker.empty, h.worker.initial, h.worker.watching, hstable.tail,
    fun other hother => htopics other (mem_cons_of_mem _ hother)⟩,
    ⟨h.subscriptions.subscriber, h.subscriptions.nodup, ?_, h.subscriptions.queue⟩,
    fun id hid => ?_⟩
  · intro event' left' heq
    obtain ⟨rfl, rfl⟩ : event = event' ∧ world.subscribers = left' := by simpa using heq
    exact ⟨htopics event mem_cons_self, h.subscriptions.nodup, h.subscriptions.subscriber⟩
  · refine World.Follows.congr (h.follows id hid) rfl ?_ rfl
    have hmember : id ∈ world.subscribers := hid
    simp [World.outstanding, World.underway, hpending, hsending, hmember]

theorem Inv.delivered (hsending : world.sending = some (event, [])) :
    Inv objectSize generation topic { world with sending := none } := by
  refine ⟨h.worker.congr rfl rfl rfl, ⟨h.subscriptions.subscriber, h.subscriptions.nodup,
    fun _ _ heq => absurd heq (by simp), h.subscriptions.queue⟩, fun id hid => ?_⟩
  refine World.Follows.congr (h.follows id hid) rfl ?_ rfl
  simp [World.outstanding, World.underway, hsending]

theorem Inv.next (id : Nat) :
    Inv objectSize generation topic { world with
      subscription := update world.subscription id (world.subscription id).Next } := by
  refine ⟨h.worker.congr rfl rfl rfl, ⟨h.subscriptions.subscriber, h.subscriptions.nodup,
    h.subscriptions.sending, fun other hother => ?_⟩, fun other hother => ?_⟩
  · by_cases hsame : other = id
    · subst hsame
      dsimp only
      rw [update_self]
      intro item hitem
      apply h.subscriptions.queue other hother item
      unfold Subscription.Next at hitem
      split at hitem
      · exact hitem
      · next hqueue =>
        rw [hqueue]
        exact mem_cons_of_mem _ hitem
    · dsimp only
      rw [update_of_ne hsame]
      exact h.subscriptions.queue other hother
  · refine World.Follows.congr (h.follows other hother) ?_ rfl rfl
    by_cases hsame : other = id
    · subst hsame
      simp
    · simp [update_of_ne hsame]

theorem Inv.close (id : Nat) :
    Inv objectSize generation topic { world with
      subscription := update world.subscription id (world.subscription id).close
      subscribers := world.subscribers.erase id } := by
  refine ⟨h.worker.congr rfl rfl rfl, ⟨fun other hother => h.subscriptions.subscriber other
    (mem_of_mem_erase hother), h.subscriptions.nodup.erase id, h.subscriptions.sending,
    fun other hother => ?_⟩, fun other hother => ?_⟩
  · by_cases hsame : other = id
    · subst hsame
      dsimp only
      rw [update_self]
      exact h.subscriptions.queue other hother
    · dsimp only
      rw [update_of_ne hsame]
      exact h.subscriptions.queue other hother
  · have hmember : other ∈ world.subscribers := mem_of_mem_erase hother
    have hsame : other ≠ id := by
      rintro rfl
      exact h.subscriptions.nodup.not_mem_erase hother
    refine World.Follows.congr (h.follows other hmember) ?_ rfl rfl
    simp [update_of_ne hsame]

theorem Inv.finish :
    Inv objectSize generation topic { world with
      worker := { world.worker with stopping := true }
      subscription := fun id =>
        if id ∈ world.subscribers then (world.subscription id).close else world.subscription id
      subscribers := [] } := by
  refine ⟨⟨h.worker.distinct, h.worker.empty, h.worker.initial, fun _ => .inr rfl, h.worker.stable,
    h.worker.pendingTopic⟩, ⟨by simp, nodup_nil, h.subscriptions.sending,
    fun id hid => ?_⟩, by simp⟩
  dsimp only
  split
  · exact h.subscriptions.queue id hid
  · exact h.subscriptions.queue id hid

end

/-! ## Every run -/

theorem Step.inv {next : World B} {action : Action B} (h : Inv objectSize generation topic world)
    (hstep : Step objectSize generation topic world action next) :
    Inv objectSize generation topic next := by
  cases hstep with
  | subscribe hinitial => exact h.subscribe hinitial
  | install ended fits hidle hdistinct hevents hinstall =>
    exact h.install hidle hdistinct hevents hinstall
  | change fits hidle hwatching hchange hevent hupdate =>
    exact h.change hidle hwatching hchange hevent hupdate
  | bookmark => exact h.bookmark _
  | notice hidle hnotice hevent => exact h.notice hidle hnotice hevent
  | broadcast hpending hsending => exact h.broadcast hpending hsending
  | deliver hsending hid => exact h.deliver hsending hid
  | delivered hsending => exact h.delivered hsending
  | terminal hid hreset hevent => exact h.terminal hid hreset hevent
  | next => exact h.next _
  | close => exact h.close _
  | finish => exact h.finish

theorem Start.inv (h : Start objectSize generation topic world) :
    Inv objectSize generation topic world := by
  have hpending := h.idle.1
  have hsending := h.idle.2
  refine ⟨?_, ⟨by simp [h.subscribers], by simp [h.subscribers], by simp [hsending], ?_⟩,
    by simp [h.subscribers]⟩
  · rcases h.worker with ⟨hzero, hwatching⟩ | ⟨hdistinct, hready, hevents⟩
    · constructor
      · simp [hzero, Worker.zero, Distinct]
      · simp [hzero, Worker.zero]
      · simp [hzero, Worker.zero]
      · simp [hwatching]
      · rw [hpending]
        exact stable_nil
      · simp [hpending]
    · constructor
      · exact hdistinct
      · simp [hready]
      · exact fun _ => hevents
      · exact fun _ => .inl hready
      · rw [hpending]
        exact stable_nil
      · simp [hpending]
  · intro id hid
    rw [h.count] at hid
    exact absurd hid (not_lt_zero _)

/-- In every run: once no broadcast is pending, a subscriber without a reset that has read its queue
holds exactly the objects of the worker's snapshot, by identity. -/
theorem subscriber_view_eq_snapshot {start world : World B} {actions : List (Action B)}
    (hstart : Start objectSize generation topic start)
    (hrun : Runs (Step objectSize generation topic) start actions world) (hidle : world.Idle)
    (id : Nat) (hid : id ∈ world.subscribers) (hdrained : (world.subscription id).queue = [])
    (hreset : ∀ event ∈ (world.subscription id).consumed, event.event ≠ .reset) :
    Distinct world.worker.snapshot.items ∧
      View.empty.applyAll (world.subscription id).consumed =
        viewOf world.worker.snapshot.items := by
  have hinv : Inv objectSize generation topic world :=
    hrun.invariant hstart.inv fun h hstep => hstep.inv h
  have hdelivered : (world.subscription id).delivered = (world.subscription id).consumed := by
    simp [Subscription.delivered, hdrained]
  refine ⟨hinv.worker.distinct, ?_⟩
  have hquiet : ¬ (world.subscription id).Reset := by
    rintro ⟨event, hevent, hkind⟩
    exact hreset event (hdelivered ▸ hevent) hkind
  rw [← hdelivered]
  exact (hinv.follows id hid).view_eq hidle hquiet

end

def freshWorld : World Unit :=
  ⟨.zero Unit, false, fun _ => newSubscription Unit, 0, [], [], none⟩

def shopPod (name : String) : TopicObject Unit := ⟨.PodDTO ⟨"shop", name, ()⟩, false⟩

def shopPodAdded : StreamEvent Unit :=
  { event := .added, topic := .TopicPods, generation := "g1", object := some (shopPod "api") }

/-- The second subscriber joins between an install and its broadcast, and reads the chunk twice and
the change. -/
theorem subscriber_view_eq_snapshot_joined : ∃ world,
    Runs (Step (fun _ => 100) "g1" .TopicPods) freshWorld
      [.subscribe, .install ⟨"7", [shopPod "web"]⟩, .subscribe, .broadcast, .deliver 1,
        .deliver 0, .delivered, .change shopPodAdded, .broadcast, .deliver 0, .deliver 1,
        .delivered, .next 1, .next 1, .next 1] world ∧
      world.worker.snapshot.items.length = 2 ∧
      View.empty.applyAll (world.subscription 1).consumed =
        viewOf world.worker.snapshot.items := by
  have hstart : Start (fun _ => 100) "g1" .TopicPods freshWorld :=
    ⟨rfl, rfl, ⟨rfl, rfl⟩, .inl ⟨rfl, rfl⟩⟩
  apply runs_with
  apply runs_cons (.subscribe rfl)
  apply runs_cons (.install false (fun _ => true) ⟨rfl, rfl⟩ (by simp [Distinct]) rfl rfl)
  apply runs_cons (.subscribe rfl)
  apply runs_cons (.broadcast rfl rfl)
  apply runs_cons (.deliver rfl (by decide))
  apply runs_cons (.deliver rfl (by decide))
  apply runs_cons (.delivered rfl)
  apply runs_cons (.change (fun _ => true) ⟨rfl, rfl⟩ rfl (.inl rfl) rfl rfl)
  apply runs_cons (.broadcast rfl rfl)
  apply runs_cons (.deliver rfl (by decide))
  apply runs_cons (.deliver rfl (by decide))
  apply runs_cons (.delivered rfl)
  apply runs_cons .next
  apply runs_cons .next
  apply runs_cons .next
  refine ⟨_, .nil _, fun hrun => ⟨rfl, ?_⟩⟩
  exact (subscriber_view_eq_snapshot hstart hrun ⟨rfl, rfl⟩ 1 (by decide) rfl (by decide)).2

end Kubepeep.Watch
