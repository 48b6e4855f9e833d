import Kubepeep.Stream.Topics
import Kubepeep.Watch.Sent

/-!
# A session and the workers of its sources

The workers run on their own, also for other sessions.  Between the subscription of a source and the
loop there are a goroutine and a channel; what they hold is kept for each source, and the loop may
read it in any order of the sources.
-/

open Option List Function Kubepeep.Resources Kubepeep.System Kubepeep.Watch

namespace Kubepeep.Stream

/-- `subscriber` is the number of the session's subscription at the worker of a source, once
`createStreamSession` has called `Subscribe`. -/
structure Fleet (B : Type) where
  loop : Loop B
  world : Source → World B
  subscriber : Source → Option Nat
  inflight : Source → List (StreamEvent B)

inductive FleetAction (B : Type) where
  | worker (source : Source) (action : Action B)
  | join (source : Source)
  | forward (source : Source)
  | receive (source : Source)
  | client (action : SessionAction B)

section

variable {B : Type} (objectSize : TopicObject B → Nat) (clock : Nat → String) (config : Config)
  (generation : String)

inductive FleetStep : Fleet B → FleetAction B → Fleet B → Prop where
  /-- A step of a worker; only the session reads its own subscription. -/
  | worker {fleet : Fleet B} {source : Source} {action : Action B} {next : World B} :
    source ∈ config.sources →
    Step objectSize generation source.topic (fleet.world source) action next →
    (∀ id, fleet.subscriber source = some id → action ≠ .next id) →
    FleetStep fleet (.worker source action)
      { fleet with world := update fleet.world source next }
  | join {fleet : Fleet B} {source : Source} {next : World B} :
    source ∈ config.sources → fleet.subscriber source = none →
    Step objectSize generation source.topic (fleet.world source) .subscribe next →
    FleetStep fleet (.join source)
      { fleet with
        world := update fleet.world source next
        subscriber :=
          update fleet.subscriber source (some (fleet.world source).count) }
  | forward {fleet : Fleet B} {source : Source} {next : World B} {id : Nat}
      {item : QueuedEvent B} {rest : List (QueuedEvent B)} :
    source ∈ config.sources → fleet.subscriber source = some id →
    ((fleet.world source).subscription id).queue = item :: rest →
    Step objectSize generation source.topic (fleet.world source) (.next id) next →
    FleetStep fleet (.forward source)
      { fleet with
        world := update fleet.world source next
        inflight :=
          update fleet.inflight source (fleet.inflight source ++ [item.event]) }
  /-- `run` starts when all sources have been subscribed to. -/
  | receive {fleet : Fleet B} {source : Source} {event : StreamEvent B}
      {rest : List (StreamEvent B)} :
    source ∈ config.sources → (∀ other ∈ config.sources, (fleet.subscriber other).isSome) →
    fleet.inflight source = event :: rest → fleet.loop.running = true →
    FleetStep fleet (.receive source)
      { fleet with
        loop := fleet.loop.receive objectSize config clock source event
        inflight := update fleet.inflight source rest }
  | client {fleet : Fleet B} {action : SessionAction B} {session : Session B} :
    ClientAction action → SessionStep objectSize fleet.loop.session action session →
    FleetStep fleet (.client action)
      { fleet with loop := { fleet.loop with session := session } }

structure FleetStart (fleet : Fleet B) : Prop where
  loop : LoopStart config fleet.loop
  bound : fleet.loop.session.generation = generation
  world : ∀ source ∈ config.sources, Start objectSize generation source.topic (fleet.world source)
  subscriber : ∀ source, fleet.subscriber source = none
  inflight : ∀ source, fleet.inflight source = []

/-- No worker fails or passes a limit, nothing ends the session from outside, and the snapshots that
the loop receives are within its limits. -/
structure Faultless (fleet : Fleet B) (action : FleetAction B) (next : Fleet B) : Prop where
  healthy : ∀ source ∈ config.sources, ∀ event ∈ (next.world source).pending,
    event.event ≠ .reset ∧ event.event ≠ .error
  limits :
    match action with
    | .receive source => ∀ event rest, fleet.inflight source = event :: rest →
      ∀ state ∈ fleet.loop.states source.topic,
        SnapshotFits objectSize clock fleet.loop.session.generation source
          (filterScopedEvent config.allowedNamespaces event).1 state
    | .worker _ (.terminal ..) => False
    | .client .expire => False
    | _ => True

def Fleet.Complete (fleet : Fleet B) (topic : Topic) : Prop :=
  ∃ state, fleet.loop.states topic = some state ∧ state.complete = true

/-- The session joins a worker only when no snapshot of it is still to be broadcast, a worker
installs a snapshot only before it has sent one to the session, or after the topic is complete, and
the changes overflow neither a queue of the session nor the limits of the loop. -/
structure Undisturbed (fleet : Fleet B) (action : FleetAction B) (next : Fleet B) : Prop where
  once :
    match action with
    | .join source => ∀ event ∈ (fleet.world source).pending, event.event ≠ .snapshot
    | .worker source (.install _) => ∀ id, fleet.subscriber source = some id →
      fleet.Complete source.topic ∨
        ∀ event ∈ ((fleet.world source).subscription id).delivered, event.event ≠ .snapshot
    | _ => True
  stays : ∀ source ∈ config.sources, ∀ id ∈ next.subscriber source,
    id ∈ (next.world source).subscribers
  changes :
    match action with
    | .receive source => ∀ event rest, fleet.inflight source = event :: rest →
      ∀ state ∈ fleet.loop.states source.topic,
        ChangesFit objectSize clock fleet.loop.session.generation
          (filterScopedEvent config.allowedNamespaces event).1 state
    | _ => True

/-! ## What the loop knows of a source -/

structure Joined (fleet : Fleet B) (source : Source) (state : TopicState B) (id : Nat) : Prop where
  subscribed : id ∈ (fleet.world source).subscribers
  regular : ∀ event ∈ (fleet.world source).sent id, Regular event
  once : state.complete = false → Once (chunksOf ((fleet.world source).sent id))
  handled : ∃ handled, ((fleet.world source).subscription id).consumed =
      handled ++ fleet.inflight source ∧
    (source.key ∈ state.finalSources → ∃ event ∈ handled,
      event.event = .snapshot ∧ event.final = true)

def Followed (fleet : Fleet B) (source : Source) (state : TopicState B) : Prop :=
  match fleet.subscriber source with
  | none => fleet.inflight source = [] ∧ source.key ∉ state.finalSources
  | some id => Joined fleet source state id

structure FleetInv (fleet : Fleet B) : Prop where
  running : fleet.loop.running = true
  live : fleet.loop.session.Live
  bound : fleet.loop.session.generation = generation
  worlds : ∀ source ∈ config.sources,
    Watch.Inv objectSize generation source.topic (fleet.world source)
  pending : ∀ source ∈ config.sources, ∀ event ∈ (fleet.world source).pending, Regular event
  topics : ∀ source ∈ config.sources, ∃ state, fleet.loop.states source.topic = some state ∧
    (∀ event ∈ state.buffered, Regular event) ∧ Followed fleet source state

end

section

variable {B : Type} {objectSize : TopicObject B → Nat} {clock : Nat → String} {config : Config}
  {generation : String}

variable {fleet : Fleet B}

theorem FleetStart.inv (hproper : config.Proper)
    (h : FleetStart objectSize config generation fleet) :
    FleetInv objectSize config generation fleet := by
  refine ⟨h.loop.running, ⟨h.loop.session.live.2, h.loop.session.live.1⟩, h.bound,
    fun source hsource => (h.world source hsource).inv, fun source hsource => ?_,
    fun source hsource => ?_⟩
  · rw [(h.world source hsource).idle.1]
    simp
  · refine ⟨_, by rw [h.loop.states, if_pos (hproper.topics source hsource)],
      by simp [TopicState.new], ?_⟩
    unfold Followed
    rw [h.subscriber source]
    exact ⟨h.inflight source, by simp [TopicState.new]⟩

variable {action : Action B}

theorem Step.pending_kind {topic : Topic} {world next : World B}
    (hstep : Step objectSize generation topic world action next)
    (h : ∀ event ∈ world.pending, event.event ≠ .heartbeat) :
    ∀ event ∈ next.pending, event.event ≠ .heartbeat := by
  cases hstep with
  | install _ _ _ _ hevents _ =>
    intro event hevent
    rw [((SnapshotEvents_chunked hevents).snapshot event hevent).1]
    decide
  | @change event worker update _ _ _ hchange _ _ =>
    intro other hother
    cases update with
    | active =>
      rw [mem_singleton.mp hother]
      rcases hchange with h | h | h <;> simp [h]
    | stopped => exact absurd hother not_mem_nil
    | exceeded =>
      rw [mem_singleton.mp hother]
      simp [resetEvent]
  | @notice event _ hnotice _ =>
    intro other hother
    rw [mem_singleton.mp hother]
    rcases hnotice with h | h | h <;> simp [h]
  | broadcast hpending _ =>
    intro event hevent
    exact h event (by rw [hpending]; exact mem_cons_of_mem _ hevent)
  | subscribe | bookmark | deliver | delivered | terminal | next | close | finish => exact h

variable {source : Source} {event : StreamEvent B}

theorem TopicStep.frame {state next : TopicState B}
    {events : List (StreamEvent B)} (hregular : Regular event)
    (h : TopicStep objectSize config generation source event state next events) :
    (next.complete = false → state.complete = false) ∧
      ((∀ event ∈ state.buffered, Regular event) → ∀ event ∈ next.buffered, Regular event) ∧
      ∀ key ∈ next.finalSources, key ∈ state.finalSources ∨
        key = source.key ∧ event.event = .snapshot ∧ event.final = true := by
  have hmark : ∀ {kept : StreamEvent B} {added : TopicState B},
      filterScopedEvent config.allowedNamespaces event = (kept, true) → kept.event = .snapshot →
      state.addItems objectSize kept.items = some added →
      ∀ key ∈ (added.mark source kept).finalSources, key ∈ state.finalSources ∨
        key = source.key ∧ event.event = .snapshot ∧ event.final = true := by
    intro kept added hfilter hkind hadded key hkey
    obtain ⟨_, rfl⟩ := TopicState.addItems_eq_some hadded
    obtain ⟨hevent, -, hfinal⟩ := filterScopedEvent_eq hfilter
    rw [hevent] at hkind
    unfold TopicState.mark at hkey
    split at hkey
    · next hlast =>
      rw [hfinal] at hlast
      rcases mem_append.mp hkey with hkey | hkey
      · exact .inl hkey
      · exact .inr ⟨mem_singleton.mp hkey, hkind, hlast⟩
    · exact .inl hkey
  cases h with
  | dropped => exact ⟨id, id, fun _ hkey => .inl hkey⟩
  | published => exact ⟨id, id, fun _ hkey => .inl hkey⟩
  | previewed => exact ⟨id, id, fun _ hkey => .inl hkey⟩
  | collected hfilter hcomplete hkind hadded _ =>
    refine ⟨fun _ => hcomplete, ?_, hmark hfilter hkind hadded⟩
    obtain ⟨_, rfl⟩ := TopicState.addItems_eq_some hadded
    exact id
  | completed hfilter hcomplete hkind hadded _ _ =>
    exact ⟨fun _ => hcomplete, fun _ _ hnone => absurd hnone not_mem_nil,
      hmark hfilter hkind hadded⟩
  | buffered hfilter hcomplete _ _ hnext =>
    obtain ⟨_, rfl⟩ := TopicState.buffer_eq_some hnext
    refine ⟨fun _ => hcomplete, fun hbuffered other hother => ?_, fun _ hkey => .inl hkey⟩
    rcases mem_append.mp hother with hother | hother
    · exact hbuffered other hother
    · rw [mem_singleton.mp hother]
      unfold Regular
      rw [(filterScopedEvent_eq hfilter).1]
      exact hregular

/-! ## Steps of a worker -/

/-- A step of the worker of a source that is followed: its own subscription gets no second
snapshot before the topic is complete. -/
theorem Joined.worker {state : TopicState B} {id : Nat}
    {next : World B} (h : Joined fleet source state id)
    (hinv : Watch.Inv objectSize generation source.topic (fleet.world source))
    (hstate : fleet.loop.states source.topic = some state)
    (hstep : Step objectSize generation source.topic (fleet.world source) action next)
    (hreads : action ≠ .next id) (hstays : id ∈ next.subscribers)
    (hregular : ∀ event ∈ next.pending, Regular event)
    (hterminal : ∀ other event, action ≠ .terminal other event)
    (honce : ∀ snapshot, action = .install snapshot → fleet.Complete source.topic ∨
      ∀ event ∈ ((fleet.world source).subscription id).delivered, event.event ≠ .snapshot) :
    Joined { fleet with world := update fleet.world source next } source state id := by
  obtain ⟨handled, hconsumed, hfinal⟩ := h.handled
  by_cases hinstall : ∃ snapshot, action = .install snapshot
  · obtain ⟨snapshot, rfl⟩ := hinstall
    obtain ⟨hsame, hsent, hsingle, hchunks⟩ :=
      @Step.install_sent B objectSize generation source.topic _ _ id _ hstep
    have hall : chunksOf next.pending = next.pending :=
      filter_eq_self.mpr fun event hevent => by simpa using hchunks event hevent
    refine ⟨?_, ?_, ?_, handled, ?_, hfinal⟩
    all_goals dsimp only; rw [update_self]
    · exact hstays
    · intro event hevent
      rw [hsent] at hevent
      rcases mem_append.mp hevent with hevent | hevent
      · exact h.regular event (mem_append_left _ hevent)
      · exact hregular event hevent
    · intro hcomplete
      -- The topic is not complete, so nothing of a snapshot has been sent yet.
      have hnone := (honce snapshot rfl).resolve_left fun ⟨other, hother, hdone⟩ => by
        rw [some.inj (hother.symm.trans hstate)] at hdone
        exact absurd (hcomplete.symm.trans hdone) (by simp)
      rw [hsent, chunksOf_append, chunksOf_eq_nil hnone, hall]
      exact hsingle
    · rw [hsame, hconsumed]
  · have hsends := hstep.sends hinv h.subscribed hstays
        (fun snapshot heq => hinstall ⟨snapshot, heq⟩)
      hreads hterminal
    refine ⟨?_, ?_, ?_, handled, ?_, hfinal⟩
    all_goals dsimp only; rw [update_self]
    · exact hstays
    · intro event hevent
      rcases hsends.mem event hevent with hold | hnew
      · exact h.regular event hold
      · exact hregular event hnew
    · rw [hsends.chunks]
      exact h.once
    · rw [hsends.consumed, hconsumed]

variable {next : Fleet B}

theorem Followed.congr {state : TopicState B}
    (h : Followed fleet source state) (hworld : next.world source = fleet.world source)
    (hsubscriber : next.subscriber source = fleet.subscriber source)
    (hinflight : next.inflight source = fleet.inflight source) : Followed next source state := by
  unfold Followed at h ⊢
  rw [hsubscriber]
  split
  · next hnone =>
    rw [hnone] at h
    rw [hinflight]
    exact h
  · next id hsome =>
    rw [hsome] at h
    obtain ⟨hsubscribed, hregular, honce, hhandled⟩ := h
    constructor <;> rw [hworld]
    · exact hsubscribed
    · exact hregular
    · exact honce
    · rw [hinflight]
      exact hhandled

theorem Followed.state {state next : TopicState B}
    (h : Followed fleet source state) (hcomplete : next.complete = false → state.complete = false)
    (hkey : source.key ∈ next.finalSources → source.key ∈ state.finalSources) :
    Followed fleet source next := by
  unfold Followed at h ⊢
  split
  · next hnone =>
    rw [hnone] at h
    exact ⟨h.1, fun hmem => h.2 (hkey hmem)⟩
  · next id hsome =>
    rw [hsome] at h
    obtain ⟨handled, hconsumed, hfinal⟩ := h.handled
    exact ⟨h.subscribed, h.regular, fun hnot => h.once (hcomplete hnot), handled, hconsumed,
      fun hmem => hfinal (hkey hmem)⟩

theorem FleetInv.atSource (h : FleetInv objectSize config generation fleet)
    {moved : Fleet B} (hloop : moved.loop = fleet.loop)
    (hothers : ∀ other ≠ source, moved.world other = fleet.world other ∧
      moved.subscriber other = fleet.subscriber other ∧ moved.inflight other = fleet.inflight other)
    (hworld : Watch.Inv objectSize generation source.topic (moved.world source))
    (hpending : ∀ event ∈ (moved.world source).pending, Regular event)
    (hfollowed : ∀ state, fleet.loop.states source.topic = some state →
      Followed fleet source state → Followed moved source state) :
    FleetInv objectSize config generation moved := by
  refine ⟨hloop ▸ h.running, hloop ▸ h.live, hloop ▸ h.bound, fun other hother => ?_,
    fun other hother => ?_, fun other hother => ?_⟩
  all_goals by_cases hsame : other = source
  · exact hsame ▸ hworld
  · rw [(hothers other hsame).1]
    exact h.worlds other hother
  · exact hsame ▸ hpending
  · rw [(hothers other hsame).1]
    exact h.pending other hother
  all_goals obtain ⟨state, hstate, hbuffered, hold⟩ := h.topics other hother
  · subst hsame
    exact ⟨state, hloop ▸ hstate, hbuffered, hfollowed state hstate hold⟩
  · obtain ⟨hworld, hsubscriber, hinflight⟩ := hothers other hsame
    exact ⟨state, hloop ▸ hstate, hbuffered, hold.congr hworld hsubscriber hinflight⟩

theorem FleetInv.worker {next : World B} (h : FleetInv objectSize config generation fleet)
    (hsource : source ∈ config.sources)
    (hstep : Step objectSize generation source.topic (fleet.world source) action next)
    (hreads : ∀ id, fleet.subscriber source = some id → action ≠ .next id)
    (hfaultless : Faultless objectSize clock config fleet (.worker source action)
      { fleet with world := update fleet.world source next })
    (hundisturbed : Undisturbed objectSize clock config fleet (.worker source action)
      { fleet with world := update fleet.world source next }) :
    FleetInv objectSize config generation
      { fleet with world := update fleet.world source next } := by
  have hpending : ∀ event ∈ next.pending, Regular event := by
    have hheartbeat := Step.pending_kind hstep fun event hevent =>
      (h.pending source hsource event hevent).2.2
    intro event hevent
    have hhealthy := hfaultless.healthy source hsource event
    dsimp only at hhealthy
    rw [update_self] at hhealthy
    exact ⟨(hhealthy hevent).1, (hhealthy hevent).2, hheartbeat event hevent⟩
  refine h.atSource rfl (fun other hne => ⟨update_of_ne hne .., rfl, rfl⟩) ?_ ?_ ?_
  · dsimp only
    rw [update_self]
    exact hstep.inv (h.worlds source hsource)
  · dsimp only
    rw [update_self]
    exact hpending
  · intro state hstate hfollowed
    unfold Followed at hfollowed ⊢
    cases hsubscriber : fleet.subscriber source with
    | none =>
      rw [hsubscriber] at hfollowed
      exact hfollowed
    | some id =>
      rw [hsubscriber] at hfollowed
      have hstays := hundisturbed.stays source hsource id hsubscriber
      dsimp only at hstays
      rw [update_self] at hstays
      refine hfollowed.worker (h.worlds source hsource) hstate hstep (hreads id hsubscriber) hstays
        hpending ?_ ?_
      · rintro target event rfl
        exact hfaultless.limits
      · rintro snapshot rfl
        exact hundisturbed.once id hsubscriber

theorem FleetInv.join {next : World B} (h : FleetInv objectSize config generation fleet)
    (hsource : source ∈ config.sources) (hnone : fleet.subscriber source = none)
    (hstep : Step objectSize generation source.topic (fleet.world source) .subscribe next)
    (hstays : (fleet.world source).count ∈ next.subscribers)
    (hsettled : ∀ event ∈ (fleet.world source).pending, event.event ≠ .snapshot) :
    FleetInv objectSize config generation
      { fleet with
        world := update fleet.world source next
        subscriber :=
          update fleet.subscriber source (some (fleet.world source).count) } := by
  obtain ⟨hconsumed, initial, hsent, honce, hchunks⟩ :=
    hstep.subscribe_sent (h.worlds source hsource) hstays
  have hpending : next.pending = (fleet.world source).pending := by
    cases hstep
    rfl
  refine h.atSource rfl (fun other hne => ⟨update_of_ne hne .., update_of_ne hne .., rfl⟩) ?_ ?_ ?_
  · dsimp only
    rw [update_self]
    exact hstep.inv (h.worlds source hsource)
  · dsimp only
    rw [update_self, hpending]
    exact h.pending source hsource
  · intro state hstate hfollowed
    unfold Followed at hfollowed ⊢
    rw [hnone] at hfollowed
    dsimp only at hfollowed ⊢
    rw [update_self]
    refine ⟨?_, ?_, fun _ => ?_, [], ?_, fun hkey => absurd hkey hfollowed.2⟩
    all_goals dsimp only; rw [update_self]
    · exact hstays
    · rw [hsent]
      intro event hevent
      rcases mem_append.mp hevent with hevent | hevent
      · exact ⟨by simp [hchunks event hevent], by simp [hchunks event hevent],
          by simp [hchunks event hevent]⟩
      · exact h.pending source hsource event hevent
    · have hall : chunksOf initial = initial :=
        filter_eq_self.mpr fun event hevent => by simpa using hchunks event hevent
      rw [hsent, chunksOf_append, chunksOf_eq_nil hsettled, hall, append_nil]
      exact honce
    · rw [hconsumed, hfollowed.1]
      rfl

theorem FleetInv.forward {next : World B} (h : FleetInv objectSize config generation fleet)
    (hsource : source ∈ config.sources)
    {id : Nat} {item : QueuedEvent B} {rest : List (QueuedEvent B)}
    (hsubscriber : fleet.subscriber source = some id)
    (hqueue : ((fleet.world source).subscription id).queue = item :: rest)
    (hstep : Step objectSize generation source.topic (fleet.world source) (.next id) next) :
    FleetInv objectSize config generation
      { fleet with
        world := update fleet.world source next
        inflight :=
          update fleet.inflight source (fleet.inflight source ++ [item.event]) } := by
  have hinv := hstep.inv (h.worlds source hsource)
  have hworld : next = { fleet.world source with
      subscription := update (fleet.world source).subscription id
        ((fleet.world source).subscription id).Next } := by
    cases hstep
    rfl
  refine h.atSource rfl (fun other hne => ⟨update_of_ne hne .., rfl, update_of_ne hne ..⟩) ?_ ?_ ?_
  · dsimp only
    rw [update_self]
    exact hinv
  · dsimp only
    rw [update_self, hworld]
    exact h.pending source hsource
  · intro state hstate hfollowed
    unfold Followed at hfollowed ⊢
    rw [hsubscriber] at hfollowed
    rw [hsubscriber]
    obtain ⟨handled, hconsumed, hfinal⟩ := hfollowed.handled
    have hsent : next.sent id = (fleet.world source).sent id := by
      rw [World.sent, World.sent, hworld]
      simp [World.outstanding, World.underway]
    refine ⟨?_, ?_, ?_, handled, ?_, hfinal⟩
    all_goals dsimp only; rw [update_self]
    · rw [hworld]
      exact hfollowed.subscribed
    · rw [hsent]
      exact hfollowed.regular
    · rw [hsent]
      exact hfollowed.once
    · rw [update_self, hworld, ← append_assoc, ← hconsumed]
      simp [Subscription.Next, hqueue]

theorem FleetInv.client (h : FleetInv objectSize config generation fleet)
    {action : SessionAction B} {session : Session B}
    (haction : ClientAction action) (hexpire : action ≠ .expire)
    (hstep : SessionStep objectSize fleet.loop.session action session) :
    FleetInv objectSize config generation
      { fleet with loop := { fleet.loop with session := session } } := by
  obtain ⟨hlive, hgeneration, -⟩ := hstep.client_frame h.live haction hexpire
  refine ⟨h.running, hlive, hgeneration.trans h.bound, h.worlds, h.pending,
    fun source hsource => ?_⟩
  obtain ⟨state, hstate, hbuffered, hfollowed⟩ := h.topics source hsource
  exact ⟨state, hstate, hbuffered, hfollowed.congr rfl rfl rfl⟩

theorem FleetInv.receive (h : FleetInv objectSize config generation fleet) (hproper : config.Proper)
    {rest : List (StreamEvent B)} (hsource : source ∈ config.sources)
    (hjoined : (fleet.subscriber source).isSome) (hinflight : fleet.inflight source = event :: rest)
    (hwithin : Within objectSize clock config fleet.loop source event) :
    FleetInv objectSize config generation
      { fleet with
        loop := fleet.loop.receive objectSize config clock source event
        inflight := update fleet.inflight source rest } := by
  obtain ⟨id, hsubscriber⟩ := isSome_iff_exists.mp hjoined
  obtain ⟨state, hstate, hbuffered, hfollowed⟩ := h.topics source hsource
  have hown := hfollowed
  unfold Followed at hown
  rw [hsubscriber] at hown
  obtain ⟨handled, hconsumed, hfinal⟩ := hown.handled
  rw [hinflight] at hconsumed
  have hsent : (fleet.world source).sent id = handled ++ event :: (rest ++
      (((fleet.world source).subscription id).queue.map QueuedEvent.event ++
        (fleet.world source).outstanding id)) := by
    rw [World.sent, Subscription.delivered, hconsumed]
    simp
  have hregular : Regular event := hown.regular event (by rw [hsent]; simp)
  have hfresh : event.event = .snapshot → state.complete = false →
      source.key ∉ state.finalSources := by
    intro hkind hcomplete hkey
    -- The final chunk that was handled before would be followed by this one.
    obtain ⟨final, hmem, hsnapshot, hlast⟩ := hfinal hkey
    obtain ⟨before, after, rfl⟩ := append_of_mem hmem
    have honce := hown.once hcomplete
    rw [hsent, append_assoc, cons_append, chunksOf_append] at honce
    have hcons : ∀ (event : StreamEvent B) events, event.event = .snapshot →
        chunksOf (event :: events) = event :: chunksOf events := by
      intro event events hkind
      simp [chunksOf, hkind]
    rw [hcons _ _ hsnapshot, chunksOf_append, hcons _ _ hkind] at honce
    exact absurd (honce _ _ _ rfl hlast) (by simp)
  obtain ⟨session, next, events, hreceive, hextends, hstep⟩ :=
    Loop.receive_step h.live h.running hstate hbuffered hregular hfresh hwithin
  obtain ⟨hincomplete, hregulars, hkeys⟩ := hstep.frame hregular
  rw [hreceive]
  refine ⟨rfl, hextends.live, hextends.generation.trans h.bound, h.worlds, h.pending,
    fun other hother => ?_⟩
  by_cases hsame : other = source
  · subst hsame
    refine ⟨next, update_self _ _ _, hregulars hbuffered, ?_⟩
    unfold Followed
    rw [hsubscriber]
    refine ⟨hown.subscribed, hown.regular, fun hnot => hown.once (hincomplete hnot),
      handled ++ [event], ?_, fun hkey => ?_⟩
    · dsimp only
      rw [update_self, hconsumed, append_assoc, singleton_append]
    · rcases hkeys _ hkey with hold | ⟨-, hkind, hlast⟩
      · obtain ⟨final, hmem, hfacts⟩ := hfinal hold
        exact ⟨final, mem_append_left _ hmem, hfacts⟩
      · exact ⟨event, by simp, hkind, hlast⟩
  · obtain ⟨otherState, hotherState, hotherBuffered, hotherFollowed⟩ := h.topics other hother
    have hrest : update fleet.inflight source rest other = fleet.inflight other :=
      update_of_ne hsame _ _
    by_cases htopic : other.topic = source.topic
    · -- Another source of the same topic: only the key of this one can become final.
      have heq : otherState = state :=
        some.inj (hotherState.symm.trans (htopic ▸ hstate))
      subst heq
      refine ⟨next, ?_, hregulars hbuffered, ?_⟩
      · dsimp only
        rw [htopic, update_self]
      have hkey : other.key ∈ next.finalSources → other.key ∈ otherState.finalSources := by
        intro hkey
        refine (hkeys _ hkey).resolve_right fun hnew => hsame ?_
        exact hproper.key_inj hother hsource hnew.1
      exact (hotherFollowed.state hincomplete hkey).congr rfl rfl hrest
    · refine ⟨otherState, ?_, hotherBuffered, hotherFollowed.congr rfl rfl hrest⟩
      exact (update_of_ne htopic _ _).trans hotherState

/-! ## Every run -/

theorem FleetInv.of_step (hproper : config.Proper) {action : FleetAction B}
    (h : FleetInv objectSize config generation fleet)
    (hstep : FleetStep objectSize clock config generation fleet action next)
    (hfaultless : Faultless objectSize clock config fleet action next)
    (hundisturbed : Undisturbed objectSize clock config fleet action next) :
    FleetInv objectSize config generation next := by
  cases hstep with
  | worker hsource hstep hreads => exact h.worker hsource hstep hreads hfaultless hundisturbed
  | join hsource hnone hstep =>
    refine h.join hsource hnone hstep ?_ hundisturbed.once
    have hstays := hundisturbed.stays _ hsource _ (update_self _ _ _)
    dsimp only at hstays
    rwa [update_self] at hstays
  | forward hsource hsubscriber hqueue hstep => exact h.forward hsource hsubscriber hqueue hstep
  | receive hsource hjoined hinflight hrunning =>
    exact h.receive hproper hsource (hjoined _ hsource) hinflight fun state hstate =>
      ⟨hfaultless.limits _ _ hinflight state hstate,
        hundisturbed.changes _ _ hinflight state hstate⟩
  | client haction hstep =>
    refine h.client haction ?_ hstep
    rintro rfl
    exact hfaultless.limits

/-- In every faultless run in which the session joins no worker between the install and the
broadcast of a snapshot, no worker lists again before the topic is complete, and the changes have
room, the session is not terminated. -/
theorem session_not_terminated (hproper : config.Proper) {start fleet : Fleet B}
    {actions : List (FleetAction B)} (hstart : FleetStart objectSize config generation start)
    (hrun : Runs (fun fleet action next =>
      FleetStep objectSize clock config generation fleet action next ∧
        Faultless objectSize clock config fleet action next ∧
        Undisturbed objectSize clock config fleet action next)
      start actions fleet) :
    fleet.loop.session.terminal = none := by
  have hinv : FleetInv objectSize config generation fleet :=
    hrun.invariant (hstart.inv hproper) fun h hstep =>
      h.of_step hproper hstep.1 hstep.2.1 hstep.2.2
  exact hinv.live.2

end

/-! Pods of two namespaces.  The worker of the first starts with a stale snapshot of the cache. -/

def shopSource : Source := ⟨.TopicPods, "pods/shop", "shop"⟩

def bankSource : Source := ⟨.TopicPods, "pods/bank", "bank"⟩

def pairConfig : Config := ⟨none, false, 2, [.TopicPods], [shopSource, bankSource]⟩

def emptyWorld : World Unit :=
  ⟨Worker.zero Unit, false, fun _ => newSubscription Unit, 0, [], [], none⟩

def staleWorld : World Unit :=
  { emptyWorld with
    worker := ⟨⟨"6", []⟩, 2, true, [chunkEvent "g1" .TopicPods "6" 0 [] true], false⟩ }

def pairFleet : Fleet Unit where
  loop := ⟨emptySession, fun topic => if topic = .TopicPods then some (.new 2) else none, true⟩
  world source := if source = shopSource then staleWorld else emptyWorld
  subscriber _ := none
  inflight _ := []

theorem pairFleet_start : FleetStart (fun _ => 100) pairConfig "g1" pairFleet := by
  refine ⟨⟨emptySession_start, ?_, rfl⟩, rfl, ?_, fun _ => rfl, fun _ => rfl⟩
  · intro topic
    cases topic <;> rfl
  · intro source hsource
    rcases mem_pair.mp hsource with rfl | rfl
    · exact ⟨rfl, rfl, ⟨rfl, rfl⟩, .inr ⟨nodup_nil, rfl, rfl⟩⟩
    · exact ⟨rfl, rfl, ⟨rfl, rfl⟩, .inl ⟨rfl, rfl⟩⟩

theorem pairConfig_proper : pairConfig.Proper :=
  ⟨by decide, by decide, by decide⟩

def PairStep (fleet : Fleet Unit) (action : FleetAction Unit) (next : Fleet Unit) : Prop :=
  FleetStep (fun _ => 100) (fun _ => "now") pairConfig "g1" fleet action next ∧
    Faultless (fun _ => 100) (fun _ => "now") pairConfig fleet action next

def QuietStep (fleet : Fleet Unit) (action : FleetAction Unit) (next : Fleet Unit) : Prop :=
  FleetStep (fun _ => 100) (fun _ => "now") pairConfig "g1" fleet action next ∧
    Faultless (fun _ => 100) (fun _ => "now") pairConfig fleet action next ∧
    Undisturbed (fun _ => 100) (fun _ => "now") pairConfig fleet action next

def shopChunk (resourceVersion : String) : StreamEvent Unit :=
  chunkEvent "g1" .TopicPods resourceVersion 0 [] true

/-- What the steps of the loop need of the rest of the fleet, and leave as it is. -/
structure Ready (fleet : Fleet Unit) : Prop where
  running : fleet.loop.running = true
  joined : ∀ source ∈ pairConfig.sources, (fleet.subscriber source).isSome
  stays : ∀ source ∈ pairConfig.sources, ∀ id ∈ fleet.subscriber source,
    id ∈ (fleet.world source).subscribers
  healthy : ∀ source ∈ pairConfig.sources, ∀ event ∈ (fleet.world source).pending,
    event.event ≠ .reset ∧ event.event ≠ .error

def pairReceive (loop : Loop Unit) (source : Source) (event : StreamEvent Unit) : Loop Unit :=
  loop.receive (fun _ => 100) pairConfig (fun _ => "now") source event

theorem Ready.receive {fleet : Fleet Unit} (h : Ready fleet) {source : Source}
    {event : StreamEvent Unit} {rest : List (StreamEvent Unit)}
    (hsource : source ∈ pairConfig.sources) (hinflight : fleet.inflight source = event :: rest)
    (hwithin : Within (fun _ => 100) (fun _ => "now") pairConfig fleet.loop source event) :
    QuietStep fleet (.receive source)
      { fleet with
        loop := pairReceive fleet.loop source event
        inflight := update fleet.inflight source rest } := by
  refine ⟨.receive hsource h.joined hinflight h.running, ⟨h.healthy, ?_⟩, trivial, h.stays, ?_⟩
  all_goals
    intro other later hother state hstate
    obtain ⟨rfl, rfl⟩ := cons.inj (hinflight.symm.trans hother)
  · exact (hwithin state hstate).1
  · exact (hwithin state hstate).2

theorem changed_forwarded :
    ∃ fleet, Runs QuietStep pairFleet [.join shopSource, .join bankSource,
        .worker bankSource (.install ⟨"7", [podObject "bank" "api"]⟩),
        .worker bankSource .broadcast, .worker bankSource (.deliver 0),
        .worker bankSource .delivered, .worker bankSource (.change (podAdded "bank" "web")),
        .worker bankSource .broadcast, .worker bankSource (.deliver 0), .forward bankSource,
        .forward bankSource, .forward shopSource] fleet ∧
      fleet.loop = pairFleet.loop ∧ fleet.inflight shopSource = [shopChunk "6"] ∧
      fleet.inflight bankSource = [podChunk 0 [("bank", "api")] true, podAdded "bank" "web"] ∧
      Ready fleet := by
  refine runs_cons ⟨.join (by decide) rfl (.subscribe rfl), ⟨by decide, trivial⟩,
    forall_mem_nil _, by decide, trivial⟩ ?_
  refine runs_cons ⟨.join (by decide) rfl (.subscribe rfl), ⟨by decide, trivial⟩,
    forall_mem_nil _, by decide, trivial⟩ ?_
  refine runs_cons ⟨.worker (by decide) (.install false (fun _ => true) ⟨rfl, rfl⟩
    (by decide) rfl rfl) (by simp), ⟨by decide, trivial⟩, ?_, by decide, trivial⟩ ?_
  · exact fun id hid => .inr (by cases hid; exact forall_mem_nil _)
  refine runs_cons ⟨.worker (by decide) (.broadcast rfl rfl) (by simp), ⟨by decide, trivial⟩,
    trivial, by decide, trivial⟩ ?_
  refine runs_cons ⟨.worker (by decide) (.deliver rfl (by decide)) (by simp),
    ⟨by decide, trivial⟩, trivial, by decide, trivial⟩ ?_
  refine runs_cons ⟨.worker (by decide) (.delivered rfl) (by simp), ⟨by decide, trivial⟩,
    trivial, by decide, trivial⟩ ?_
  refine runs_cons ⟨.worker (by decide) (.change (fun _ => true) ⟨rfl, rfl⟩ rfl (.inl rfl) rfl
    rfl) (by simp), ⟨by decide, trivial⟩, trivial, by decide, trivial⟩ ?_
  refine runs_cons ⟨.worker (by decide) (.broadcast rfl rfl) (by simp), ⟨by decide, trivial⟩,
    trivial, by decide, trivial⟩ ?_
  refine runs_cons ⟨.worker (by decide) (.deliver rfl (by decide)) (by simp),
    ⟨by decide, trivial⟩, trivial, by decide, trivial⟩ ?_
  apply runs_cons ⟨.forward (by decide) rfl rfl .next, ⟨by decide, trivial⟩, trivial, by decide,
    trivial⟩
  apply runs_cons ⟨.forward (by decide) rfl rfl .next, ⟨by decide, trivial⟩, trivial, by decide,
    trivial⟩
  apply runs_cons ⟨.forward (by decide) rfl rfl .next, ⟨by decide, trivial⟩, trivial, by decide,
    trivial⟩
  exact ⟨_, .nil _, rfl, rfl, rfl, ⟨rfl, by decide, by decide, by decide⟩⟩

def listedLoop : Loop Unit :=
  pairReceive pairFleet.loop bankSource (podChunk 0 [("bank", "api")] true)

def changedLoop : Loop Unit :=
  pairReceive listedLoop bankSource (podAdded "bank" "web")

def completedLoop : Loop Unit :=
  pairReceive changedLoop shopSource (shopChunk "6")

def PairFits (loop : Loop Unit) (source : Source) (event : StreamEvent Unit) : Prop :=
  Within (fun _ => 100) (fun _ => "now") pairConfig loop source event

instance (loop : Loop Unit) (source : Source) (event : StreamEvent Unit) :
    Decidable (PairFits loop source event) :=
  inferInstanceAs (Decidable (Within ..))

/-- The worker of the second source lists a pod and reports a change, which is buffered until the
snapshot of the first source completes the topic. -/
theorem session_not_terminated_changed :
    ∃ actions fleet, Runs QuietStep pairFleet
        (actions ++ [.receive bankSource] ++ [.receive bankSource] ++ [.receive shopSource]) fleet ∧
      fleet.loop.session.terminal = none ∧ fleet.Complete .TopicPods ∧
      (publishedOn .TopicPods fleet.loop.session).map (·.event.event) = [.snapshot, .added] := by
  obtain ⟨⟨loop, world, subscriber, inflight⟩, hrun, rfl, hshop, hbank, hready⟩ :=
    changed_forwarded
  have hlisted : QuietStep _ (.receive bankSource) ⟨listedLoop, world, subscriber,
      update inflight bankSource [podAdded "bank" "web"]⟩ :=
    hready.receive (by decide) hbank (show PairFits pairFleet.loop _ _ by decide +kernel)
  have hready' : Ready ⟨listedLoop, world, subscriber,
      update inflight bankSource [podAdded "bank" "web"]⟩ :=
    ⟨show listedLoop.running = true by decide +kernel, hready.2, hready.3, hready.4⟩
  have hchanged : QuietStep _ (.receive bankSource) ⟨changedLoop, world, subscriber,
      update (update inflight bankSource [podAdded "bank" "web"]) bankSource []⟩ :=
    hready'.receive (by decide) (update_self bankSource [podAdded "bank" "web"] inflight)
      (show PairFits listedLoop _ _ by decide +kernel)
  have hready'' : Ready ⟨changedLoop, world, subscriber,
      update (update inflight bankSource [podAdded "bank" "web"]) bankSource []⟩ :=
    ⟨show changedLoop.running = true by decide +kernel, hready.2, hready.3, hready.4⟩
  have hqueued : update (update inflight bankSource [podAdded "bank" "web"]) bankSource []
      shopSource = [shopChunk "6"] := by
    rw [update_of_ne (by decide), update_of_ne (by decide)]
    exact hshop
  have hcompleted : QuietStep _ (.receive shopSource) ⟨completedLoop, world, subscriber, _⟩ :=
    hready''.receive (by decide) hqueued (show PairFits changedLoop _ _ by decide +kernel)
  have hruns := ((hrun.snoc hlisted).snoc hchanged).snoc hcompleted
  have hcomplete : ∃ state, completedLoop.states .TopicPods = some state ∧
      state.complete = true := by decide +kernel
  have hpublished : (publishedOn .TopicPods completedLoop.session).map (·.event.event) =
      [.snapshot, .added] := by decide +kernel
  exact ⟨_, _, hruns, session_not_terminated pairConfig_proper pairFleet_start hruns, hcomplete,
    hpublished⟩

theorem stale_snapshot_forwarded :
    ∃ fleet, Runs PairStep pairFleet [.join shopSource, .join bankSource,
        .worker shopSource (.install ⟨"7", []⟩), .worker shopSource .broadcast,
        .worker shopSource (.deliver 0), .forward shopSource, .forward shopSource] fleet ∧
      fleet.loop = pairFleet.loop ∧
      fleet.inflight shopSource = [shopChunk "6", shopChunk "7"] ∧ Ready fleet := by
  refine runs_cons ⟨.join (by decide) rfl (.subscribe rfl), by decide, trivial⟩ ?_
  refine runs_cons ⟨.join (by decide) rfl (.subscribe rfl), by decide, trivial⟩ ?_
  refine runs_cons ⟨.worker (by decide) (.install false (fun _ => true) ⟨rfl, rfl⟩
    nodup_nil rfl rfl) (by simp), by decide, trivial⟩ ?_
  refine runs_cons ⟨.worker (by decide) (.broadcast rfl rfl) (by simp), by decide, trivial⟩ ?_
  refine runs_cons ⟨.worker (by decide) (.deliver rfl (by decide)) (by simp), by decide,
    trivial⟩ ?_
  apply runs_cons ⟨.forward (by decide) rfl rfl .next, by decide, trivial⟩
  apply runs_cons ⟨.forward (by decide) rfl rfl .next, by decide, trivial⟩
  exact ⟨_, .nil _, rfl, rfl, ⟨rfl, by decide, by decide, by decide⟩⟩

def staleLoop : Loop Unit :=
  pairReceive pairFleet.loop shopSource (shopChunk "6")

/-- The second snapshot of the first source ends the session, and no snapshot of the pods has been
published. -/
theorem stale_snapshot_resets :
    FleetStart (fun _ => 100) pairConfig "g1" pairFleet ∧ pairConfig.Proper ∧
    ∃ fleet, Runs PairStep pairFleet [.join shopSource, .join bankSource,
        .worker shopSource (.install ⟨"7", []⟩), .worker shopSource .broadcast,
        .worker shopSource (.deliver 0), .forward shopSource, .forward shopSource,
        .receive shopSource, .receive shopSource] fleet ∧
      fleet.loop.session.terminal =
        some (fleet.loop.session.resetEvent .TopicPods "snapshot_too_large") ∧
      ¬ fleet.Complete .TopicPods := by
  refine ⟨pairFleet_start, pairConfig_proper, ?_⟩
  obtain ⟨⟨loop, world, subscriber, inflight⟩, hrun, rfl, hinflight, hready⟩ :=
    stale_snapshot_forwarded
  have hstale := hready.receive (by decide) hinflight
    (show PairFits pairFleet.loop _ _ by decide +kernel)
  have hready' : Ready ⟨staleLoop, world, subscriber, update inflight shopSource [shopChunk "7"]⟩ :=
    ⟨show staleLoop.running = true by decide +kernel, hready.2, hready.3, hready.4⟩
  have hlisted := hready'.receive (by decide) (update_self ..)
    (show PairFits staleLoop _ _ by decide +kernel)
  refine ⟨_, (hrun.snoc ⟨hstale.1, hstale.2.1⟩).snoc ⟨hlisted.1, hlisted.2.1⟩, rfl, ?_⟩
  rintro ⟨state, hstate, hcomplete⟩
  obtain rfl := Option.some.inj hstate
  exact absurd hcomplete (by decide)

end Kubepeep.Stream
