import Kubepeep.Stream.Loop
import Kubepeep.Stream.Resume

/-!
# Receiving within the limits

One lemma for each branch of the loop, for a session that has not ended and an event that passes the
checks of its branch.
-/

open List Function Kubepeep.Resources Kubepeep.System Kubepeep.Watch

namespace Kubepeep.Stream

variable {B : Type} {objectSize : TopicObject B → Nat} {clock : Nat → String}

def Session.Live (session : Session B) : Prop :=
  session.expired = false ∧ session.terminal = none

def Regular (event : StreamEvent B) : Prop :=
  event.event ≠ .reset ∧ event.event ≠ .error ∧ event.event ≠ .heartbeat

variable (objectSize clock) in
/-- The event fits the limit of the ring at any time. -/
def Fits (generation : String) (event : StreamEvent B) : Prop :=
  ∀ n, (Session.stamp generation (clock n) event).wireBytes objectSize ≤ MaximumStreamEventBytes

def Stamped (generation : String) (event : StreamEvent B) (entry : ReplayEntry B) : Prop :=
  ∃ now, entry.event = Session.stamp generation now event

structure Session.Extends (session : Session B) (events : List (StreamEvent B))
    (next : Session B) : Prop where
  live : next.Live
  generation : next.generation = session.generation
  published : ∃ entries, next.published = session.published ++ entries ∧
    Forall₂ (Stamped session.generation) events entries

variable {session : Session B}

theorem Session.Extends.refl (h : session.Live) : session.Extends [] session :=
  ⟨h, rfl, [], by simp, .nil⟩

theorem Session.Extends.trans {middle next : Session B} {first second : List (StreamEvent B)}
    (h : session.Extends first middle) (hnext : middle.Extends second next) :
    session.Extends (first ++ second) next := by
  obtain ⟨entries, hentries, hall⟩ := h.published
  obtain ⟨later, hlater, hrest⟩ := hnext.published
  refine ⟨hnext.live, hnext.generation.trans h.generation, entries ++ later, ?_, ?_⟩
  · rw [hlater, hentries, append_assoc]
  · rw [h.generation] at hrest
    exact rel_append hall hrest

variable {event : StreamEvent B}

theorem Session.publish_extends (hlive : session.Live) (hregular : Regular event) {now : String}
    (hfits : (Session.stamp session.generation now event).wireBytes objectSize ≤
      MaximumStreamEventBytes) :
    ∃ next, session.publish objectSize now event = (next, true) ∧ session.Extends [event] next := by
  obtain ⟨hreset, herror, hheartbeat⟩ := hregular
  generalize hstamped : Session.stamp session.generation now event = stamped at hfits
  have hkind : stamped.event = event.event := by rw [← hstamped]; rfl
  have happend : ∃ ring id, session.ring.Append objectSize stamped = .ok (ring, id) ∧ id ≠ "" := by
    unfold ReplayRing.Append
    rw [if_neg (by simp [hkind, hreset, herror, hheartbeat]), if_neg (Nat.not_lt.mpr hfits)]
    exact ⟨_, _, rfl, eventID_ne_empty _ _⟩
  obtain ⟨ring, id, happend, hid⟩ := happend
  obtain ⟨next, hnext⟩ : ∃ next, next = Session.pushAll objectSize { session with
      ring := ring
      published := session.published ++ [⟨id, stamped⟩] } ⟨id, stamped⟩ := ⟨_, rfl⟩
  have hlocked : session.publishLocked objectSize stamped = (next, .done) := by
    unfold Session.publishLocked
    rw [if_neg (by simp [hlive.1, hlive.2]), happend, hnext]
    simp [hid]
  refine ⟨next, ?_, hnext ▸ hlive, hnext ▸ rfl, [⟨id, stamped⟩], hnext ▸ rfl, ?_⟩
  · unfold Session.publish
    rw [hstamped, if_neg (by simp [hkind, hreset, herror]), hlocked]
  · exact .cons ⟨now, hstamped.symm⟩ .nil

theorem Loop.publishEach_extends {events : List (StreamEvent B)} :
    ∀ {session : Session B}, session.Live →
      (∀ event ∈ events, Regular event ∧ Fits objectSize clock session.generation event) →
      ∃ next, publishEach objectSize clock session events = (next, true) ∧
        session.Extends events next := by
  induction events with
  | nil => exact fun hlive _ => ⟨_, rfl, .refl hlive⟩
  | cons event rest ih =>
    intro session hlive hevents
    obtain ⟨⟨hregular, hfits⟩, hrest⟩ := forall_mem_cons.mp hevents
    obtain ⟨middle, hpublish, hfirst⟩ := Session.publish_extends hlive hregular
      (hfits session.published.length)
    obtain ⟨next, hlater, hextends⟩ := ih hfirst.live (hfirst.generation ▸ hrest)
    refine ⟨next, ?_, hfirst.trans hextends⟩
    unfold publishEach
    rw [hpublish]
    exact hlater

theorem Session.publishTransient_extends (hlive : session.Live) (event : StreamEvent B) :
    ∃ next, session.publishTransient objectSize event = (next, true) ∧ session.Extends [] next := by
  unfold Session.publishTransient
  rw [if_neg (by simp [hlive.1, hlive.2])]
  exact ⟨_, rfl, hlive, rfl, [], by simp [Session.pushAll], .nil⟩

/-! ## One topic -/

theorem filterScopedEvent_fst (allowed : Option (List String)) (event : StreamEvent B) :
    ∃ items, (filterScopedEvent allowed event).1 = { event with items := items } := by
  unfold filterScopedEvent
  cases allowed with
  | none => exact ⟨event.items, rfl⟩
  | some allowed =>
    dsimp only
    split
    · exact ⟨event.items, rfl⟩
    split
    · exact ⟨event.items, rfl⟩
    split
    · exact ⟨event.items, rfl⟩
    split
    · exact ⟨event.items, rfl⟩
    split
    · exact ⟨_, rfl⟩
    · exact ⟨event.items, rfl⟩

theorem filterScopedEvent_eq {allowed : Option (List String)} {event kept : StreamEvent B}
    {keep : Bool} (h : filterScopedEvent allowed event = (kept, keep)) :
    kept.event = event.event ∧ kept.topic = event.topic ∧ kept.final = event.final := by
  obtain ⟨items, hitems⟩ := filterScopedEvent_fst allowed event
  rw [h] at hitems
  obtain rfl : kept = _ := hitems
  exact ⟨rfl, rfl, rfl⟩

variable (objectSize clock) in
/-- A chunk of a snapshot has room, and so has the snapshot of a topic that it completes. -/
def SnapshotFits (generation : String) (source : Source) (kept : StreamEvent B)
    (state : TopicState B) : Prop :=
  state.complete = false → kept.event = .snapshot →
    ∃ added, state.addItems objectSize kept.items = some added ∧
      ((added.mark source kept).finalSources.length = added.expected → ∃ chunks,
        SnapshotEvents objectSize generation source.topic
            ⟨(added.mark source kept).resourceVersion, added.items⟩ = .ok chunks ∧
          ∀ event ∈ chunks, Fits objectSize clock generation event)

variable (objectSize clock) in
/-- What is published after the snapshot is no larger than an event may be, and there is room to
buffer a change before. -/
structure ChangesFit (generation : String) (kept : StreamEvent B) (state : TopicState B) :
    Prop where
  published : state.complete = true → Fits objectSize clock generation kept
  flushed : ∀ event ∈ state.buffered, Fits objectSize clock generation event
  buffered : state.complete = false → kept.event ≠ .snapshot → kept.event ≠ .progress →
    (state.buffer objectSize kept).isSome = true

variable (objectSize clock) in
def Within (config : Config) (loop : Loop B) (source : Source) (event : StreamEvent B) : Prop :=
  ∀ state ∈ loop.states source.topic,
    let kept := (filterScopedEvent config.allowedNamespaces event).1
    SnapshotFits objectSize clock loop.session.generation source kept state ∧
      ChangesFit objectSize clock loop.session.generation kept state

section

variable (generation now : String) (source : Source) (kept : StreamEvent B) (state : TopicState B)

/-! With a clock that stands still the limits can be evaluated. -/

instance : Decidable (Fits objectSize (fun _ => now) generation kept) :=
  decidable_of_iff ((Session.stamp generation now kept).wireBytes objectSize ≤
    MaximumStreamEventBytes) ⟨fun h _ => h, fun h => h 0⟩

instance decidableExistsOk {ε α : Type} (result : Except ε α) (P : α → Prop) [DecidablePred P] :
    Decidable (∃ a, result = .ok a ∧ P a) :=
  match result with
  | .ok a => decidable_of_iff (P a) (by simp)
  | .error _ => isFalse (by simp)

instance decidableExistsSome {α : Type} (result : Option α) (P : α → Prop) [DecidablePred P] :
    Decidable (∃ a, result = some a ∧ P a) :=
  match result with
  | some a => decidable_of_iff (P a) (by simp)
  | none => isFalse (by simp)

instance : Decidable (SnapshotFits objectSize (fun _ => now) generation source kept state) :=
  inferInstanceAs (Decidable (_ → _ → _))

instance : Decidable (ChangesFit objectSize (fun _ => now) generation kept state) :=
  decidable_of_iff ((state.complete = true → Fits objectSize (fun _ => now) generation kept) ∧
    (∀ event ∈ state.buffered, Fits objectSize (fun _ => now) generation event) ∧
    (state.complete = false → kept.event ≠ .snapshot → kept.event ≠ .progress →
      (state.buffer objectSize kept).isSome = true))
    ⟨fun h => ⟨h.1, h.2.1, h.2.2⟩, fun h => ⟨h.published, h.flushed, h.buffered⟩⟩

instance (config : Config) (loop : Loop B) (event : StreamEvent B) :
    Decidable (Within objectSize (fun _ => now) config loop source event) :=
  inferInstanceAs (Decidable (∀ state ∈ loop.states source.topic, _ ∧ _))

end

variable (objectSize) in
/-- What an event of a source does to the state of its topic, and what is published. -/
inductive TopicStep (config : Config) (generation : String) (source : Source)
    (event : StreamEvent B) : TopicState B → TopicState B → List (StreamEvent B) → Prop where
  | dropped {state : TopicState B} :
    (filterScopedEvent config.allowedNamespaces event).2 = false →
    TopicStep config generation source event state state []
  | published {state : TopicState B} {kept : StreamEvent B} :
    filterScopedEvent config.allowedNamespaces event = (kept, true) → state.complete = true →
    TopicStep config generation source event state state [kept]
  | previewed {state : TopicState B} {kept : StreamEvent B} {previewSent : Nat} :
    filterScopedEvent config.allowedNamespaces event = (kept, true) → state.complete = false →
    kept.event = .progress →
    TopicStep config generation source event state { state with previewSent := previewSent } []
  | collected {state added : TopicState B} {kept : StreamEvent B} :
    filterScopedEvent config.allowedNamespaces event = (kept, true) → state.complete = false →
    kept.event = .snapshot → state.addItems objectSize kept.items = some added →
    (added.mark source kept).finalSources.length ≠ added.expected →
    TopicStep config generation source event state (added.mark source kept) []
  | completed {state added : TopicState B} {kept : StreamEvent B} {chunks : List (StreamEvent B)} :
    filterScopedEvent config.allowedNamespaces event = (kept, true) → state.complete = false →
    kept.event = .snapshot → state.addItems objectSize kept.items = some added →
    (added.mark source kept).finalSources.length = added.expected →
    SnapshotEvents objectSize generation source.topic
      ⟨(added.mark source kept).resourceVersion, added.items⟩ = .ok chunks →
    TopicStep config generation source event state
      { added.mark source kept with complete := true, buffered := [] } (chunks ++ added.buffered)
  | buffered {state next : TopicState B} {kept : StreamEvent B} :
    filterScopedEvent config.allowedNamespaces event = (kept, true) → state.complete = false →
    kept.event ≠ .snapshot → kept.event ≠ .progress → state.buffer objectSize kept = some next →
    TopicStep config generation source event state next []

variable {state : TopicState B}

theorem TopicState.addItems_eq_some {added : TopicState B} {items : List (TopicObject B)}
    (h : state.addItems objectSize items = some added) :
    ∃ itemBytes, added = { state with items := state.items ++ items, itemBytes := itemBytes } := by
  unfold addItems at h
  split at h
  · cases h
  · obtain ⟨itemBytes, -, rfl⟩ := Option.map_eq_some_iff.mp h
    exact ⟨itemBytes, rfl⟩

theorem TopicState.buffer_eq_some {next : TopicState B}
    (h : state.buffer objectSize event = some next) : ∃ bufferedBytes,
      next = { state with
        buffered := state.buffered ++ [event], bufferedBytes := bufferedBytes } := by
  unfold buffer at h
  dsimp only at h
  split at h
  · cases h
  · exact ⟨_, (Option.some.inj h).symm⟩

variable {config : Config} {loop : Loop B} {source : Source} {event : StreamEvent B}

theorem Loop.receiveSnapshot_step {kept : StreamEvent B}
    (hlive : loop.session.Live) (hbuffered : ∀ event ∈ state.buffered, Regular event)
    (hfilter : filterScopedEvent config.allowedNamespaces event = (kept, true))
    (hcomplete : state.complete = false) (hkind : kept.event = .snapshot)
    (hfresh : source.key ∉ state.finalSources)
    (hsnapshot : SnapshotFits objectSize clock loop.session.generation source kept state)
    (hchanges : ∀ event ∈ state.buffered, Fits objectSize clock loop.session.generation event) :
    ∃ session next events,
      loop.receiveSnapshot objectSize config clock source state kept =
        ⟨session, update loop.states source.topic (some next), true⟩ ∧
      loop.session.Extends events session ∧
      TopicStep objectSize config loop.session.generation source event state next events := by
  obtain ⟨added, hadded, hfull⟩ := hsnapshot hcomplete hkind
  have htransient : ∃ middle, (if added.preview kept.items ≠ [] ∨ kept.final = true then
      loop.session.publishTransient objectSize (progress config loop.session source
        (added.preview kept.items)
        ((added.mark source kept).completedNamespaces config source kept))
      else (loop.session, true)) = (middle, true) ∧ loop.session.Extends [] middle := by
    split
    · exact Session.publishTransient_extends hlive _
    · exact ⟨_, rfl, .refl hlive⟩
  obtain ⟨middle, htransient, hmiddle⟩ := htransient
  unfold Loop.receiveSnapshot
  rw [if_neg hfresh, hadded]
  dsimp only
  rw [htransient]
  by_cases hall : (added.mark source kept).finalSources.length = added.expected
  · obtain ⟨chunks, hchunks, hfits⟩ := hfull hall
    have hpublished : ∀ event ∈ chunks ++ added.buffered,
        Regular event ∧ Fits objectSize clock loop.session.generation event := by
      obtain ⟨_, rfl⟩ := TopicState.addItems_eq_some hadded
      intro event hevent
      rcases mem_append.mp hevent with hevent | hevent
      · have hkind := ((SnapshotEvents_chunked hchunks).snapshot event hevent).1
        exact ⟨⟨by simp [hkind], by simp [hkind], by simp [hkind]⟩, hfits event hevent⟩
      · exact ⟨hbuffered event hevent, hchanges event hevent⟩
    obtain ⟨session, hpublish, hextends⟩ := Loop.publishEach_extends hmiddle.live
      (hmiddle.generation ▸ hpublished)
    refine ⟨session, _, _, ?_, hmiddle.trans hextends,
      .completed hfilter hcomplete hkind hadded hall hchunks⟩
    simp only [Bool.not_true, Bool.false_eq_true, if_false]
    rw [if_pos (show (added.mark source kept).finalSources.length =
      (added.mark source kept).expected from hall)]
    unfold Loop.publishSnapshot
    rw [hmiddle.generation]
    have hmarked : SnapshotEvents objectSize loop.session.generation source.topic
        ⟨(added.mark source kept).resourceVersion, (added.mark source kept).items⟩ =
          .ok chunks := hchunks
    rw [hmarked]
    dsimp only
    rw [show (added.mark source kept).buffered = added.buffered from rfl, hpublish,
      update_idem]
  · refine ⟨middle, _, _, ?_, hmiddle, .collected hfilter hcomplete hkind hadded hall⟩
    simp only [Bool.not_true, Bool.false_eq_true, if_false]
    rw [if_neg (show ¬ (added.mark source kept).finalSources.length =
      (added.mark source kept).expected from hall)]

/-- Within the limits, the loop goes on, and does to the topic of the source what `TopicStep`
says. -/
theorem Loop.receive_step (hlive : loop.session.Live)
    (hrunning : loop.running = true) (hstate : loop.states source.topic = some state)
    (hbuffered : ∀ event ∈ state.buffered, Regular event) (hregular : Regular event)
    (hfresh : event.event = .snapshot → state.complete = false → source.key ∉ state.finalSources)
    (hwithin : Within objectSize clock config loop source event) :
    ∃ session next events,
      loop.receive objectSize config clock source event =
        ⟨session, update loop.states source.topic (some next), true⟩ ∧
      loop.session.Extends events session ∧
      TopicStep objectSize config loop.session.generation source event state next events := by
  have hself : update loop.states source.topic (some state) = loop.states := by
    rw [← hstate, update_eq_self]
  obtain ⟨hsnapshots, hchanges⟩ := hwithin state hstate
  cases hfilter : filterScopedEvent config.allowedNamespaces event with
  | mk kept allowed =>
  rw [hfilter] at hsnapshots hchanges
  have hkind : kept.event = event.event := (filterScopedEvent_eq hfilter).1
  unfold Loop.receive
  rw [hfilter]
  cases allowed with
  | false =>
    refine ⟨loop.session, state, [], ?_, .refl hlive, .dropped (by rw [hfilter])⟩
    rw [hself, ← hrunning]
  | true =>
    dsimp only
    rw [if_neg (by simp [hkind, hregular.1, hregular.2.1]), hstate]
    dsimp only
    cases hcomplete : state.complete with
    | true =>
      have hkept : Regular kept := by
        unfold Regular
        rw [hkind]
        exact hregular
      obtain ⟨session, hpublish, hextends⟩ := Session.publish_extends hlive hkept
        (hchanges.published hcomplete loop.session.published.length)
      refine ⟨session, state, [kept], ?_, hextends, .published hfilter hcomplete⟩
      rw [if_pos rfl, hpublish, hself]
    | false =>
      rw [if_neg (by simp)]
      by_cases hprogress : kept.event = .progress
      · rw [if_pos hprogress]
        unfold Loop.receiveProgress
        dsimp only
        split
        · exact ⟨_, _, [], by rw [← hrunning], .refl hlive,
            .previewed hfilter hcomplete hprogress⟩
        · obtain ⟨session, htransient, hextends⟩ :=
            Session.publishTransient_extends hlive (progress config loop.session source
              (state.preview kept.items) state.finalNamespaces.length)
          rw [htransient]
          exact ⟨_, _, [], rfl, hextends, .previewed hfilter hcomplete hprogress⟩
      rw [if_neg hprogress]
      split_ifs with hsnapshot
      · exact Loop.receiveSnapshot_step hlive hbuffered hfilter hcomplete hsnapshot
          (hfresh (hkind ▸ hsnapshot) hcomplete) hsnapshots hchanges.flushed
      · obtain ⟨next, hnext⟩ := Option.isSome_iff_exists.mp
          (hchanges.buffered hcomplete hsnapshot hprogress)
        unfold Loop.receiveChange
        rw [hnext]
        exact ⟨_, next, [], by rw [← hrunning], .refl hlive,
          .buffered hfilter hcomplete hsnapshot hprogress hnext⟩

end Kubepeep.Stream
