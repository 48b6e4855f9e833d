import Kubepeep.Stream.Publish
import Kubepeep.Watch.Worker

/-!
# What a session publishes

Whatever the order in which the events of the sources arrive, the session publishes for each topic
nothing until its last source is final, then one snapshot of all collected items, and all changes
after it in the order of their arrival.
-/

open List Kubepeep.Resources Kubepeep.System Kubepeep.Watch

namespace Kubepeep.Stream

section

variable {B : Type} {objectSize : TopicObject B → Nat} {clock : Nat → String} {config : Config}

/-! ## The sequence of one source -/

def Chunk (topic : Topic) (final : Bool) (event : StreamEvent B) : Prop :=
  event.event = .snapshot ∧ event.topic = topic ∧ event.object = none ∧ event.deleted = none ∧
    event.final = final

def Snapshotting (topic : Topic) (events : List (StreamEvent B)) : Prop :=
  ∀ event ∈ events, Chunk topic false event

def Delivered (topic : Topic) (events : List (StreamEvent B)) : Prop :=
  ∃ chunks last changes, events = chunks ++ last :: changes ∧ Snapshotting topic chunks ∧
    Chunk topic true last ∧ ∀ event ∈ changes, Change event ∧ event.topic = topic

def Delivers (topic : Topic) (events : List (StreamEvent B)) : Prop :=
  Snapshotting topic events ∨ Delivered topic events

variable {events : List (StreamEvent B)}

theorem Snapshotting.not_delivered {topic : Topic}
    (h : Snapshotting topic events) : ¬ Delivered topic events := by
  rintro ⟨chunks, last, changes, rfl, -, hlast, -⟩
  have hopen := h last (by simp)
  exact absurd (hlast.2.2.2.2.symm.trans hopen.2.2.2.2) (by simp)

variable {event : StreamEvent B}

theorem Delivers.last {topic : Topic} (h : Delivers topic (events ++ [event])) :
    Snapshotting topic events ∧ Chunk topic false event ∨
      Snapshotting topic events ∧ Chunk topic true event ∨
      Delivered topic events ∧ Change event ∧ event.topic = topic := by
  rcases h with h | ⟨chunks, last, changes, hsplit, hchunks, hlast, hchanges⟩
  · refine .inl ⟨fun other hother => h other (mem_append_left _ hother), ?_⟩
    exact h event (by simp)
  · rcases eq_nil_or_concat changes with rfl | ⟨before, change, rfl⟩
    · obtain ⟨rfl, heq⟩ := append_inj' hsplit rfl
      obtain rfl : event = last := by simpa using heq
      exact .inr (.inl ⟨hchunks, hlast⟩)
    · rw [concat_eq_append] at hsplit hchanges
      rw [← cons_append, ← append_assoc] at hsplit
      obtain ⟨rfl, heq⟩ := append_inj' hsplit rfl
      obtain rfl : event = change := by simpa using heq
      refine .inr (.inr ⟨⟨chunks, last, before, rfl, hchunks, hlast, fun other hother => ?_⟩, ?_⟩)
      · exact hchanges other (mem_append_left _ hother)
      · exact hchanges event (by simp)

theorem Delivers.before {topic : Topic}
    (h : Delivers topic (events ++ [event])) : Delivers topic events := by
  rcases h.last with ⟨hbefore, -⟩ | ⟨hbefore, -⟩ | ⟨hbefore, -⟩
  · exact .inl hbefore
  · exact .inl hbefore
  · exact .inr hbefore

theorem Chunk.regular {topic : Topic} {final : Bool}
    (h : Chunk topic final event) : Regular event := by
  simp [Regular, h.1]

theorem regular_of_change (h : Change event) : Regular event := by
  unfold Regular
  rcases h with h | h | h <;> simp [h]

theorem Chunk.allowed {topic : Topic} {final : Bool}
    (h : Chunk topic final event) (allowed : Option (List String)) :
    (filterScopedEvent allowed event).2 = true := by
  obtain ⟨hkind, -, hobject, hdeleted, -⟩ := h
  unfold filterScopedEvent
  cases allowed with
  | none => rfl
  | some allowed =>
    simp only [hobject, hdeleted, hkind, Option.any_none, Bool.false_eq_true, if_false]
    rw [if_neg (by simp), if_neg (by simp)]
    split <;> rfl

/-! ## What has arrived -/

def arrivals (actions : List (LoopAction B)) : List (Source × StreamEvent B) :=
  actions.filterMap fun action =>
    match action with
    | .receive source event => some (source, event)
    | _ => none

def eventsOf (source : Source) (arrived : List (Source × StreamEvent B)) : List (StreamEvent B) :=
  (arrived.filter fun item => item.1 = source).map Prod.snd

def itemsOf (scope : StreamEvent B → StreamEvent B × Bool) (topic : Topic)
    (arrived : List (Source × StreamEvent B)) : List (TopicObject B) :=
  arrived.flatMap fun item =>
    if item.1.topic = topic ∧ item.2.event = .snapshot then (scope item.2).1.items else []

def changesOf (scope : StreamEvent B → StreamEvent B × Bool) (topic : Topic)
    (arrived : List (Source × StreamEvent B)) : List (StreamEvent B) :=
  arrived.flatMap fun item =>
    match scope item.2 with
    | (kept, true) => if item.1.topic = topic ∧ item.2.event ≠ .snapshot then [kept] else []
    | (_, false) => []

/-- What the session makes of an event. -/
def Config.kept (config : Config) : StreamEvent B → StreamEvent B × Bool :=
  filterScopedEvent config.allowedNamespaces

/-- What the session is for: everything, or what belongs to the namespaces it was asked for. -/
def Config.scope (config : Config) (event : StreamEvent B) : StreamEvent B × Bool :=
  match config.allowedNamespaces with
  | none => (event, true)
  | some allowed => scopedTo allowed event

theorem Config.kept_eq_scope {event : StreamEvent B} (h : config.allowedNamespaces ≠ none →
      Shaped event ∧ ∀ object ∈ carried event, Projected object) :
    config.kept event = config.scope event := by
  unfold Config.kept Config.scope
  cases hallowed : config.allowedNamespaces with
  | none => rfl
  | some allowed =>
    obtain ⟨hshaped, hprojected⟩ := h (by simp [hallowed])
    exact (filterScopedEvent_scoped hshaped).mpr fun object hobject =>
      .inl (hprojected object hobject)

def publishedOn (topic : Topic) (session : Session B) : List (ReplayEntry B) :=
  session.published.filter fun entry => entry.event.topic = topic

theorem arrivals_append (first second : List (LoopAction B)) :
    arrivals (first ++ second) = arrivals first ++ arrivals second :=
  filterMap_append

theorem eventsOf_self (source : Source) (event : StreamEvent B)
    (arrived : List (Source × StreamEvent B)) :
    eventsOf source (arrived ++ [(source, event)]) = eventsOf source arrived ++ [event] := by
  simp [eventsOf]

theorem eventsOf_of_ne {source other : Source} (h : source ≠ other) (event : StreamEvent B)
    (arrived : List (Source × StreamEvent B)) :
    eventsOf other (arrived ++ [(source, event)]) = eventsOf other arrived := by
  simp [eventsOf, h]

variable {source : Source} {event : StreamEvent B}

theorem itemsOf_snapshot (h : event.event = .snapshot) (arrived : List (Source × StreamEvent B)) :
    itemsOf config.kept source.topic (arrived ++ [(source, event)]) =
      itemsOf config.kept source.topic arrived ++
        (filterScopedEvent config.allowedNamespaces event).1.items := by
  simp [itemsOf, Config.kept, h]

theorem itemsOf_of_ne {topic : Topic} (h : source.topic ≠ topic ∨ event.event ≠ .snapshot)
    (arrived : List (Source × StreamEvent B)) :
    itemsOf config.kept topic (arrived ++ [(source, event)]) =
      itemsOf config.kept topic arrived := by
  have hnot : ¬ (source.topic = topic ∧ event.event = .snapshot) := by tauto
  simp [itemsOf, hnot]

theorem changesOf_kept {event kept : StreamEvent B} (hkind : event.event ≠ .snapshot)
    (hkept : filterScopedEvent config.allowedNamespaces event = (kept, true))
    (arrived : List (Source × StreamEvent B)) :
    changesOf config.kept source.topic (arrived ++ [(source, event)]) =
      changesOf config.kept source.topic arrived ++ [kept] := by
  simp [changesOf, Config.kept, hkept, hkind]

theorem changesOf_of_ne {topic : Topic} (h : source.topic ≠ topic ∨ event.event = .snapshot ∨
      (filterScopedEvent config.allowedNamespaces event).2 = false)
    (arrived : List (Source × StreamEvent B)) :
    changesOf config.kept topic (arrived ++ [(source, event)]) =
      changesOf config.kept topic arrived := by
  unfold changesOf Config.kept
  cases hfilter : filterScopedEvent config.allowedNamespaces event with
  | mk kept allowed =>
    rw [hfilter] at h
    cases allowed with
    | false => simp [hfilter]
    | true =>
      have hnot : ¬ (source.topic = topic ∧ event.event ≠ .snapshot) := by
        rintro ⟨htopic, hkind⟩
        rcases h with h | h | h
        · exact h htopic
        · exact hkind h
        · cases h
      simp [hfilter, hnot]

/-! ## The state of one topic -/

def Config.sourcesOf (config : Config) (topic : Topic) : List Source :=
  config.sources.filter fun source => source.topic = topic

theorem Config.mem_sourcesOf {topic : Topic} :
    source ∈ config.sourcesOf topic ↔ source ∈ config.sources ∧ source.topic = topic := by
  simp [sourcesOf]

/-- The sources of `createStreamSession`: one for each resource of a topic and each namespace. -/
structure Config.Proper (config : Config) : Prop where
  keys : (config.sources.map Source.key).Nodup
  topics : ∀ source ∈ config.sources, source.topic ∈ config.topics
  covered : ∀ topic ∈ config.topics, config.sourcesOf topic ≠ []

theorem Config.Proper.keysOf (h : config.Proper) (topic : Topic) :
    ((config.sourcesOf topic).map Source.key).Nodup :=
  h.keys.sublist (filter_sublist.map _)

theorem Config.Proper.key_inj (h : config.Proper) {first second : Source}
    (hfirst : first ∈ config.sources) (hsecond : second ∈ config.sources)
    (hkey : first.key = second.key) : first = second :=
  inj_on_of_nodup_map h.keys hfirst hsecond hkey

/-- The final sources of a topic: each once, and those that have delivered a snapshot. -/
structure Finals (config : Config) (topic : Topic) (arrived : List (Source × StreamEvent B))
    (finalSources : List String) : Prop where
  nodup : finalSources.Nodup
  known : finalSources ⊆ (config.sourcesOf topic).map Source.key
  delivered : ∀ source ∈ config.sourcesOf topic,
    (source.key ∈ finalSources ↔ Delivered topic (eventsOf source arrived))

variable {finalSources : List String} {arrived : List (Source × StreamEvent B)}

theorem Finals.length_eq_iff {topic : Topic} (hproper : config.Proper)
    (h : Finals config topic arrived finalSources) :
    finalSources.length = (config.sourcesOf topic).length ↔
      ∀ source ∈ config.sourcesOf topic, Delivered topic (eventsOf source arrived) := by
  have hsub : finalSources.Subperm ((config.sourcesOf topic).map Source.key) :=
    h.nodup.subperm h.known
  constructor
  · intro hlength source hsource
    have hperm := hsub.perm_of_length_le (by simp [hlength])
    exact (h.delivered source hsource).mp (hperm.mem_iff.mpr (mem_map_of_mem hsource))
  · intro hall
    have hkeys : (config.sourcesOf topic).map Source.key ⊆ finalSources := by
      intro key hkey
      obtain ⟨source, hsource, rfl⟩ := mem_map.mp hkey
      exact (h.delivered source hsource).mpr (hall source hsource)
    have hle := ((hproper.keysOf topic).subperm hkeys).length_le
    have hge := hsub.length_le
    rw [length_map] at hle hge
    omega

theorem Finals.congr {topic : Topic} {arrived later : List (Source × StreamEvent B)}
    (h : Finals config topic arrived finalSources)
    (hsame : ∀ source ∈ config.sourcesOf topic,
      (Delivered topic (eventsOf source later) ↔ Delivered topic (eventsOf source arrived))) :
    Finals config topic later finalSources :=
  ⟨h.nodup, h.known, fun source hsource =>
    (h.delivered source hsource).trans (hsame source hsource).symm⟩

theorem Finals.final (hproper : config.Proper) (hsource : source ∈ config.sources)
    (h : Finals config source.topic arrived finalSources)
    (hbefore : Snapshotting source.topic (eventsOf source arrived))
    (hevent : Chunk source.topic true event) :
    Finals config source.topic (arrived ++ [(source, event)]) (finalSources ++ [source.key]) := by
  have hmember : source ∈ config.sourcesOf source.topic :=
    Config.mem_sourcesOf.mpr ⟨hsource, rfl⟩
  have hfresh : source.key ∉ finalSources := fun hkey =>
    hbefore.not_delivered ((h.delivered source hmember).mp hkey)
  refine ⟨?_, ?_, fun other hother => ?_⟩
  · exact nodup_append.mpr ⟨h.nodup, by simp, fun key hkey other hother => by
      rw [mem_singleton.mp hother]
      rintro rfl
      exact hfresh hkey⟩
  · refine append_subset.mpr ⟨h.known, ?_⟩
    simpa using ⟨source, hmember, rfl⟩
  · by_cases hsame : source = other
    · subst hsame
      rw [eventsOf_self]
      refine iff_of_true (by simp) ⟨_, event, [], rfl, hbefore, hevent, by simp⟩
    · have hkey : other.key ≠ source.key := fun hkey => hsame
        (hproper.key_inj hsource (Config.mem_sourcesOf.mp hother).1 hkey.symm)
      rw [eventsOf_of_ne hsame, ← h.delivered other hother]
      simp [hkey]

theorem Finals.chunk (hproper : config.Proper) (hsource : source ∈ config.sources)
    (h : Finals config source.topic arrived finalSources) {final : Bool}
    (hbefore : Snapshotting source.topic (eventsOf source arrived))
    (hevent : Chunk source.topic final event) :
    Finals config source.topic (arrived ++ [(source, event)])
      (if event.final = true then finalSources ++ [source.key] else finalSources) := by
  rw [hevent.2.2.2.2]
  cases final with
  | true => exact h.final hproper hsource hbefore hevent
  | false =>
    refine h.congr fun other _ => ?_
    by_cases hsame : source = other
    · subst hsame
      rw [eventsOf_self]
      have hafter : Snapshotting source.topic (eventsOf source arrived ++ [event]) := by
        intro item hitem
        rcases mem_append.mp hitem with hitem | hitem
        · exact hbefore item hitem
        · rw [mem_singleton.mp hitem]
          exact hevent
      exact iff_of_false hafter.not_delivered hbefore.not_delivered
    · rw [eventsOf_of_ne hsame]

/-- What the state of a topic says about what has arrived, and what has been published. -/
structure Collects (objectSize : TopicObject B → Nat) (config : Config) (topic : Topic)
    (arrived : List (Source × StreamEvent B)) (session : Session B) (state : TopicState B) :
    Prop where
  expected : state.expected = (config.sourcesOf topic).length
  finals : Finals config topic arrived state.finalSources
  buffered : ∀ event ∈ state.buffered, Regular event ∧ event.topic = topic
  collecting : state.complete = false →
    state.finalSources.length ≠ state.expected ∧ state.items = itemsOf config.kept topic arrived ∧
      state.buffered = changesOf config.kept topic arrived ∧ publishedOn topic session = []
  complete : state.complete = true →
    state.finalSources.length = state.expected ∧ ∃ resourceVersion chunks,
      SnapshotEvents objectSize session.generation topic
          ⟨resourceVersion, itemsOf config.kept topic arrived⟩ = .ok chunks ∧
        Forall₂ (Stamped session.generation) (chunks ++ changesOf config.kept topic arrived)
          (publishedOn topic session)

/-! ## One event -/

variable {generation : String}

theorem Stamped.topic {topic : Topic}
    {entries : List (ReplayEntry B)} (h : Forall₂ (Stamped generation) events entries)
    (htopic : ∀ event ∈ events, event.topic = topic) :
    ∀ entry ∈ entries, entry.event.topic = topic := by
  induction h with
  | nil => simp
  | cons hfirst _ ih =>
    obtain ⟨hevent, hrest⟩ := forall_mem_cons.mp htopic
    obtain ⟨now, hnow⟩ := hfirst
    refine forall_mem_cons.mpr ⟨?_, ih hrest⟩
    rw [hnow]
    exact hevent

variable {session next : Session B}

theorem Session.Extends.publishedOn_self {topic : Topic} (h : session.Extends events next)
    (htopic : ∀ event ∈ events, event.topic = topic) :
    ∃ entries, publishedOn topic next = publishedOn topic session ++ entries ∧
      Forall₂ (Stamped session.generation) events entries := by
  obtain ⟨entries, hentries, hstamped⟩ := h.published
  refine ⟨entries, ?_, hstamped⟩
  have hall : entries.filter (fun entry => entry.event.topic = topic) = entries :=
    filter_eq_self.mpr fun entry hentry => by
      simpa using Stamped.topic hstamped htopic entry hentry
  rw [publishedOn, hentries, filter_append, hall]
  rfl

theorem Session.Extends.publishedOn_of_ne {topic other : Topic} (h : session.Extends events next)
    (htopic : ∀ event ∈ events, event.topic = topic) (hne : topic ≠ other) :
    publishedOn other next = publishedOn other session := by
  obtain ⟨entries, hentries, hstamped⟩ := h.published
  have hnone : entries.filter (fun entry => entry.event.topic = other) = [] :=
    filter_eq_nil_iff.mpr fun entry hentry => by
      simpa [Stamped.topic hstamped htopic entry hentry] using hne
  rw [publishedOn, hentries, filter_append, hnone, append_nil]
  rfl

theorem TopicStep.topic {state next : TopicState B}
    (h : TopicStep objectSize config generation source event state next events)
    (hevent : event.topic = source.topic)
    (hbuffered : ∀ event ∈ state.buffered, event.topic = source.topic) :
    ∀ event ∈ events, event.topic = source.topic := by
  cases h with
  | dropped | previewed | collected | buffered => simp
  | published hfilter _ =>
    simp only [mem_singleton, forall_eq]
    rw [(filterScopedEvent_eq hfilter).2.1]
    exact hevent
  | completed _ _ _ hadded _ hchunks =>
    obtain ⟨_, rfl⟩ := TopicState.addItems_eq_some hadded
    intro other hother
    rcases mem_append.mp hother with hother | hother
    · exact (SnapshotEvents_chunked hchunks).topic_eq other hother
    · exact hbuffered other hother

theorem Collects.other {topic : Topic} {state : TopicState B}
    (h : Collects objectSize config topic arrived session state) (hne : source.topic ≠ topic)
    (hgeneration : next.generation = session.generation)
    (hpublished : publishedOn topic next = publishedOn topic session) :
    Collects objectSize config topic (arrived ++ [(source, event)]) next state := by
  have hevents : ∀ other ∈ config.sourcesOf topic,
      eventsOf other (arrived ++ [(source, event)]) = eventsOf other arrived := by
    intro other hother
    apply eventsOf_of_ne
    rintro rfl
    exact hne (Config.mem_sourcesOf.mp hother).2
  refine ⟨h.expected, h.finals.congr fun other hother => by rw [hevents other hother], h.buffered,
    ?_, ?_⟩
  · rw [itemsOf_of_ne (.inl hne), changesOf_of_ne (.inl hne), hpublished]
    exact h.collecting
  · rw [itemsOf_of_ne (.inl hne), changesOf_of_ne (.inl hne), hpublished, hgeneration]
    exact h.complete

variable {session after : Session B}

theorem Collects.chunk (hproper : config.Proper) (hsource : source ∈ config.sources) {final : Bool}
    {state next : TopicState B}
    (h : Collects objectSize config source.topic arrived session state)
    (hbefore : Snapshotting source.topic (eventsOf source arrived))
    (hevent : Chunk source.topic final event) (hextends : session.Extends events after)
    (hstep : TopicStep objectSize config session.generation source event state next events) :
    Collects objectSize config source.topic (arrived ++ [(source, event)]) after next := by
  have hmember : source ∈ config.sourcesOf source.topic :=
    Config.mem_sourcesOf.mpr ⟨hsource, rfl⟩
  have hkind := hevent.1
  have hincomplete : state.complete = true → False := by
    intro hcomplete
    have hlength := (h.complete hcomplete).1.trans h.expected
    exact hbefore.not_delivered ((h.finals.length_eq_iff hproper).mp hlength source hmember)
  have hevents : ∀ event ∈ events, event.topic = source.topic :=
    hstep.topic hevent.2.1 fun other hother => (h.buffered other hother).2
  obtain ⟨entries, hentries, hstamped⟩ := hextends.publishedOn_self hevents
  have hchanges : changesOf config.kept source.topic (arrived ++ [(source, event)]) =
      changesOf config.kept source.topic arrived := changesOf_of_ne (.inr (.inl hkind)) arrived
  have hitems := @itemsOf_snapshot B config source event hkind arrived
  have hfinals := h.finals.chunk hproper hsource hbefore hevent
  cases hstep with
  | dropped hfalse => exact absurd (hfalse.symm.trans (hevent.allowed _)) (by simp)
  | published _ hcomplete => exact (hincomplete hcomplete).elim
  | previewed hfilter _ hprogress =>
    exact absurd ((filterScopedEvent_eq hfilter).1.symm.trans hprogress) (by simp [hkind])
  | buffered hfilter _ hnot _ _ =>
    exact absurd ((filterScopedEvent_eq hfilter).1.trans hkind) hnot
  | collected hfilter hcollecting _ hadded hnotall =>
    obtain ⟨_, rfl⟩ := TopicState.addItems_eq_some hadded
    obtain ⟨-, hcollected, hbuffered, hnone⟩ := h.collecting hcollecting
    rw [hfilter] at hitems
    cases hstamped
    refine ⟨h.expected, ?_, h.buffered, fun _ => ⟨hnotall, ?_, ?_, ?_⟩, fun hcomplete => ?_⟩
    · rw [← (filterScopedEvent_eq hfilter).2.2] at hfinals
      exact hfinals
    · rw [hitems, ← hcollected]
      rfl
    · rw [hchanges, ← hbuffered]
      rfl
    · rw [hentries, hnone]
      rfl
    · exact absurd (hcollecting.symm.trans hcomplete) (by simp)
  | @completed added kept chunks hfilter hcollecting _ hadded hall hchunks =>
    obtain ⟨version, hversion⟩ : ∃ version, SnapshotEvents objectSize session.generation
        source.topic ⟨version, added.items⟩ = .ok chunks := ⟨_, hchunks⟩
    obtain ⟨_, rfl⟩ := TopicState.addItems_eq_some hadded
    obtain ⟨-, hcollected, hbuffered, hnone⟩ := h.collecting hcollecting
    rw [hfilter] at hitems
    refine ⟨h.expected, ?_, fun _ hnot => absurd hnot not_mem_nil,
      fun hnot => absurd hnot (by simp), fun _ => ⟨hall, version, chunks, ?_, ?_⟩⟩
    · rw [← (filterScopedEvent_eq hfilter).2.2] at hfinals
      exact hfinals
    · rw [hextends.generation, hitems, ← hcollected]
      exact hversion
    · rw [hextends.generation, hentries, hnone, hchanges, ← hbuffered]
      exact hstamped

theorem Collects.change {state next : TopicState B}
    (h : Collects objectSize config source.topic arrived session state)
    (hbefore : Delivered source.topic (eventsOf source arrived)) (hchange : Change event)
    (htopic : event.topic = source.topic) (hextends : session.Extends events after)
    (hstep : TopicStep objectSize config session.generation source event state next events) :
    Collects objectSize config source.topic (arrived ++ [(source, event)]) after next := by
  have hkind : event.event ≠ .snapshot ∧ event.event ≠ .progress := by
    rcases hchange with h | h | h <;> simp [h]
  have hevents : ∀ event ∈ events, event.topic = source.topic :=
    hstep.topic htopic fun other hother => (h.buffered other hother).2
  obtain ⟨entries, hentries, hstamped⟩ := hextends.publishedOn_self hevents
  have hitems : itemsOf config.kept source.topic (arrived ++ [(source, event)]) =
      itemsOf config.kept source.topic arrived := itemsOf_of_ne (.inr hkind.1) arrived
  have hfinals : Finals config source.topic (arrived ++ [(source, event)]) state.finalSources := by
    refine h.finals.congr fun other _ => ?_
    by_cases hsame : source = other
    · subst hsame
      rw [eventsOf_self]
      obtain ⟨chunks, last, changes, hsplit, hchunks, hlast, hchanges⟩ := hbefore
      refine iff_of_true ⟨chunks, last, changes ++ [event], ?_, hchunks, hlast, ?_⟩
        ⟨chunks, last, changes, hsplit, hchunks, hlast, hchanges⟩
      · rw [hsplit, append_assoc, cons_append]
      · intro item hitem
        rcases mem_append.mp hitem with hitem | hitem
        · exact hchanges item hitem
        · rw [mem_singleton.mp hitem]
          exact ⟨hchange, htopic⟩
    · rw [eventsOf_of_ne hsame]
  cases hstep with
  | dropped hfalse =>
    have hchanges : changesOf config.kept source.topic (arrived ++ [(source, event)]) =
        changesOf config.kept source.topic arrived := changesOf_of_ne (.inr (.inr hfalse)) arrived
    cases hstamped
    rw [append_nil] at hentries
    refine ⟨h.expected, hfinals, h.buffered, ?_, ?_⟩
    · rw [hitems, hchanges, hentries]
      exact h.collecting
    · rw [hitems, hchanges, hentries, hextends.generation]
      exact h.complete
  | published hfilter hcomplete =>
    obtain ⟨hlength, resourceVersion, chunks, hchunks, hpublished⟩ := h.complete hcomplete
    refine ⟨h.expected, hfinals, h.buffered, fun hnot => ?_, fun _ =>
      ⟨hlength, resourceVersion, chunks, ?_, ?_⟩⟩
    · exact absurd (hcomplete.symm.trans hnot) (by simp)
    · rw [hitems, hextends.generation]
      exact hchunks
    · rw [changesOf_kept hkind.1 hfilter, hentries, hextends.generation, ← append_assoc]
      exact rel_append hpublished hstamped
  | previewed hfilter _ hprogress =>
    exact absurd ((filterScopedEvent_eq hfilter).1.symm.trans hprogress) hkind.2
  | collected hfilter _ hsnapshot _ _ =>
    exact absurd ((filterScopedEvent_eq hfilter).1.symm.trans hsnapshot) hkind.1
  | completed hfilter _ hsnapshot _ _ _ =>
    exact absurd ((filterScopedEvent_eq hfilter).1.symm.trans hsnapshot) hkind.1
  | buffered hfilter hcollecting _ _ hnext =>
    obtain ⟨_, rfl⟩ := TopicState.buffer_eq_some hnext
    obtain ⟨hlength, hcollected, hbuffered, hnone⟩ := h.collecting hcollecting
    obtain ⟨hkept, hkeptTopic, -⟩ := filterScopedEvent_eq hfilter
    cases hstamped
    rw [append_nil] at hentries
    refine ⟨h.expected, hfinals, ?_, fun _ => ⟨hlength, ?_, ?_, ?_⟩, fun hcomplete => ?_⟩
    · intro item hitem
      rcases mem_append.mp hitem with hitem | hitem
      · exact h.buffered item hitem
      · rw [mem_singleton.mp hitem]
        refine ⟨?_, hkeptTopic.trans htopic⟩
        unfold Regular
        rw [hkept]
        exact regular_of_change hchange
    · rw [hitems, ← hcollected]
    · rw [changesOf_kept hkind.1 hfilter, ← hbuffered]
    · rw [hentries, hnone]
    · exact absurd (hcollecting.symm.trans hcomplete) (by simp)

/-! ## Every run -/

/-- The session goes on, and every topic is as what has arrived says. -/
structure LoopInv (objectSize : TopicObject B → Nat) (config : Config)
    (arrived : List (Source × StreamEvent B)) (loop : Loop B) : Prop where
  running : loop.running = true
  live : loop.session.Live
  topics : ∀ topic ∈ config.topics, ∃ state, loop.states topic = some state ∧
    Collects objectSize config topic arrived loop.session state

/-- Neither a fault nor the end of the session, and no limit is exceeded. -/
def Admitted (objectSize : TopicObject B → Nat) (clock : Nat → String) (config : Config)
    (loop : Loop B) : LoopAction B → Prop
  | .receive source event => Within objectSize clock config loop source event
  | .client .expire => False
  | .client _ => True
  | _ => False

variable {loop : Loop B}

theorem LoopStart.inv (hproper : config.Proper) (h : LoopStart config loop) :
    LoopInv objectSize config [] loop := by
  refine ⟨h.running, ⟨h.session.live.2, h.session.live.1⟩, fun topic htopic => ?_⟩
  refine ⟨_, by rw [h.states topic, if_pos htopic], rfl, ⟨nodup_nil, by simp [TopicState.new],
    fun source _ => ?_⟩, by simp [TopicState.new], fun _ => ⟨?_, rfl, rfl, ?_⟩, ?_⟩
  · apply iff_of_false (by simp [TopicState.new])
    exact Snapshotting.not_delivered (by simp [Snapshotting, eventsOf])
  · have hsources := length_pos_iff.mpr (hproper.covered topic htopic)
    exact Nat.ne_of_lt hsources
  · rw [publishedOn, h.session.published]
    rfl
  · exact fun hcomplete => absurd hcomplete (by simp [TopicState.new])

theorem LoopInv.receive (hproper : config.Proper)
    (h : LoopInv objectSize config arrived loop) (hsource : source ∈ config.sources)
    (hdelivers : Delivers source.topic (eventsOf source arrived ++ [event]))
    (hwithin : Within objectSize clock config loop source event) :
    LoopInv objectSize config (arrived ++ [(source, event)])
      (loop.receive objectSize config clock source event) := by
  obtain ⟨state, hstate, hcollects⟩ := h.topics source.topic (hproper.topics source hsource)
  have hmember : source ∈ config.sourcesOf source.topic :=
    Config.mem_sourcesOf.mpr ⟨hsource, rfl⟩
  -- The three kinds of event in the sequence of a source.
  have hevent : Regular event ∧ event.topic = source.topic ∧
      (event.event = .snapshot → Snapshotting source.topic (eventsOf source arrived)) := by
    rcases hdelivers.last with ⟨hbefore, hchunk⟩ | ⟨hbefore, hchunk⟩ | ⟨-, hchange, htopic⟩
    · exact ⟨hchunk.regular, hchunk.2.1, fun _ => hbefore⟩
    · exact ⟨hchunk.regular, hchunk.2.1, fun _ => hbefore⟩
    · refine ⟨regular_of_change hchange, htopic, fun hkind => ?_⟩
      rcases hchange with h | h | h <;> exact absurd (hkind.symm.trans h) (by simp)
  obtain ⟨hregular, htopic, hsnapshotting⟩ := hevent
  have hfresh : event.event = .snapshot → state.complete = false →
      source.key ∉ state.finalSources := fun hkind _ hkey =>
    (hsnapshotting hkind).not_delivered ((hcollects.finals.delivered source hmember).mp hkey)
  obtain ⟨session, next, events, hreceive, hextends, hstep⟩ := Loop.receive_step h.live h.running
    hstate (fun item hitem => (hcollects.buffered item hitem).1) hregular hfresh hwithin
  rw [hreceive]
  refine ⟨rfl, hextends.live, fun topic hmem => ?_⟩
  by_cases hsame : source.topic = topic
  · subst hsame
    refine ⟨next, Function.update_self _ _ _, ?_⟩
    rcases hdelivers.last with ⟨hbefore, hchunk⟩ | ⟨hbefore, hchunk⟩ | ⟨hbefore, hchange, -⟩
    · exact hcollects.chunk hproper hsource hbefore hchunk hextends hstep
    · exact hcollects.chunk hproper hsource hbefore hchunk hextends hstep
    · exact hcollects.change hbefore hchange htopic hextends hstep
  · obtain ⟨other, hother, hothers⟩ := h.topics topic hmem
    have hevents := hstep.topic htopic fun item hitem => (hcollects.buffered item hitem).2
    refine ⟨other, ?_, hothers.other hsame hextends.generation
      (hextends.publishedOn_of_ne hevents hsame)⟩
    exact (Function.update_of_ne (Ne.symm hsame) _ _).trans hother

variable {action : SessionAction B}

theorem SessionStep.client_frame
    (hstep : SessionStep objectSize session action next) (hlive : session.Live)
    (haction : ClientAction action) (hexpire : action ≠ .expire) :
    next.Live ∧ next.generation = session.generation ∧ next.published = session.published := by
  cases hstep with
  | publish _ _ => exact haction.elim
  | publishTransient => exact haction.elim
  | publishTerminal => exact haction.elim
  | attach hattach =>
    obtain ⟨client, -, rfl⟩ := Session.attach_ok hattach
    exact ⟨hlive, rfl, rfl⟩
  | close => exact ⟨hlive, rfl, rfl⟩
  | remove _ => exact ⟨hlive, rfl, rfl⟩
  | expire => exact absurd rfl hexpire
  | next => exact ⟨hlive, rfl, rfl⟩

theorem LoopInv.client {session : Session B} (h : LoopInv objectSize config arrived loop)
    (haction : ClientAction action) (hexpire : action ≠ .expire)
    (hstep : SessionStep objectSize loop.session action session) :
    LoopInv objectSize config arrived { loop with session := session } := by
  obtain ⟨hlive, hgeneration, hpublished⟩ := hstep.client_frame h.live haction hexpire
  refine ⟨h.running, hlive, fun topic htopic => ?_⟩
  obtain ⟨state, hstate, hcollects⟩ := h.topics topic htopic
  have hon : publishedOn topic session = publishedOn topic loop.session := by
    rw [publishedOn, hpublished]
    rfl
  refine ⟨state, hstate, hcollects.expected, hcollects.finals, hcollects.buffered, ?_, ?_⟩
  · rw [hon]
    exact hcollects.collecting
  · rw [hon, hgeneration]
    exact hcollects.complete

variable (hproper : config.Proper) {start loop : Loop B} {actions : List (LoopAction B)}
  (hstart : LoopStart config start)
  (hrun : Runs (fun loop action next => LoopStep objectSize config clock loop action next ∧
    Admitted objectSize clock config loop action) start actions loop)
  (hdelivers : ∀ source ∈ config.sources,
    Delivers source.topic (eventsOf source (arrivals actions)))

include hproper hstart hrun hdelivers

theorem LoopInv.of_run :
    LoopInv objectSize config (arrivals actions) loop := by
  revert hdelivers
  refine hrun.history (I := fun actions loop => (∀ source ∈ config.sources,
    Delivers source.topic (eventsOf source (arrivals actions))) →
    LoopInv objectSize config (arrivals actions) loop) (fun _ => hstart.inv hproper) ?_
  rintro before loop action next ih ⟨hstep, hadmitted⟩ hdelivers
  rw [arrivals_append] at hdelivers ⊢
  cases hstep with
  | @receive source event _ hsource =>
    have hbefore : ∀ other ∈ config.sources,
        Delivers other.topic (eventsOf other (arrivals before)) := by
      intro other hother
      have hlater := hdelivers other hother
      by_cases hsame : source = other
      · subst hsame
        exact (eventsOf_self source event _ ▸ hlater).before
      · rw [show arrivals [LoopAction.receive source event] = [(source, event)] from rfl,
          eventsOf_of_ne hsame] at hlater
        exact hlater
    refine (ih hbefore).receive hproper hsource ?_ hadmitted
    rw [← eventsOf_self]
    exact hdelivers source hsource
  | receiveError => exact hadmitted.elim
  | reauthorize => exact hadmitted.elim
  | @client action session haction hstep =>
    have hnone : arrivals [LoopAction.client action] = [] := rfl
    rw [hnone, append_nil] at hdelivers ⊢
    refine (ih hdelivers).client haction ?_ hstep
    rintro rfl
    exact hadmitted

/-- In every run within the limits, where each source delivers one snapshot and then changes, in
whatever order they arrive: a topic has its snapshot and its changes published as soon as all its
sources are final, and nothing before. -/
theorem run_publishes (hscoped : config.allowedNamespaces ≠ none → ∀ arrival ∈ arrivals actions,
      Shaped arrival.2 ∧ ∀ object ∈ carried arrival.2, Projected object) :
    loop.session.Live ∧ ∀ topic ∈ config.topics,
      ((∀ source ∈ config.sourcesOf topic,
          Delivered topic (eventsOf source (arrivals actions))) →
        ∃ resourceVersion chunks,
          SnapshotEvents objectSize loop.session.generation topic
              ⟨resourceVersion, itemsOf config.scope topic (arrivals actions)⟩ = .ok chunks ∧
            List.Forall₂ (Stamped loop.session.generation)
              (chunks ++ changesOf config.scope topic (arrivals actions))
              (publishedOn topic loop.session)) ∧
      (¬ (∀ source ∈ config.sourcesOf topic,
          Delivered topic (eventsOf source (arrivals actions))) →
        publishedOn topic loop.session = []) := by
  have hinv := LoopInv.of_run hproper hstart hrun hdelivers
  have hscope : ∀ arrival ∈ arrivals actions, config.kept arrival.2 = config.scope arrival.2 :=
    fun arrival harrival => Config.kept_eq_scope fun hsome => hscoped hsome arrival harrival
  refine ⟨hinv.live, fun topic htopic => ?_⟩
  have hitems : itemsOf config.kept topic (arrivals actions) =
      itemsOf config.scope topic (arrivals actions) :=
    flatMap_congr fun arrival harrival => by rw [hscope arrival harrival]
  have hchanges : changesOf config.kept topic (arrivals actions) =
      changesOf config.scope topic (arrivals actions) :=
    flatMap_congr fun arrival harrival => by rw [hscope arrival harrival]
  obtain ⟨state, -, hcollects⟩ := hinv.topics topic htopic
  rw [← hcollects.finals.length_eq_iff hproper, ← hcollects.expected, ← hitems, ← hchanges]
  cases hcomplete : state.complete with
  | true =>
    obtain ⟨hlength, hpublished⟩ := hcollects.complete hcomplete
    exact ⟨fun _ => hpublished, fun hnot => absurd hlength hnot⟩
  | false =>
    obtain ⟨hlength, -, -, hnone⟩ := hcollects.collecting hcomplete
    exact ⟨fun hall => absurd hall hlength, fun _ => hnone⟩

end

/-! Two watches of all pods for a session of the namespace `shop`. -/

def podObject (namespaceName name : String) : TopicObject Unit :=
  ⟨.PodDTO ⟨namespaceName, name, ()⟩, false⟩

def firstSource : Source := ⟨.TopicPods, "first", ""⟩

def secondSource : Source := ⟨.TopicPods, "second", ""⟩

def shopConfig : Config := ⟨some ["shop"], true, 1, [.TopicPods], [firstSource, secondSource]⟩

def podLoop : Loop Unit where
  session := emptySession
  states topic := if topic = .TopicPods then some (TopicState.new 2) else none
  running := true

theorem podLoop_start : LoopStart shopConfig podLoop := by
  refine ⟨emptySession_start, ?_, rfl⟩
  intro topic
  cases topic <;> rfl

def podChunk (chunk : Nat) (names : List (String × String)) (final : Bool) : StreamEvent Unit :=
  chunkEvent "g1" .TopicPods "7" chunk (names.map fun name => podObject name.1 name.2) final

def podAdded (namespaceName name : String) : StreamEvent Unit :=
  { event := .added, topic := .TopicPods, generation := "g1"
    object := some (podObject namespaceName name) }

/-- A change of the second source arrives before the last chunk of the first, one after it. -/
def podArrivals : List (Source × StreamEvent Unit) :=
  [(firstSource, podChunk 0 [("bank", "api"), ("shop", "api")] false),
    (secondSource, podChunk 0 [("shop", "web")] true), (secondSource, podAdded "shop" "job"),
    (secondSource, podAdded "bank" "job"), (firstSource, podChunk 1 [("shop", "db")] true),
    (firstSource, podAdded "shop" "new")]

def PodStep : Loop Unit → LoopAction Unit → Loop Unit → Prop := fun loop action next =>
  LoopStep (fun _ => 100) shopConfig (fun _ => "now") loop action next ∧
    Admitted (fun _ => 100) (fun _ => "now") shopConfig loop action

def receiveAll (loop : Loop Unit) (arrived : List (Source × StreamEvent Unit)) : Loop Unit :=
  arrived.foldl (fun loop item =>
    loop.receive (fun _ => 100) shopConfig (fun _ => "now") item.1 item.2) loop

def admits : Loop Unit → List (Source × StreamEvent Unit) → Bool
  | _, [] => true
  | loop, (source, event) :: rest =>
    loop.running && decide (source ∈ shopConfig.sources) &&
      decide (Within (fun _ => 100) (fun _ => "now") shopConfig loop source event) &&
      admits (loop.receive (fun _ => 100) shopConfig (fun _ => "now") source event) rest

theorem runs_of_admits (arrived : List (Source × StreamEvent Unit)) : ∀ loop,
    admits loop arrived = true → Runs PodStep loop
      (arrived.map fun item => .receive item.1 item.2) (receiveAll loop arrived) := by
  induction arrived with
  | nil => exact fun loop _ => .nil loop
  | cons item rest ih =>
    intro loop h
    simp only [admits, Bool.and_eq_true, decide_eq_true_eq] at h
    exact (Runs.single ⟨.receive h.1.1.1 h.1.1.2, h.1.2⟩).trans (ih _ h.2)

theorem podArrivals_delivered : ∀ source ∈ shopConfig.sources,
    Delivered source.topic (eventsOf source podArrivals) := by
  have hchunk : ∀ chunk names final, Chunk .TopicPods final (podChunk chunk names final) :=
    fun _ _ _ => ⟨rfl, rfl, rfl, rfl, rfl⟩
  intro source hsource
  rcases mem_pair.mp hsource with rfl | rfl
  · refine ⟨[_], podChunk 1 [("shop", "db")] true, [podAdded "shop" "new"], rfl, ?_, hchunk _ _ _,
      ?_⟩
    · exact forall_mem_singleton.mpr (hchunk _ _ _)
    · exact forall_mem_singleton.mpr ⟨.inl rfl, rfl⟩
  · refine ⟨[], podChunk 0 [("shop", "web")] true, [podAdded "shop" "job", podAdded "bank" "job"],
      rfl,
      forall_mem_nil _, hchunk _ _ _, ?_⟩
    exact forall_mem_cons.mpr ⟨⟨.inl rfl, rfl⟩, forall_mem_singleton.mpr ⟨.inl rfl, rfl⟩⟩

theorem arrivals_receive {B : Type} (arrived : List (Source × StreamEvent B)) :
    arrivals (arrived.map fun item => .receive item.1 item.2) = arrived := by
  rw [arrivals, filterMap_map]
  exact filterMap_some

theorem podArrivals_run : Runs PodStep podLoop
    (podArrivals.map fun item => .receive item.1 item.2) (receiveAll podLoop podArrivals) :=
  runs_of_admits podArrivals podLoop (by decide +kernel)

/-- The pod of the other namespace is not published. -/
theorem scoped_snapshot_ne_items :
    Runs PodStep podLoop (podArrivals.map fun item => .receive item.1 item.2)
        (receiveAll podLoop podArrivals) ∧
      (∀ source ∈ shopConfig.sources, Delivered source.topic (eventsOf source podArrivals)) ∧
      podArrivals.flatMap (·.2.items) = [podObject "bank" "api", podObject "shop" "api",
        podObject "shop" "web", podObject "shop" "db"] ∧
      (publishedOn .TopicPods (receiveAll podLoop podArrivals).session).flatMap
        (·.event.items) = [podObject "shop" "api", podObject "shop" "web",
          podObject "shop" "db"] := by
  refine ⟨podArrivals_run, podArrivals_delivered, rfl, ?_⟩
  decide +kernel

theorem run_publishes_shop :
    ∃ resourceVersion chunks,
      SnapshotEvents (fun _ => 100) "g1" .TopicPods
          ⟨resourceVersion, [podObject "shop" "api", podObject "shop" "web",
            podObject "shop" "db"]⟩ = .ok chunks ∧
        List.Forall₂ (Stamped "g1") (chunks ++ [podAdded "shop" "job", podAdded "shop" "new"])
          (publishedOn .TopicPods (receiveAll podLoop podArrivals).session) := by
  have hproper : shopConfig.Proper := ⟨by decide, by decide, by decide⟩
  have hdelivered := podArrivals_delivered
  rw [← arrivals_receive podArrivals] at hdelivered
  have hpublished := (run_publishes hproper podLoop_start podArrivals_run
    (fun source hsource => .inr (hdelivered source hsource)) fun _ arrival harrival => by
      rw [arrivals_receive] at harrival
      revert arrival
      simp [podArrivals, podChunk, podAdded, chunkEvent, podObject, Shaped, carried, Projected]).2
    .TopicPods (by decide)
  rw [arrivals_receive] at hpublished
  refine hpublished.1 fun source hsource => ?_
  obtain ⟨hmember, htopic⟩ := Config.mem_sourcesOf.mp hsource
  exact htopic ▸ podArrivals_delivered source hmember

end Kubepeep.Stream
