import Kubepeep.Lib.Effect
import Kubepeep.Resources.Types
import Kubepeep.Watch.Types

/-!
# Snapshots and what a subscriber makes of them

`SnapshotEvents` cuts a snapshot into chunks, `applyStreamEventToSnapshot` keeps it up to date.  A
subscriber folds the events it reads into a map from identities to objects: the chunks of a snapshot
build the map of its items, and a change does to the map what it does to the snapshot.
-/

open List Function Kubepeep.Resources Kubepeep.Go.Json

namespace Kubepeep.Watch

variable {B : Type}

/-! ## The snapshot of a worker -/

def replaceItem (identity : String) (object : TopicObject B) :
    List (TopicObject B) → Option (List (TopicObject B))
  | [] => none
  | item :: rest =>
    if item.identity = identity then
      some (object :: rest)
    else
      (replaceItem identity object rest).map (item :: ·)

def removeItem (identity : String) : List (TopicObject B) → List (TopicObject B)
  | [] => []
  | item :: rest =>
    if item.identity = identity then rest else item :: removeItem identity rest

def applyStreamEventToSnapshot (topic : Topic) (snapshot : WatchSnapshot (TopicObject B))
    (event : StreamEvent B) : WatchSnapshot (TopicObject B) :=
  let resourceVersion :=
    if event.resourceVersion = "" then snapshot.resourceVersion else event.resourceVersion
  match event.event with
  | .added | .modified =>
    match event.object with
    | none => ⟨resourceVersion, snapshot.items⟩
    | some object =>
      match replaceItem object.identity object snapshot.items with
      | some items => ⟨resourceVersion, items⟩
      | none => ⟨resourceVersion, snapshot.items ++ [object]⟩
  | .deleted =>
    match resourceRefIdentity topic event.deleted with
    | none => ⟨resourceVersion, snapshot.items⟩
    | some identity => ⟨resourceVersion, removeItem identity snapshot.items⟩
  | _ => ⟨resourceVersion, snapshot.items⟩

/-- The change in the encoded size of the items; only the changed object is encoded. -/
def snapshotEventSizeDelta (objectSize : TopicObject B → Nat) (topic : Topic)
    (snapshot : WatchSnapshot (TopicObject B)) (event : StreamEvent B) : Int :=
  let (identity, newBytes) : Option String × Int :=
    match event.event with
    | .added | .modified =>
      (topicObjectIdentity event.object, ((event.object.map objectSize).getD 0 : Nat))
    | .deleted => (resourceRefIdentity topic event.deleted, 0)
    | _ => (none, 0)
  match identity with
  | none => 0
  | some identity =>
    match snapshot.items.find? fun item => item.identity = identity with
    | some item =>
      let delta := newBytes - objectSize item
      if newBytes = 0 ∧ snapshot.items.length > 1 then delta - 1 else delta
    | none => if newBytes > 0 ∧ snapshot.items.length > 0 then newBytes + 1 else newBytes

/-! ## The chunks of a snapshot -/

def chunkEvent (generation : String) (topic : Topic) (resourceVersion : String) (chunk : Nat)
    (items : List (TopicObject B)) (final : Bool) : StreamEvent B :=
  { event := .snapshot, topic, generation, resourceVersion, items, chunk, final }

/-- The loop over the items, with the chunk under construction and the number of those before. -/
def chunkLoop (objectSize : TopicObject B → Nat) (generation : String) (topic : Topic)
    (resourceVersion : String) :
    List (TopicObject B) → List (TopicObject B) → Nat → Except ReadError (List (StreamEvent B))
  | [], chunk, count => .ok [chunkEvent generation topic resourceVersion count chunk true]
  | item :: rest, chunk, count =>
    let event := chunkEvent generation topic resourceVersion count (chunk ++ [item]) false
    if event.encodedSize objectSize > MaximumStreamEventBytes - 512 then
      if chunk.isEmpty then
        .error (domainError .CodeLimitExceeded "A snapshot object exceeds the event limit.")
      else
        let single := chunkEvent generation topic resourceVersion (count + 1) [item] true
        if single.wireBytes objectSize > MaximumStreamEventBytes then
          .error (domainError .CodeLimitExceeded "A snapshot object exceeds the event limit.")
        else do
          let later ← chunkLoop objectSize generation topic resourceVersion rest [item] (count + 1)
          return chunkEvent generation topic resourceVersion count chunk false :: later
    else
      chunkLoop objectSize generation topic resourceVersion rest (chunk ++ [item]) count

def SnapshotEvents (objectSize : TopicObject B → Nat) (generation : String) (topic : Topic)
    (snapshot : WatchSnapshot (TopicObject B)) : Except ReadError (List (StreamEvent B)) :=
  if snapshot.items.length > MaximumSnapshotItems then
    .error (domainError .CodeLimitExceeded "The initial snapshot is too large.")
  else if snapshot.items.any fun item => item.resourceTopic != topic then
    .error (validationError "snapshot contains an object for another topic")
  else if itemsSize objectSize snapshot.items > MaximumSnapshotBytes then
    .error (domainError .CodeLimitExceeded "The initial snapshot is too large.")
  else
    chunkLoop objectSize generation topic snapshot.resourceVersion snapshot.items [] 0

inductive Chunked (generation : String) (topic : Topic) (resourceVersion : String) :
    Nat → List (TopicObject B) → List (StreamEvent B) → Prop where
  | last (count : Nat) (items : List (TopicObject B)) :
    Chunked generation topic resourceVersion count items
      [chunkEvent generation topic resourceVersion count items true]
  | more {count : Nat} {items rest : List (TopicObject B)} {events : List (StreamEvent B)} :
    Chunked generation topic resourceVersion (count + 1) rest events →
    Chunked generation topic resourceVersion count (items ++ rest)
      (chunkEvent generation topic resourceVersion count items false :: events)

variable {objectSize : TopicObject B → Nat} {generation : String} {topic : Topic}

variable {resourceVersion : String}

theorem encodedSize_final (items : List (TopicObject B)) (count : Nat) :
    (chunkEvent generation topic resourceVersion count items true).encodedSize objectSize =
      (chunkEvent generation topic resourceVersion count items false).encodedSize objectSize +
        13 := by
  have hname : "final".utf8ByteSize = 5 := rfl
  unfold StreamEvent.encodedSize chunkEvent
  simp only [optionalField, enclosedSize, if_true, sum_append_nat, length_append]
  cases resourceVersion != "" <;> cases items.isEmpty <;> cases count != 0 <;>
    simp [fieldSize, hname] <;> omega

theorem chunkLoop_spec (items : List (TopicObject B)) : ∀ chunk count events,
    chunkLoop objectSize generation topic resourceVersion items chunk count = .ok events →
      Chunked generation topic resourceVersion count (chunk ++ items) events ∧
      ((chunk ≠ [] ∨ items = [] →
        (chunkEvent generation topic resourceVersion count chunk true).wireBytes objectSize ≤
          MaximumStreamEventBytes) →
        ∀ event ∈ events, event.wireBytes objectSize ≤ MaximumStreamEventBytes) := by
  induction items with
  | nil =>
    intro chunk count events h
    obtain rfl := Except.ok.inj h
    rw [append_nil]
    exact ⟨.last count chunk, fun hfits => forall_mem_singleton.mpr (hfits (.inr rfl))⟩
  | cons item rest ih =>
    intro chunk count events h
    unfold chunkLoop at h
    dsimp only at h
    split at h
    · split at h
      · cases h
      · next hchunk =>
        split at h
        · cases h
        · next hsingle =>
          obtain ⟨later, hlater, h⟩ := except_bind_eq_ok h
          obtain rfl := Except.ok.inj h
          obtain ⟨hchunked, hrest⟩ := ih [item] (count + 1) later hlater
          refine ⟨.more hchunked, fun hfits => ?_⟩
          have hlast := hfits (.inl (by simpa using hchunk))
          rw [StreamEvent.wireBytes, encodedSize_final] at hlast
          refine forall_mem_cons.mpr ⟨?_, hrest fun _ => not_lt.mp hsingle⟩
          unfold StreamEvent.wireBytes
          omega
    · next hsmall =>
      obtain ⟨hchunked, hrest⟩ := ih (chunk ++ [item]) count events h
      rw [append_assoc] at hchunked
      refine ⟨hchunked, fun _ => hrest fun _ => ?_⟩
      rw [StreamEvent.wireBytes, encodedSize_final]
      unfold MaximumStreamEventBytes streamSSEEnvelopeReserve at *
      omega

variable {events : List (StreamEvent B)}

theorem SnapshotEvents_loop {snapshot : WatchSnapshot (TopicObject B)}
    (h : SnapshotEvents objectSize generation topic snapshot = .ok events) :
    chunkLoop objectSize generation topic snapshot.resourceVersion snapshot.items [] 0 =
      .ok events := by
  unfold SnapshotEvents at h
  split at h
  · cases h
  split at h
  · cases h
  split at h
  · cases h
  exact h

theorem SnapshotEvents_chunked {snapshot : WatchSnapshot (TopicObject B)}
    (h : SnapshotEvents objectSize generation topic snapshot = .ok events) :
    Chunked generation topic snapshot.resourceVersion 0 snapshot.items events :=
  (chunkLoop_spec snapshot.items [] 0 events (SnapshotEvents_loop h)).1

variable {items : List (TopicObject B)} {count : Nat}

section

variable (h : Chunked generation topic resourceVersion count items events)

include h

theorem Chunked.ne_nil : events ≠ [] := by
  cases h <;> simp

theorem Chunked.layout :
    events.flatMap (·.items) = items ∧ events.map (·.chunk) = range' count events.length ∧
      events.map (·.final) = replicate (events.length - 1) false ++ [true] := by
  induction h with
  | last => simp [chunkEvent]
  | @more count items rest events hmore ih =>
    obtain ⟨hitems, hchunk, hfinal⟩ := ih
    have hpos : 0 < events.length := length_pos_iff.mpr hmore.ne_nil
    refine ⟨?_, ?_, ?_⟩
    · rw [flatMap_cons, hitems]
      rfl
    · rw [map_cons, hchunk]
      rfl
    · obtain ⟨n, hn⟩ := Nat.exists_eq_add_of_lt hpos
      simp_all [chunkEvent, replicate_succ]

theorem Chunked.topic_eq :
    ∀ event ∈ events, event.topic = topic := by
  induction h with
  | last => simp [chunkEvent]
  | more _ ih => simpa [chunkEvent] using ih

theorem Chunked.snapshot :
    ∀ event ∈ events, event.event = .snapshot ∧ event.reason = "" := by
  induction h with
  | last => simp [chunkEvent]
  | more _ ih => simpa [chunkEvent] using ih

end

/-- The chunks hold the items of the snapshot in order, are numbered from 0, and only the last is
final; and each fits, the event of an empty snapshot apart, which is not measured. -/
theorem SnapshotEvents_fit_iff {snapshot : WatchSnapshot (TopicObject B)}
    (h : SnapshotEvents objectSize generation topic snapshot = .ok events) :
    (events.flatMap (·.items) = snapshot.items ∧ events ≠ [] ∧
      events.map (·.chunk) = range events.length ∧
      events.map (·.final) = replicate (events.length - 1) false ++ [true] ∧
      ∀ event ∈ events, event.wireBytes objectSize ≤ MaximumStreamEventBytes) ↔
        (snapshot.items = [] →
          (chunkEvent generation topic snapshot.resourceVersion 0 [] true).wireBytes objectSize ≤
            MaximumStreamEventBytes) := by
  have hchunked := SnapshotEvents_chunked h
  obtain ⟨hitems, hchunk, hfinal⟩ := hchunked.layout
  have hloop := SnapshotEvents_loop h
  constructor
  · rintro ⟨-, -, -, -, hfit⟩ hempty
    rw [hempty] at hloop
    obtain rfl := Except.ok.inj hloop
    exact hfit _ mem_cons_self
  · intro hempty
    refine ⟨hitems, hchunked.ne_nil, by rw [hchunk, range_eq_range'], hfinal, ?_⟩
    refine (chunkLoop_spec _ _ _ _ hloop).2 fun hchunk => hempty ?_
    exact hchunk.resolve_left fun hne => hne rfl

/-- An empty snapshot whose resource version has `n` digits. -/
def zeros (n : Nat) : WatchSnapshot (TopicObject Unit) := ⟨String.ofList (replicate n '0'), []⟩

theorem zeros_size (n : Nat) (hn : 0 < n) :
    n < (chunkEvent "g" .TopicPods (zeros n).resourceVersion 0 [] true).wireBytes
      fun _ : TopicObject Unit => 0 := by
  have hsize : stringSize (zeros n).resourceVersion = n + 2 := by
    rw [stringSize, marshalString_size, zeros, String.toList_ofList, escapeRunes_size_replicate]
    exact congrArg (· + 2) (Nat.mul_one n)
  have hne : ((zeros n).resourceVersion != "") = true := by
    simpa [zeros] using Nat.ne_of_gt hn
  unfold StreamEvent.wireBytes StreamEvent.encodedSize chunkEvent
  simp only [optionalField, enclosedSize, hne, if_true, sum_append_nat, fieldSize, hsize, sum_cons]
  omega

theorem SnapshotEvents_oversized :
    ∃ events, SnapshotEvents (fun _ => 0) "g" .TopicPods (zeros MaximumStreamEventBytes) =
        .ok events ∧
      ∃ event ∈ events, MaximumStreamEventBytes < event.wireBytes fun _ => 0 :=
  ⟨_, rfl, _, mem_cons_self, zeros_size MaximumStreamEventBytes (by decide)⟩

def largePod (name : String) : TopicObject Unit := ⟨.PodDTO ⟨"shop", name, ()⟩, false⟩

def largeSnapshot : WatchSnapshot (TopicObject Unit) :=
  ⟨"7", [largePod "api", largePod "db", largePod "web"]⟩

def largeEvents : List (StreamEvent Unit) :=
  [chunkEvent "g" .TopicPods "7" 0 [largePod "api", largePod "db"] false,
    chunkEvent "g" .TopicPods "7" 1 [largePod "web"] true]

/-- Three pods of 30000 bytes take two chunks. -/
theorem SnapshotEvents_fit_large :
    SnapshotEvents (fun _ => 30000) "g" .TopicPods largeSnapshot = .ok largeEvents ∧
      largeEvents.flatMap (·.items) = largeSnapshot.items ∧
      largeEvents.map (·.chunk) = [0, 1] ∧ largeEvents.map (·.final) = [false, true] ∧
      ∀ event ∈ largeEvents, event.wireBytes (fun _ => 30000) ≤ MaximumStreamEventBytes := by
  have h : SnapshotEvents (fun _ => 30000) "g" .TopicPods largeSnapshot = .ok largeEvents := by
    decide +kernel
  obtain ⟨hitems, _, hchunk, hfinal, hfit⟩ := (SnapshotEvents_fit_iff h).mpr nofun
  exact ⟨h, hitems, hchunk, hfinal, hfit⟩

/-! ## What a subscriber knows -/

abbrev View (B : Type) := String → Option (TopicObject B)

def View.empty : View B := fun _ => none

variable (view : View B)

def View.insert (item : TopicObject B) : View B :=
  update view item.identity (some item)

def View.insertAll (items : List (TopicObject B)) : View B :=
  items.foldl View.insert view

def View.apply (event : StreamEvent B) : View B :=
  match event.event with
  | .snapshot => (if event.chunk = 0 then .empty else view).insertAll event.items
  | .added | .modified =>
    match event.object with
    | none => view
    | some object => view.insert object
  | .deleted =>
    match resourceRefIdentity event.topic event.deleted with
    | none => view
    | some identity => update view identity none
  | _ => view

def View.applyAll (events : List (StreamEvent B)) : View B :=
  events.foldl View.apply view

variable (view : View B)

theorem View.applyAll_cons (event : StreamEvent B) (events : List (StreamEvent B)) :
    view.applyAll (event :: events) = (view.apply event).applyAll events := rfl

theorem View.applyAll_append (first second : List (StreamEvent B)) :
    view.applyAll (first ++ second) = (view.applyAll first).applyAll second :=
  foldl_append

theorem View.insertAll_append (first second : List (TopicObject B)) :
    view.insertAll (first ++ second) = (view.insertAll first).insertAll second :=
  foldl_append

def viewOf (items : List (TopicObject B)) : View B :=
  View.empty.insertAll items

def Distinct (items : List (TopicObject B)) : Prop :=
  (items.map TopicObject.identity).Nodup

instance (items : List (TopicObject B)) : Decidable (Distinct items) :=
  inferInstanceAs (Decidable (Nodup _))

theorem View.insertAll_apply (items : List (TopicObject B)) (identity : String) :
    ∀ view : View B, view.insertAll items identity =
      if identity ∈ items.map TopicObject.identity then (viewOf items) identity
      else view identity := by
  induction items using reverseRecOn with
  | nil => simp [insertAll]
  | append_singleton rest item ih =>
    intro view
    rw [viewOf, insertAll_append, insertAll_append]
    change update (view.insertAll rest) item.identity (some item) identity =
      if _ then update (View.empty.insertAll rest) item.identity (some item) identity else _
    by_cases hsame : identity = item.identity
    · simp [hsame]
    · rw [update_of_ne hsame, update_of_ne hsame, ih view, ih View.empty]
      by_cases hmem : identity ∈ rest.map TopicObject.identity
      · simp [hmem]
      · simp [hmem, hsame]

variable {identity : String}

theorem viewOf_eq_none
    (h : identity ∉ items.map TopicObject.identity) : viewOf items identity = none := by
  rw [viewOf, View.insertAll_apply, if_neg h]
  rfl

variable {item : TopicObject B}

theorem viewOf_cons {rest : List (TopicObject B)}
    (h : Distinct (item :: rest)) (identity : String) :
    viewOf (item :: rest) identity =
      if identity = item.identity then some item else viewOf rest identity := by
  change (View.insert View.empty item).insertAll rest identity = _
  rw [View.insertAll_apply]
  have hnot : item.identity ∉ rest.map TopicObject.identity := (nodup_cons.mp h).1
  by_cases hsame : identity = item.identity
  · rw [if_pos hsame, hsame, if_neg hnot, View.insert, update_self]
  · rw [if_neg hsame]
    by_cases hmem : identity ∈ rest.map TopicObject.identity
    · rw [if_pos hmem]
    · rw [if_neg hmem, View.insert, update_of_ne hsame, viewOf_eq_none hmem]
      rfl

theorem viewOf_mem (h : Distinct items)
    (hmem : item ∈ items) : viewOf items item.identity = some item := by
  induction items with
  | nil => exact absurd hmem not_mem_nil
  | cons first rest ih =>
    rw [viewOf_cons h]
    have hcons := nodup_cons.mp h
    rcases mem_cons.mp hmem with rfl | hrest
    · rw [if_pos rfl]
    · have hne : item.identity ≠ first.identity := by
        intro heq
        exact hcons.1 (heq ▸ mem_map_of_mem hrest)
      rw [if_neg hne]
      exact ih hcons.2 hrest

variable {part : List (TopicObject B)}

theorem View.insertAll_viewOf (h : Distinct items)
    (hsubset : ∀ item ∈ part, item ∈ items) : (viewOf items).insertAll part = viewOf items := by
  induction part with
  | nil => rfl
  | cons item rest ih =>
    have hinsert : (viewOf items).insert item = viewOf items := by
      rw [insert, ← viewOf_mem h (hsubset item mem_cons_self), update_eq_self]
    change ((viewOf items).insert item).insertAll rest = _
    rw [hinsert]
    exact ih fun other hother => hsubset other (mem_cons_of_mem _ hother)

/-! ## Chunks and changes, as seen by a subscriber -/

theorem Chunked.applyAll (h : Chunked generation topic resourceVersion count items events) :
    ∀ view : View B, view.applyAll events =
      (if count = 0 then View.empty else view).insertAll items := by
  induction h with
  | last count items => exact fun view => rfl
  | more _ ih =>
    intro view
    rw [View.applyAll_cons, ih, if_neg (Nat.succ_ne_zero _), View.insertAll_append]
    rfl

theorem Chunked.applyAll_eq_viewOf (h : Chunked generation topic resourceVersion 0 items events)
    (view : View B) : view.applyAll events = viewOf items := by
  rw [h.applyAll, if_pos rfl]
  rfl

/-- A map that no rest of these events changes any more. -/
def Stable (events : List (StreamEvent B)) : Prop :=
  ∀ rest, rest <:+ events → view.applyAll rest = view

variable {event : StreamEvent B} {view : View B}

theorem Stable.tail (h : Stable view (event :: events)) : Stable view events :=
  fun rest hrest => h rest (hrest.trans (suffix_cons event events))

theorem Stable.applyAll (h : Stable view events) : view.applyAll events = view :=
  h events suffix_rfl

theorem stable_nil : Stable view ([] : List (StreamEvent B)) := by
  intro rest hrest
  rw [suffix_nil.mp hrest]
  rfl

theorem stable_singleton (h : view.apply event = view) :
    Stable view [event] := by
  intro rest hrest
  rcases suffix_cons_iff.mp hrest with rfl | hnil
  · exact h
  · rw [suffix_nil.mp hnil]
    rfl

theorem Chunked.stable (hdistinct : Distinct items)
    (h : Chunked generation topic resourceVersion count part events)
    (hsubset : ∀ item ∈ part, item ∈ items) (hstart : count = 0 → part = items) :
    Stable (viewOf items) events := by
  have hwhole : ∀ {count : Nat} {part : List (TopicObject B)} {events : List (StreamEvent B)},
      Chunked generation topic resourceVersion count part events →
      (∀ item ∈ part, item ∈ items) → (count = 0 → part = items) →
      (viewOf items).applyAll events = viewOf items := by
    intro count part events h hsubset hstart
    rw [h.applyAll]
    split_ifs with hzero
    · rw [hstart hzero]
      rfl
    · exact View.insertAll_viewOf hdistinct hsubset
  induction h with
  | last count part =>
    apply stable_singleton
    exact hwhole (.last count part) hsubset hstart
  | more hlater ih =>
    intro rest hrest
    rcases suffix_cons_iff.mp hrest with rfl | hsuffix
    · exact hwhole (.more hlater) hsubset hstart
    · exact ih (fun item hitem => hsubset item (mem_append_right _ hitem))
        (fun hzero => absurd hzero (Nat.succ_ne_zero _)) rest hsuffix

variable {object : TopicObject B}

theorem replaceItem_none (h : replaceItem identity object items = none) :
    identity ∉ items.map TopicObject.identity := by
  induction items with
  | nil => simp
  | cons item rest ih =>
    unfold replaceItem at h
    split at h
    · cases h
    · next hne =>
      have hrest := ih (by simpa using h)
      simp only [map_cons, mem_cons, not_or]
      exact ⟨fun heq => hne heq.symm, hrest⟩

theorem replaceItem_some {next : List (TopicObject B)}
    (hdistinct : Distinct items) (h : replaceItem object.identity object items = some next) :
    Distinct next ∧ viewOf next = (viewOf items).insert object := by
  suffices hnext : next.map TopicObject.identity = items.map TopicObject.identity ∧
      (∀ identity, viewOf next identity = (viewOf items).insert object identity) by
    refine ⟨?_, funext hnext.2⟩
    rw [Distinct, hnext.1]
    exact hdistinct
  induction items generalizing next with
  | nil => exact absurd h (by simp [replaceItem])
  | cons item rest ih =>
    have hcons := nodup_cons.mp hdistinct
    unfold replaceItem at h
    split at h
    · next hsame =>
      obtain rfl := Option.some.inj h
      have hmap : (object :: rest).map TopicObject.identity =
          (item :: rest).map TopicObject.identity := by simp [hsame]
      refine ⟨hmap, fun identity => ?_⟩
      have hobject : Distinct (object :: rest) := by
        rw [Distinct, hmap]
        exact hdistinct
      rw [viewOf_cons hobject, View.insert]
      split_ifs with hid
      · rw [hid, update_self]
      · rw [update_of_ne hid, viewOf_cons hdistinct, if_neg (hsame ▸ hid)]
    · next hne =>
      obtain ⟨later, hlater, rfl⟩ := Option.map_eq_some_iff.mp h
      obtain ⟨hmap, hview⟩ := ih hcons.2 hlater
      have hmap' : (item :: later).map TopicObject.identity =
          (item :: rest).map TopicObject.identity := by simp [hmap]
      refine ⟨hmap', fun identity => ?_⟩
      have hlater : Distinct (item :: later) := by
        rw [Distinct, hmap']
        exact hdistinct
      rw [viewOf_cons hlater, hview, View.insert, View.insert]
      by_cases hid : identity = object.identity
      · have hother : identity ≠ item.identity := fun heq => hne (heq ▸ hid)
        rw [if_neg hother, hid, update_self, update_self]
      · rw [update_of_ne hid, update_of_ne hid, viewOf_cons hdistinct]

theorem removeItem_spec (identity : String) (hdistinct : Distinct items) :
    (removeItem identity items).Sublist items ∧
      viewOf (removeItem identity items) = update (viewOf items) identity none := by
  suffices h : (removeItem identity items).Sublist items ∧ ∀ other,
      viewOf (removeItem identity items) other =
        update (viewOf items) identity none other from ⟨h.1, funext h.2⟩
  induction items with
  | nil =>
    refine ⟨.refl _, fun other => ?_⟩
    by_cases hother : other = identity
    · rw [hother, update_self]
      rfl
    · rw [update_of_ne hother]
      rfl
  | cons item rest ih =>
    have hcons := nodup_cons.mp hdistinct
    unfold removeItem
    split
    · next hsame =>
      refine ⟨sublist_cons_self _ _, fun other => ?_⟩
      by_cases hother : other = identity
      · rw [hother, update_self, ← hsame, viewOf_eq_none hcons.1]
      · rw [update_of_ne hother, viewOf_cons hdistinct, if_neg (hsame ▸ hother)]
    · next hne =>
      obtain ⟨hsublist, hview⟩ := ih hcons.2
      refine ⟨hsublist.cons_cons item, fun other => ?_⟩
      have hlater : Distinct (item :: removeItem identity rest) :=
        hdistinct.sublist ((hsublist.cons_cons item).map _)
      rw [viewOf_cons hlater, hview]
      by_cases hother : other = identity
      · have hdiff : other ≠ item.identity := fun heq => hne (heq ▸ hother)
        rw [if_neg hdiff, hother, update_self, update_self]
      · rw [update_of_ne hother, update_of_ne hother, viewOf_cons hdistinct]

theorem applyStreamEventToSnapshot_spec {snapshot : WatchSnapshot (TopicObject B)}
    (hdistinct : Distinct snapshot.items) (htopic : event.topic = topic)
    (hevent : event.event ≠ .snapshot) :
    Distinct (applyStreamEventToSnapshot topic snapshot event).items ∧
      viewOf (applyStreamEventToSnapshot topic snapshot event).items =
        (viewOf snapshot.items).apply event := by
  have hchange : (event.event = .added ∨ event.event = .modified) →
      Distinct (applyStreamEventToSnapshot topic snapshot event).items ∧
        viewOf (applyStreamEventToSnapshot topic snapshot event).items =
          (viewOf snapshot.items).apply event := by
    intro hadded
    have hitems : ∀ object, event.object = some object →
        (applyStreamEventToSnapshot topic snapshot event).items =
          (replaceItem object.identity object snapshot.items).getD
            (snapshot.items ++ [object]) := by
      intro object hobject
      unfold applyStreamEventToSnapshot
      rcases hadded with hadded | hadded <;>
        (simp only [hadded, hobject]
         cases replaceItem object.identity object snapshot.items <;> rfl)
    have happly : (viewOf snapshot.items).apply event = match event.object with
        | none => viewOf snapshot.items
        | some object => (viewOf snapshot.items).insert object := by
      unfold View.apply
      rcases hadded with hadded | hadded <;> rw [hadded]
    cases hobject : event.object with
    | none =>
      have hsame : (applyStreamEventToSnapshot topic snapshot event).items = snapshot.items := by
        unfold applyStreamEventToSnapshot
        rcases hadded with hadded | hadded <;> simp only [hadded, hobject]
      rw [hsame, happly, hobject]
      exact ⟨hdistinct, rfl⟩
    | some object =>
      rw [hitems object hobject, happly, hobject]
      cases hreplace : replaceItem object.identity object snapshot.items with
      | some next => exact replaceItem_some hdistinct hreplace
      | none =>
        have hnew := replaceItem_none hreplace
        refine ⟨?_, ?_⟩
        · rw [Option.getD_none, Distinct, map_append]
          exact nodup_append.mpr ⟨hdistinct, by simp, by
            intro a ha b hb
            obtain rfl : b = object.identity := by simpa using hb
            exact fun heq => hnew (heq ▸ ha)⟩
        · exact View.insertAll_append View.empty snapshot.items [object]
  unfold View.apply
  cases hkind : event.event with
  | added =>
    have := hchange (.inl hkind)
    rwa [View.apply, hkind] at this
  | modified =>
    have := hchange (.inr hkind)
    rwa [View.apply, hkind] at this
  | deleted =>
    rw [applyStreamEventToSnapshot, hkind, htopic]
    cases resourceRefIdentity topic event.deleted with
    | none => exact ⟨hdistinct, rfl⟩
    | some identity =>
      obtain ⟨hsublist, hview⟩ := removeItem_spec identity hdistinct
      exact ⟨hdistinct.sublist (hsublist.map _), hview⟩
  | snapshot => exact absurd hkind hevent
  | _ =>
    rw [applyStreamEventToSnapshot, hkind]
    exact ⟨hdistinct, rfl⟩

end Kubepeep.Watch
