import Kubepeep.Watch.Worker

/-!
# Serving the snapshot of a worker

A later subscriber is served with `SnapshotEvents` of the worker's snapshot.  A change is accepted
when its event leaves 64 bytes of the event limit, a snapshot object only when its chunk leaves 512;
so a worker can hold an object that no subscriber can be served.  As long as every object fits a
chunk of its own, `SnapshotEvents` succeeds in every state with a snapshot.
-/

open Nat Option List Kubepeep.Resources Kubepeep.System

namespace Kubepeep.Watch

section

variable {B : Type} (objectSize : TopicObject B → Nat) (generation : String) (topic : Topic)

/-! ## Changes -/

/-- `strings.ToLower(change.Type)`, where the worker tells it apart. -/
inductive ChangeType where
  | added
  | modified
  | deleted
  | other
  deriving DecidableEq, Repr

/-- A `WatchChange`, with the time at which it is converted. -/
structure WatchChange (B : Type) where
  type : ChangeType
  object : Option (TopicObject B) := none
  deleted : Option ResourceRef := none
  resourceVersion : String := ""
  observedAt : String := ""

def ChangeType.event : ChangeType → Option EventType
  | .added => some .added
  | .modified => some .modified
  | .deleted => some .deleted
  | .other => none

def changeEvent (change : WatchChange B) : Except ReadError (StreamEvent B) :=
  match change.type.event with
  | none => .error (validationError "watch event type is invalid")
  | some event =>
    let base : StreamEvent B :=
      { event, topic, generation, resourceVersion := change.resourceVersion
        observedAt := change.observedAt }
    if change.type = .deleted then
      match change.deleted with
      | none => .error (validationError "deleted watch event requires a reference")
      | some ref => .ok { base with deleted := some ref }
    else
      match change.object with
      | none => .error (validationError "watch object does not match its topic")
      | some object =>
        if object.resourceTopic ≠ topic then
          .error (validationError "watch object does not match its topic")
        else .ok { base with object := some object }

def watchChangeEvent (change : WatchChange B) : Except ReadError (StreamEvent B) := do
  let event ← changeEvent generation topic change
  if event.wireBytes objectSize > MaximumStreamEventBytes then
    throw (domainError .CodeLimitExceeded "The watch event exceeds the event limit.")
  return event

/-! ## The steps of a worker -/

inductive WorkerInput (B : Type) where
  | install (snapshot : WatchSnapshot (TopicObject B))
  | change (event : StreamEvent B)
  | bookmark (resourceVersion : String)
  | subscribe
  | stop

/-- What happens to the snapshot of a worker: a list or a streamed list is installed, a change or a
bookmark of the stream comes, a subscriber is served, the worker stops. -/
inductive WorkerStep : Worker B → WorkerInput B → Worker B → Prop
  | install {worker next : Worker B} {snapshot : WatchSnapshot (TopicObject B)}
      {events : List (StreamEvent B)} (ended : Bool) (fits : Int → Bool)
      (hevents : SnapshotEvents objectSize generation topic snapshot = .ok events)
      (hinstall : installSnapshotLocked objectSize worker ended fits snapshot events = some next) :
      WorkerStep worker (.install snapshot) next
  | change {worker next : Worker B} {change : WatchChange B} {event : StreamEvent B}
      {update : Update} (fits : Int → Bool)
      (hchange : watchChangeEvent objectSize generation topic change = .ok event)
      (hupdate : updateSnapshot objectSize topic worker fits event = (next, update)) :
      WorkerStep worker (.change event) next
  | bookmark {worker : Worker B} {resourceVersion : String} (hversion : resourceVersion ≠ "") :
      WorkerStep worker (.bookmark resourceVersion) (bookmark worker resourceVersion)
  | subscribe {worker : Worker B} {events : List (StreamEvent B)}
      (hevents : initialEvents objectSize generation topic worker = .ok events) :
      WorkerStep worker .subscribe { worker with initial := events }
  | stop {worker : Worker B} : WorkerStep worker .stop { worker with stopping := true }

/-- Every object of the snapshot fits a chunk of its own, whatever the chunk's number. -/
def Roomy (snapshot : WatchSnapshot (TopicObject B)) : Prop :=
  ∀ item ∈ snapshot.items,
    (chunkEvent generation topic snapshot.resourceVersion MaximumSnapshotItems [item]
      true).encodedSize objectSize ≤ MaximumStreamEventBytes - 512

/-- The condition on an input: the snapshot that it makes has room. -/
def RoomyInput (worker : Worker B) : WorkerInput B → Prop
  | .install snapshot => Roomy objectSize generation topic snapshot
  | .change event =>
    Roomy objectSize generation topic (applyStreamEventToSnapshot topic worker.snapshot event)
  | .bookmark resourceVersion =>
    Roomy objectSize generation topic { worker.snapshot with resourceVersion := resourceVersion }
  | .subscribe => True
  | .stop => True

def RoomyStep (worker : Worker B) (input : WorkerInput B) (next : Worker B) : Prop :=
  WorkerStep objectSize generation topic worker input next ∧
    RoomyInput objectSize generation topic worker input

end

section

variable {B : Type} {objectSize : TopicObject B → Nat} {generation : String} {topic : Topic}

/-! ## Chunks with room -/

theorem utf8Size_of_isDigit {c : Char} (h : c.isDigit = true) : c.utf8Size = 1 := by
  unfold Char.isDigit at h
  rw [Bool.and_eq_true] at h
  have hle : c.val ≤ 57 := by simpa using h.2
  exact if_pos (UInt32.le_trans hle (by decide : (57 : UInt32) ≤ 127))

theorem utf8Len_of_isDigit {digits : List Char} (h : ∀ c ∈ digits, c.isDigit = true) :
    String.utf8Len digits = digits.length := by
  induction digits with
  | nil => rfl
  | cons c rest ih =>
    obtain ⟨hc, hrest⟩ := forall_mem_cons.mp h
    rw [String.utf8Len_cons, ih hrest, utf8Size_of_isDigit hc, length_cons]

theorem repr_size_le {n : Nat} (h : n ≤ MaximumSnapshotItems) :
    n.repr.utf8ByteSize ≤ MaximumSnapshotItems.repr.utf8ByteSize := by
  have hlength : (Nat.toDigits 10 n).length ≤ 5 :=
    Nat.toDigits_length 10 n 5 (by decide) (Nat.lt_of_le_of_lt h (by decide))
  have hdigits : ∀ c ∈ Nat.toDigits 10 n, c.isDigit = true := fun c hc =>
    Nat.isDigit_of_mem_toDigits (by decide) (by decide) hc
  rw [show MaximumSnapshotItems.repr.utf8ByteSize = 5 by decide +kernel,
    show n.repr = String.ofList (Nat.toDigits 10 n) by simp [Nat.repr], String.utf8ByteSize_ofList,
    utf8Len_of_isDigit hdigits]
  exact hlength

variable {resourceVersion : String}

theorem chunk_size_le {count : Nat} {item : TopicObject B} {final : Bool}
    (h : count ≤ MaximumSnapshotItems) :
    (chunkEvent generation topic resourceVersion count [item] final).encodedSize objectSize ≤
      (chunkEvent generation topic resourceVersion MaximumSnapshotItems [item] true).encodedSize
        objectSize := by
  have hrepr := repr_size_le h
  have hmax : (MaximumSnapshotItems != 0) = true := rfl
  unfold StreamEvent.encodedSize chunkEvent
  simp only [hmax, optionalField, enclosedSize, if_true, sum_append_nat, length_append]
  cases resourceVersion != "" <;> cases final <;> cases count != 0 <;>
    simp [fieldSize] <;> omega

variable {items : List (TopicObject B)}

theorem chunkLoop_roomy : ∀ {chunk : List (TopicObject B)} {count : Nat},
      count + items.length ≤ MaximumSnapshotItems →
      (∀ item ∈ items, (chunkEvent generation topic resourceVersion MaximumSnapshotItems [item]
        true).encodedSize objectSize ≤ MaximumStreamEventBytes - 512) →
      ∃ events, chunkLoop objectSize generation topic resourceVersion items chunk count =
        .ok events := by
  induction items with
  | nil => exact fun _ _ => ⟨_, rfl⟩
  | cons item rest ih =>
    intro chunk count hcount hroom
    rw [length_cons] at hcount
    obtain ⟨hitem, hrest⟩ := forall_mem_cons.mp hroom
    unfold chunkLoop
    dsimp only
    split
    · next hlarge =>
      have hchunk : chunk.isEmpty = false := by
        -- An object alone in the chunk is not too large.
        cases chunk with
        | cons first more => rfl
        | nil =>
          have hfits : (chunkEvent generation topic resourceVersion count [item] false).encodedSize
              objectSize ≤ _ := chunk_size_le (by omega)
          exact absurd (hfits.trans hitem) (not_le.mpr hlarge)
      have hsingle : (chunkEvent generation topic resourceVersion (count + 1) [item]
          true).wireBytes objectSize ≤ MaximumStreamEventBytes := by
        have hfits : (chunkEvent generation topic resourceVersion (count + 1) [item]
            true).encodedSize objectSize ≤ _ := chunk_size_le (by omega)
        have hle := hfits.trans hitem
        unfold StreamEvent.wireBytes streamSSEEnvelopeReserve
        unfold MaximumStreamEventBytes at hle ⊢
        omega
      rw [hchunk, if_neg (by simp), if_neg (not_lt.mpr hsingle)]
      obtain ⟨later, hlater⟩ := @ih [item] (count + 1) (by omega) hrest
      rw [hlater]
      exact ⟨_, rfl⟩
    · exact ih (by omega) hrest

theorem SnapshotEvents_roomy {snapshot : WatchSnapshot (TopicObject B)}
    (hfew : snapshot.items.length ≤ MaximumSnapshotItems)
    (htopic : ∀ item ∈ snapshot.items, item.resourceTopic = topic)
    (hsize : itemsSize objectSize snapshot.items ≤ MaximumSnapshotBytes)
    (hroomy : Roomy objectSize generation topic snapshot) :
    ∃ events, SnapshotEvents objectSize generation topic snapshot = .ok events := by
  have hsame : ¬(snapshot.items.any fun item => item.resourceTopic != topic) = true := by
    simpa using htopic
  unfold SnapshotEvents
  rw [if_neg (not_lt.mpr hfew), if_neg hsame, if_neg (not_lt.mpr hsize)]
  exact chunkLoop_roomy (by omega) hroomy

/-! ## The tracked size -/

theorem itemsSize_eq (items : List (TopicObject B)) :
    (itemsSize objectSize items : Int) =
      2 + (items.map objectSize).sum + ((items.length - 1 : Nat) : Int) := by
  unfold itemsSize enclosedSize
  rw [length_map]
  omega

variable {identity : String} {rest : List (TopicObject B)} {first : TopicObject B}

theorem find?_first (h : first.identity = identity) :
    (first :: rest).find? (fun item => item.identity = identity) = some first :=
  find?_cons_of_pos (by simpa using h)

theorem find?_rest (h : first.identity ≠ identity) :
    (first :: rest).find? (fun item => item.identity = identity) =
      rest.find? fun item => item.identity = identity :=
  find?_cons_of_neg (by simpa using h)

variable {object : TopicObject B}

theorem replaceItem_of_none (h : (items.find? fun item => item.identity = identity) = none) :
    replaceItem identity object items = none := by
  induction items with
  | nil => rfl
  | cons first rest ih =>
    have hfirst : first.identity ≠ identity := by simpa using find?_eq_none.mp h first
    rw [find?_rest hfirst] at h
    rw [replaceItem, if_neg hfirst, ih h]
    rfl

variable {old : TopicObject B}

theorem replaceItem_of_some (objectSize : TopicObject B → Nat) (object : TopicObject B)
    (h : (items.find? fun item => item.identity = identity) = some old) :
    ∃ next, replaceItem identity object items = some next ∧ next.length = items.length ∧
      (next.map objectSize).sum + objectSize old =
        (items.map objectSize).sum + objectSize object ∧
      ∀ item ∈ next, item = object ∨ item ∈ items := by
  induction items with
  | nil => cases h
  | cons first rest ih =>
    unfold replaceItem
    by_cases hfirst : first.identity = identity
    · rw [find?_first hfirst] at h
      obtain rfl := some.inj h
      rw [if_pos hfirst]
      refine ⟨_, rfl, rfl, ?_, fun item hitem => ?_⟩
      · simp only [map_cons, sum_cons]
        omega
      · exact (mem_cons.mp hitem).imp id (mem_cons_of_mem _)
    · rw [find?_rest hfirst] at h
      obtain ⟨next, hnext, hlength, hsum, hmem⟩ := ih h
      rw [if_neg hfirst, hnext]
      refine ⟨first :: next, rfl, by simp [hlength], ?_, ?_⟩
      · simp only [map_cons, sum_cons]
        omega
      · refine forall_mem_cons.mpr ⟨.inr mem_cons_self, fun item hitem => ?_⟩
        exact (hmem item hitem).imp id (mem_cons_of_mem _)

theorem removeItem_subset (items : List (TopicObject B)) : removeItem identity items ⊆ items := by
  induction items with
  | nil => exact Subset.refl _
  | cons first rest ih =>
    unfold removeItem
    split
    · exact subset_cons_self _ _
    · exact cons_subset_cons _ ih

theorem removeItem_of_none (h : (items.find? fun item => item.identity = identity) = none) :
    removeItem identity items = items := by
  induction items with
  | nil => rfl
  | cons first rest ih =>
    have hfirst : first.identity ≠ identity := by simpa using find?_eq_none.mp h first
    rw [find?_rest hfirst] at h
    rw [removeItem, if_neg hfirst, ih h]

theorem removeItem_of_some (objectSize : TopicObject B → Nat)
    (h : (items.find? fun item => item.identity = identity) = some old) :
    (removeItem identity items).length + 1 = items.length ∧
      ((removeItem identity items).map objectSize).sum + objectSize old =
        (items.map objectSize).sum := by
  induction items with
  | nil => cases h
  | cons first rest ih =>
    unfold removeItem
    by_cases hfirst : first.identity = identity
    · rw [find?_first hfirst] at h
      obtain rfl := some.inj h
      rw [if_pos hfirst]
      simp only [length_cons, map_cons, sum_cons, true_and]
      omega
    · rw [find?_rest hfirst] at h
      obtain ⟨hlength, hsum⟩ := ih h
      rw [if_neg hfirst]
      simp only [length_cons, map_cons, sum_cons]
      omega

/-- An event as `watchChangeEvent` makes it. -/
def Converted (topic : Topic) (event : StreamEvent B) : Prop :=
  (event.event = .added ∨ event.event = .modified) ∧
      (∃ object, event.object = some object ∧ object.resourceTopic = topic) ∨
    event.event = .deleted

theorem watchChangeEvent_converted {change : WatchChange B} {event : StreamEvent B}
    (h : watchChangeEvent objectSize generation topic change = .ok event) :
    Converted topic event := by
  unfold watchChangeEvent at h
  obtain ⟨converted, hevent, h⟩ := except_bind_eq_ok h
  have hsame : converted = event := by
    split at h
    · exact absurd h (by simp [throw, throwThe, MonadExceptOf.throw, bind, Except.bind])
    · exact Except.ok.inj h
  subst hsame
  unfold changeEvent at hevent
  cases htype : change.type <;> rw [htype] at hevent
  case other => exact absurd hevent (by simp [ChangeType.event])
  case deleted =>
    dsimp only [ChangeType.event] at hevent
    cases hdeleted : change.deleted with
    | none =>
      rw [hdeleted] at hevent
      cases hevent
    | some ref =>
      rw [hdeleted] at hevent
      rw [← Except.ok.inj hevent]
      exact .inr rfl
  all_goals
    dsimp only [ChangeType.event] at hevent
    rw [if_neg (by decide)] at hevent
    cases hobject : change.object with
    | none =>
      rw [hobject] at hevent
      cases hevent
    | some object =>
      rw [hobject] at hevent
      dsimp only at hevent
      split at hevent
      · cases hevent
      next htopic =>
      rw [← Except.ok.inj hevent]
      exact .inl ⟨by simp, object, rfl, not_not.mp htopic⟩

variable {snapshot : WatchSnapshot (TopicObject B)} {event : StreamEvent B}

theorem delta_of_some (hevent : event.event = .added ∨ event.event = .modified)
    (hobject : event.object = some object) (hpos : 0 < objectSize object)
    (hold : (snapshot.items.find? fun item => item.identity = object.identity) = some old) :
    snapshotEventSizeDelta objectSize topic snapshot event =
      (objectSize object : Int) - objectSize old := by
  have hne : ¬((objectSize object : Int) = 0 ∧ snapshot.items.length > 1) := by omega
  unfold snapshotEventSizeDelta
  rcases hevent with hevent | hevent <;> rw [hevent] <;>
    simp only [hobject, topicObjectIdentity, map_some, getD_some, hold, if_neg hne]

theorem delta_of_none (hevent : event.event = .added ∨ event.event = .modified)
    (hobject : event.object = some object) (hpos : 0 < objectSize object)
    (hnone : (snapshot.items.find? fun item => item.identity = object.identity) = none) :
    snapshotEventSizeDelta objectSize topic snapshot event =
      objectSize object + if snapshot.items.length > 0 then 1 else 0 := by
  have hpositive : (objectSize object : Int) > 0 := by omega
  unfold snapshotEventSizeDelta
  rcases hevent with hevent | hevent <;> rw [hevent] <;>
    simp only [hobject, topicObjectIdentity, map_some, getD_some, hnone, hpositive,
      true_and] <;> split <;> omega

theorem apply_object (hevent : event.event = .added ∨ event.event = .modified)
    (hobject : event.object = some object) (hpos : 0 < objectSize object) :
    (∀ item ∈ (applyStreamEventToSnapshot topic snapshot event).items,
        item = object ∨ item ∈ snapshot.items) ∧
      (itemsSize objectSize (applyStreamEventToSnapshot topic snapshot event).items : Int) =
        itemsSize objectSize snapshot.items +
          snapshotEventSizeDelta objectSize topic snapshot event := by
  have happly : (applyStreamEventToSnapshot topic snapshot event).items =
      (replaceItem object.identity object snapshot.items).getD (snapshot.items ++ [object]) := by
    unfold applyStreamEventToSnapshot
    rcases hevent with hevent | hevent <;> rw [hevent] <;> dsimp only <;> rw [hobject] <;>
      dsimp only <;> cases replaceItem object.identity object snapshot.items <;> rfl
  rw [happly, itemsSize_eq, itemsSize_eq]
  cases hfind : snapshot.items.find? fun item => item.identity = object.identity with
  | some old =>
    obtain ⟨next, hnext, hlength, hsum, hmem⟩ := replaceItem_of_some objectSize object hfind
    rw [hnext, delta_of_some hevent hobject hpos hfind]
    refine ⟨hmem, ?_⟩
    rw [getD_some, hlength]
    omega
  | none =>
    rw [replaceItem_of_none hfind, delta_of_none hevent hobject hpos hfind, getD_none]
    refine ⟨fun item hitem => ?_, ?_⟩
    · rcases mem_append.mp hitem with hold | hnew
      · exact .inr hold
      · exact .inl (mem_singleton.mp hnew)
    · simp only [map_append, map_cons, map_nil, sum_append_nat, sum_singleton,
        length_append, length_singleton]
      split <;> omega

theorem apply_deleted (hevent : event.event = .deleted) :
    (applyStreamEventToSnapshot topic snapshot event).items ⊆ snapshot.items ∧
      (itemsSize objectSize (applyStreamEventToSnapshot topic snapshot event).items : Int) =
        itemsSize objectSize snapshot.items +
          snapshotEventSizeDelta objectSize topic snapshot event := by
  unfold applyStreamEventToSnapshot snapshotEventSizeDelta
  rw [hevent]
  cases resourceRefIdentity topic event.deleted with
  | none => exact ⟨Subset.refl _, (Int.add_zero _).symm⟩
  | some identity =>
    dsimp only
    refine ⟨removeItem_subset _, ?_⟩
    rw [itemsSize_eq, itemsSize_eq]
    cases hfind : snapshot.items.find? fun item => item.identity = identity with
    | none =>
      rw [removeItem_of_none hfind]
      simp
    | some old =>
      obtain ⟨hlength, hsum⟩ := removeItem_of_some objectSize hfind
      simp only [true_and]
      split <;> omega

/-! ## Every run -/

structure Holding (objectSize : TopicObject B → Nat) (generation : String) (topic : Topic)
    (worker : Worker B) : Prop where
  few : worker.snapshot.items.length ≤ MaximumSnapshotItems
  topics : ∀ item ∈ worker.snapshot.items, item.resourceTopic = topic
  tracked : worker.snapshotBytes = itemsSize objectSize worker.snapshot.items
  limit : worker.snapshotBytes ≤ MaximumSnapshotBytes
  roomy : Roomy objectSize generation topic worker.snapshot

variable {worker next : Worker B} {input : WorkerInput B}

theorem Holding.served (h : Holding objectSize generation topic worker) :
    ∃ events, SnapshotEvents objectSize generation topic worker.snapshot = .ok events := by
  refine SnapshotEvents_roomy h.few h.topics ?_ h.roomy
  have hlimit := h.limit
  rw [h.tracked] at hlimit
  exact Int.ofNat_le.mp hlimit

variable {events : List (StreamEvent B)}

theorem SnapshotEvents_topics
    (h : SnapshotEvents objectSize generation topic snapshot = .ok events) :
    ∀ item ∈ snapshot.items, item.resourceTopic = topic := by
  unfold SnapshotEvents at h
  split at h
  · cases h
  split at h
  · cases h
  next htopics => simpa using htopics

variable {fits : Int → Bool}

theorem Holding.install {ended : Bool}
    (hevents : SnapshotEvents objectSize generation topic snapshot = .ok events)
    (hinstall : installSnapshotLocked objectSize worker ended fits snapshot events = some next)
    (hroomy : Roomy objectSize generation topic snapshot) :
    Holding objectSize generation topic next := by
  unfold installSnapshotLocked at hinstall
  dsimp only at hinstall
  split at hinstall
  · cases hinstall
  split at hinstall
  · cases hinstall
  next hlimits =>
  obtain rfl := some.inj hinstall
  rw [not_or, not_or, not_lt, not_lt] at hlimits
  exact ⟨hlimits.1, SnapshotEvents_topics hevents, rfl, Int.ofNat_le.mpr hlimits.2.1, hroomy⟩

theorem Holding.converted (hsize : ∀ object, 0 < objectSize object)
    (h : Holding objectSize generation topic worker)
    (hevent : Converted topic event) :
    (∀ item ∈ (applyStreamEventToSnapshot topic worker.snapshot event).items,
        item.resourceTopic = topic) ∧
      (itemsSize objectSize (applyStreamEventToSnapshot topic worker.snapshot event).items : Int) =
        worker.snapshotBytes + snapshotEventSizeDelta objectSize topic worker.snapshot event := by
  rw [h.tracked]
  rcases hevent with ⟨hkind, object, hobject, htopic⟩ | hkind
  · obtain ⟨hmem, hbytes⟩ := apply_object hkind hobject (hsize object)
    refine ⟨fun item hitem => ?_, hbytes⟩
    rcases hmem item hitem with rfl | hold
    · exact htopic
    · exact h.topics item hold
  · obtain ⟨hsub, hbytes⟩ := apply_deleted hkind
    exact ⟨fun item hitem => h.topics item (hsub hitem), hbytes⟩

theorem Holding.update (hsize : ∀ object, 0 < objectSize object)
    (h : Holding objectSize generation topic worker)
    (hready : worker.snapshotReady = true)
    (hevent : Converted topic event) {update : Update}
    (hupdate : updateSnapshot objectSize topic worker fits event = (next, update))
    (hroomy : Roomy objectSize generation topic
      (applyStreamEventToSnapshot topic worker.snapshot event))
    (hstill : next.snapshotReady = true) : Holding objectSize generation topic next := by
  obtain ⟨htopics, hbytes⟩ := h.converted hsize hevent
  have hnonzero : worker.snapshotBytes ≠ 0 := by
    rw [h.tracked, itemsSize_eq]
    omega
  unfold updateSnapshot at hupdate
  split at hupdate
  · obtain ⟨rfl, -⟩ := Prod.mk.inj hupdate
    exact h
  simp only [hready, Bool.not_true, Bool.false_eq_true, if_false] at hupdate
  split at hupdate
  · obtain ⟨rfl, -⟩ := Prod.mk.inj hupdate
    cases hstill
  next hlimits =>
  obtain ⟨rfl, -⟩ := Prod.mk.inj hupdate
  rw [not_or, not_or, not_lt, Int.not_lt] at hlimits
  exact ⟨hlimits.1, htopics, hbytes.symm, hlimits.2.1, hroomy⟩

theorem WorkerStep.holding (hsize : ∀ object, 0 < objectSize object)
    (hstep : WorkerStep objectSize generation topic worker input next)
    (hroomy : RoomyInput objectSize generation topic worker input)
    (h : worker.snapshotReady = true → Holding objectSize generation topic worker) :
    next.snapshotReady = true → Holding objectSize generation topic next := by
  cases hstep with
  | install ended fits hevents hinstall =>
    exact fun _ => Holding.install hevents hinstall hroomy
  | change fits hchange hupdate =>
    intro hstill
    by_cases hready : worker.snapshotReady = true
    · exact (h hready).update hsize hready (watchChangeEvent_converted hchange) hupdate hroomy
        hstill
    · -- Without a snapshot, an update does not make one.
      unfold updateSnapshot at hupdate
      split at hupdate
      · obtain ⟨rfl, -⟩ := Prod.mk.inj hupdate
        exact absurd hstill hready
      rw [if_pos (by simpa using hready)] at hupdate
      obtain ⟨rfl, -⟩ := Prod.mk.inj hupdate
      exact absurd hstill hready
  | bookmark _ =>
    unfold Watch.bookmark
    split
    · next hready => exact fun _ => ⟨(h hready).few, (h hready).topics, (h hready).tracked,
        (h hready).limit, hroomy⟩
    · exact h
  | subscribe _ => exact fun hready => ⟨(h hready).few, (h hready).topics, (h hready).tracked,
      (h hready).limit, (h hready).roomy⟩
  | stop => exact fun hready => ⟨(h hready).few, (h hready).topics, (h hready).tracked,
      (h hready).limit, (h hready).roomy⟩

/-- In every run whose inputs leave room, a later subscriber can be served. -/
theorem snapshot_served (hsize : ∀ object, 0 < objectSize object) {inputs : List (WorkerInput B)}
    (hrun : Runs (RoomyStep objectSize generation topic) (Worker.zero B) inputs worker)
    (hready : worker.snapshotReady = true) :
    ∃ events, SnapshotEvents objectSize generation topic worker.snapshot = .ok events := by
  have hholding := hrun.invariant
    (I := fun worker => worker.snapshotReady = true → Holding objectSize generation topic worker)
    (fun h => absurd h (by simp [Worker.zero])) fun h hstep =>
      hstep.1.holding hsize hstep.2 h
  exact (hholding hready).served

end

def podAdded : StreamEvent Unit :=
  { event := .added, topic := .TopicPods, generation := "g1", resourceVersion := "2"
    object := some ⟨.PodDTO ⟨"shop", "web", ()⟩, false⟩ }

def podWorker (size : Nat) : Worker Unit :=
  ⟨⟨"2", [⟨.PodDTO ⟨"shop", "web", ()⟩, false⟩]⟩, size + 2, true, [], false⟩

def emptyWorker : Worker Unit :=
  ⟨⟨"1", []⟩, 2, true, [chunkEvent "g1" .TopicPods "1" 0 [] true], false⟩

def podChange : WatchChange Unit :=
  { type := .added, object := podAdded.object, resourceVersion := "2" }

theorem emptyWorker_install (objectSize : TopicObject Unit → Nat) :
    WorkerStep objectSize "g1" .TopicPods (Worker.zero Unit) (.install ⟨"1", []⟩) emptyWorker :=
  .install false (fun _ => true) rfl rfl

theorem snapshot_served_pod :
    (podWorker 100).snapshotReady = true ∧ (∀ _ : TopicObject Unit, 0 < 100) ∧
      ∃ events, SnapshotEvents (fun _ => 100) "g1" .TopicPods (podWorker 100).snapshot =
        .ok events := by
  have hadded : WorkerStep (fun _ => 100) "g1" .TopicPods emptyWorker (.change podAdded)
      (podWorker 100) :=
    @WorkerStep.change _ _ _ _ _ _ podChange _ .active (fun _ => true) (by decide +kernel) rfl
  have hinstall : RoomyInput (fun _ => 100) "g1" .TopicPods (Worker.zero Unit)
      (.install ⟨"1", []⟩) := fun item hitem => absurd hitem List.not_mem_nil
  have hchange : RoomyInput (fun _ => 100) "g1" .TopicPods emptyWorker (.change podAdded) := by
    unfold RoomyInput Roomy
    decide +kernel
  have hrun : Runs (RoomyStep (fun _ => 100) "g1" .TopicPods) (Worker.zero Unit)
      ([.install ⟨"1", []⟩] ++ [.change podAdded]) (podWorker 100) :=
    (Runs.single ⟨emptyWorker_install _, hinstall⟩).trans (.single ⟨hadded, hchange⟩)
  exact ⟨rfl, fun _ => by decide, snapshot_served (fun _ => by decide) hrun rfl⟩

/-- A pod that is accepted as a change, but that no subscriber can be served. -/
theorem snapshot_not_served : ∃ inputs,
    Runs (WorkerStep (fun _ => 65100) "g1" .TopicPods) (Worker.zero Unit) inputs
        (podWorker 65100) ∧
      (podWorker 65100).snapshotReady = true ∧
      SnapshotEvents (fun _ => 65100) "g1" .TopicPods (podWorker 65100).snapshot =
        .error (domainError .CodeLimitExceeded "A snapshot object exceeds the event limit.") := by
  have hadded : WorkerStep (fun _ => 65100) "g1" .TopicPods emptyWorker (.change podAdded)
      (podWorker 65100) :=
    @WorkerStep.change _ _ _ _ _ _ podChange _ .active (fun _ => true) (by decide +kernel) rfl
  exact ⟨_, (Runs.single (emptyWorker_install _)).trans (.single hadded), rfl, by decide +kernel⟩

end Kubepeep.Watch
