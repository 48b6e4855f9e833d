import Kubepeep.Stream.Session

/-!
# What a replay ring retains

The ring keeps the last events that were appended, as many as its two limits allow.  Their IDs are
numbered in order, so that the entries after a retained ID are what was appended after it; any other
ID is refused.
-/

open Except Nat List Kubepeep.Go.Strconv Kubepeep.Resources Kubepeep.Watch

namespace Kubepeep.Stream

section

variable {B : Type} {objectSize : TopicObject B → Nat}

/-! ## Eviction -/

variable (events : List (RingEvent B))

theorem evict_suffix :
    ∀ bytes, (ReplayRing.evict events bytes).1 <:+ events := by
  induction events with
  | nil => exact fun _ => suffix_refl []
  | cons first rest ih =>
    intro bytes
    unfold ReplayRing.evict
    split
    · exact (ih _).trans (suffix_cons first rest)
    · exact suffix_refl _

theorem evict_length :
    ∀ bytes, (ReplayRing.evict events bytes).1.length ≤ MaximumStreamQueueEvents := by
  induction events with
  | nil => exact fun _ => Nat.zero_le _
  | cons first rest ih =>
    intro bytes
    unfold ReplayRing.evict
    split
    · exact ih _
    · next h => exact Nat.le_of_not_lt fun hlong => h (.inl hlong)

def retainedBytes (events : List (RingEvent B)) : Int :=
  (events.map fun item => (item.bytes : Int)).sum

theorem evict_bytes :
    ∀ bytes, bytes = retainedBytes events →
      (ReplayRing.evict events bytes).2 = retainedBytes (ReplayRing.evict events bytes).1 ∧
        (ReplayRing.evict events bytes).2 ≤ MaximumStreamQueueBytes := by
  induction events with
  | nil =>
    rintro bytes rfl
    exact ⟨rfl, Int.natCast_nonneg _⟩
  | cons first rest ih =>
    rintro bytes rfl
    unfold ReplayRing.evict
    split
    · exact ih _ (by simp [retainedBytes])
    · next h => exact ⟨rfl, Int.not_lt.mp fun hlarge => h (.inr hlarge)⟩

/-! ## Event IDs -/

def publishedID (epoch : String) (index : Nat) : String :=
  eventID epoch ((index + 1) % 2 ^ 64)

variable {epoch : String}

theorem eventID_injective {m n : Nat} (h : eventID epoch m = eventID epoch n) :
    m = n :=
  FormatUint_injective (String.append_right_inj _ |>.mp h)

theorem eventID_ne_empty (epoch : String) (n : Nat) : eventID epoch n ≠ "" := by
  unfold eventID
  simp [String.append_eq_empty_iff]

variable {lastID : String} {events : List (RingEvent B)}

theorem entriesAfter_of_mem (h : ∃ item ∈ events, item.id = lastID) : ∃ before item rest,
      events = before ++ item :: rest ∧ item.id = lastID ∧
        ReplayRing.entriesAfter lastID events = some (rest.map RingEvent.entry) := by
  induction events with
  | nil => exact absurd h (by simp)
  | cons first later ih =>
    unfold ReplayRing.entriesAfter
    by_cases hfirst : first.id = lastID
    · exact ⟨[], first, later, rfl, hfirst, if_pos hfirst⟩
    · have hlater : ∃ item ∈ later, item.id = lastID := by simpa [hfirst] using h
      obtain ⟨before, item, rest, rfl, hitem, hrest⟩ := ih hlater
      exact ⟨first :: before, item, rest, rfl, hitem, by rw [if_neg hfirst, hrest]⟩

theorem Epoch.decodedLength {text : String} (h : Epoch text) :
    rawURLDecodedLength text.toList = some 16 := by
  have hfilter : text.toList.filter (fun c => c ≠ '\r' ∧ c ≠ '\n') = text.toList := by
    refine filter_eq_self.mpr fun c hc => ?_
    have hletter := h.letters c hc
    by_contra hline
    have hcases : c = '\r' ∨ c = '\n' := by simpa [or_iff_not_imp_left] using hline
    rcases hcases with rfl | rfl <;> exact absurd hletter (by decide)
  unfold rawURLDecodedLength
  dsimp only
  rw [hfilter, h.length, all_eq_true.mpr h.letters]
  rfl

theorem eventID_split (h : Epoch epoch) (n : Nat) :
    (eventID epoch n).toList.splitOn '.' =
      ["kpse1".toList, epoch.toList, (FormatUint n).toList] := by
  have hjoin : (eventID epoch n).toList =
      ['.'].intercalate ["kpse1".toList, epoch.toList, (FormatUint n).toList] := by
    simp [eventID, intercalate]
  rw [hjoin]
  refine splitOn_intercalate '.' ?_ (by simp)
  intro part hpart
  simp only [mem_cons, not_mem_nil, or_false] at hpart
  rcases hpart with rfl | rfl | rfl
  · decide
  · exact fun hdot => absurd (h.letters '.' hdot) (by decide)
  · exact dot_not_mem_FormatUint n

/-! ## Appending -/

variable {event : StreamEvent B} {id : String}

theorem Append_ok {ring next : ReplayRing B} (h : ring.Append objectSize event = .ok (next, id)) :
    next = ring ∧ id = "" ∨
      id = eventID ring.epoch ((ring.sequence + 1) % 2 ^ 64) ∧ next.epoch = ring.epoch ∧
        next.binding = ring.binding ∧ next.sequence = (ring.sequence + 1) % 2 ^ 64 ∧
        next.events.map RingEvent.entry <:+ ring.events.map RingEvent.entry ++ [⟨id, event⟩] ∧
        next.events.length ≤ MaximumStreamQueueEvents := by
  unfold ReplayRing.Append at h
  split at h
  · obtain ⟨rfl, rfl⟩ := Prod.mk.inj (ok.inj h)
    exact .inl ⟨rfl, rfl⟩
  split at h
  · cases h
  obtain ⟨rfl, rfl⟩ := Prod.mk.inj (ok.inj h)
  refine .inr ⟨rfl, rfl, rfl, rfl, ?_, evict_length _ _⟩
  have hsuffix := (evict_suffix (ring.events ++ [⟨eventID ring.epoch
    ((ring.sequence + 1) % 2 ^ 64), event, event.wireBytes objectSize⟩])
    (ring.bytes + (event.wireBytes objectSize : Nat))).map RingEvent.entry
  rw [map_append] at hsuffix
  exact hsuffix


/-- The ring holds the last entries of a log, at most `MaximumStreamQueueEvents` of them. -/
structure Holds (ring : ReplayRing B) (log : List (ReplayEntry B)) : Prop where
  epoch : Epoch ring.epoch
  sequence : ring.sequence = log.length % 2 ^ 64
  ids : log.map ReplayEntry.ID = (range log.length).map (publishedID ring.epoch)
  suffix : ring.events.map RingEvent.entry <:+ log
  few : ring.events.length ≤ MaximumStreamQueueEvents

variable {ring next : ReplayRing B} {log : List (ReplayEntry B)}

section

variable (h : Holds ring log)

include h

theorem Holds.append (happend : ring.Append objectSize event = .ok (next, id)) (hid : id ≠ "") :
    id = publishedID ring.epoch log.length ∧ next.epoch = ring.epoch ∧
      next.binding = ring.binding ∧ Holds next (log ++ [⟨id, event⟩]) := by
  rcases Append_ok happend with
    ⟨-, hempty⟩ | ⟨rfl, hepoch, hbinding, hsequence, hsuffix, hfew⟩
  · exact absurd hempty hid
  have hmod : (ring.sequence + 1) % 2 ^ 64 = (log.length + 1) % 2 ^ 64 := by
    rw [h.sequence]
    omega
  refine ⟨by rw [hmod]; rfl, hepoch, hbinding, hepoch.symm ▸ h.epoch, ?_, ?_, ?_, hfew⟩
  · rw [hsequence, hmod, length_append, length_singleton]
  · rw [map_append, h.ids, hepoch, hmod, length_append, length_singleton,
      range_succ, map_append]
    rfl
  · obtain ⟨before, hbefore⟩ := h.suffix
    exact hsuffix.trans ⟨before, by rw [← append_assoc, hbefore]⟩

theorem Holds.retainedIDs :
    ring.events.map RingEvent.id =
      ((range log.length).drop (log.length - ring.events.length)).map
        (publishedID ring.epoch) := by
  obtain ⟨before, hbefore⟩ := h.suffix
  have hlength : log.length - ring.events.length = before.length := by
    rw [← hbefore, length_append, length_map]
    omega
  rw [hlength, map_drop, ← h.ids, ← hbefore, map_append, drop_left' (by simp),
    map_map]
  rfl

/-- The IDs in the ring are distinct: it is shorter than the sequence needs to wrap around. -/
theorem Holds.nodup : (ring.events.map RingEvent.id).Nodup := by
  have hfew : ring.events.length ≤ 1000 := h.few
  rw [h.retainedIDs]
  refine Nodup.map_on ?_ (nodup_range.sublist (drop_sublist _ _))
  intro i hi j hj hsame
  rw [range_eq_range', drop_range', mem_range'_1] at hi hj
  have hmod := eventID_injective hsame
  omega

theorem Holds.exists_sequence {item : RingEvent B}
    (hitem : item ∈ ring.events) : ∃ n < 2 ^ 64, item.id = eventID ring.epoch n := by
  have hmem : item.id ∈ log.map ReplayEntry.ID :=
    mem_map.mpr ⟨item.entry, h.suffix.subset (mem_map_of_mem hitem), rfl⟩
  rw [h.ids] at hmem
  obtain ⟨index, -, hindex⟩ := mem_map.mp hmem
  exact ⟨_, mod_lt _ (by decide), hindex.symm⟩

theorem Holds.replayEntries (hretained : ∃ item ∈ ring.events, item.id = lastID) :
    ∃ before item rest, ring.events = before ++ item :: rest ∧ item.id = lastID ∧
      ring.ReplayEntries lastID ring.binding = .ok (rest.map RingEvent.entry) := by
  obtain ⟨before, item, rest, hevents, hid, hafter⟩ := entriesAfter_of_mem hretained
  have hitem : item ∈ ring.events := by simp [hevents]
  obtain ⟨n, hn, hsequence⟩ := h.exists_sequence hitem
  refine ⟨before, item, rest, hevents, hid, ?_⟩
  unfold ReplayRing.ReplayEntries
  rw [hafter, ← hid, hsequence, eventID_split h.epoch]
  simp [h.epoch.decodedLength, ParseUint_FormatUint hn]

theorem Holds.replays (hretained : ∃ item ∈ ring.events, item.id = lastID) :
    ∃ before entry replay, log = before ++ entry :: replay ∧ entry.ID = lastID ∧
      (∀ later ∈ replay, later.ID ≠ lastID) ∧
      ring.ReplayEntries lastID ring.binding = .ok replay := by
  obtain ⟨older, item, rest, hevents, hid, hreplay⟩ := h.replayEntries hretained
  -- The ring is the end of the log, so the split of the ring is one of that.
  obtain ⟨evicted, hsuffix⟩ := h.suffix
  refine ⟨evicted ++ older.map RingEvent.entry, item.entry, rest.map RingEvent.entry, ?_, hid, ?_,
    hreplay⟩
  · rw [← hsuffix, hevents]
    simp
  · have hnodup := h.nodup
    rw [hevents, map_append, map_cons] at hnodup
    have hitem := (nodup_cons.mp hnodup.of_append_right).1
    intro later hlater hsame
    obtain ⟨other, hother, rfl⟩ := mem_map.mp hlater
    exact hitem (mem_map.mpr ⟨other, hother, hsame.trans hid.symm⟩)

end

/-! ## Refused IDs -/

theorem entriesAfter_of_forall_ne
    (h : ∀ item ∈ events, item.id ≠ lastID) : ReplayRing.entriesAfter lastID events = none := by
  induction events with
  | nil => rfl
  | cons first rest ih =>
    obtain ⟨hfirst, hrest⟩ := forall_mem_cons.mp h
    rw [ReplayRing.entriesAfter, if_neg hfirst, ih hrest]

variable {binding : String}

theorem ReplayEntries_ok {replay : List (ReplayEntry B)}
    (h : ring.ReplayEntries lastID binding = .ok replay) :
    binding = ring.binding ∧ (∃ item ∈ ring.events, item.id = lastID) ∧
      ∃ scheme sequence, lastID.toList.splitOn '.' = [scheme, ring.epoch.toList, sequence] := by
  unfold ReplayRing.ReplayEntries at h
  split at h
  · next scheme epoch sequence hsplit =>
    split at h
    · cases h
    split at h
    · cases h
    split at h
    · cases h
    split at h
    · cases h
    next hepoch =>
    split at h
    · cases h
    next hbinding =>
    refine ⟨not_not.mp hbinding, ?_, scheme, sequence, ?_⟩
    · by_contra hnone
      rw [entriesAfter_of_forall_ne fun item hitem hid => hnone ⟨item, hitem, hid⟩] at h
      cases h
    · rw [← not_not.mp hepoch, String.toList_ofList]
      exact hsplit
  · cases h

theorem ReplayEntries_refused (h : ¬∃ replay, ring.ReplayEntries lastID binding = .ok replay) :
    ∃ err, ring.ReplayEntries lastID binding = .error err := by
  cases hreplay : ring.ReplayEntries lastID binding with
  | ok replay => exact absurd ⟨replay, hreplay⟩ h
  | error err => exact ⟨err, rfl⟩

/-! ## Every sequence of appends -/

structure Weighed (objectSize : TopicObject B → Nat) (ring : ReplayRing B) : Prop where
  bytes : ring.bytes = retainedBytes ring.events
  limit : ring.bytes ≤ MaximumStreamQueueBytes
  sizes : ∀ item ∈ ring.events, item.bytes = item.event.wireBytes objectSize

theorem Weighed.append (h : Weighed objectSize ring)
    (happend : ring.Append objectSize event = .ok (next, id)) : Weighed objectSize next := by
  unfold ReplayRing.Append at happend
  split at happend
  · obtain ⟨rfl, -⟩ := Prod.mk.inj (ok.inj happend)
    exact h
  split at happend
  · cases happend
  obtain ⟨rfl, -⟩ := Prod.mk.inj (ok.inj happend)
  have hcounted : ring.bytes + (event.wireBytes objectSize : Nat) =
      retainedBytes (ring.events ++ [⟨eventID ring.epoch ((ring.sequence + 1) % 2 ^ 64), event,
        event.wireBytes objectSize⟩]) := by
    rw [h.bytes]
    simp [retainedBytes]
  obtain ⟨hbytes, hlimit⟩ := evict_bytes _ _ hcounted
  refine ⟨hbytes, hlimit, fun item hitem => ?_⟩
  rcases mem_append.mp ((evict_suffix _ _).subset hitem) with hold | hnew
  · exact h.sizes item hold
  · rw [mem_singleton.mp hnew]

def NewReplayRing (epoch binding : String) : ReplayRing B := ⟨epoch, binding, 0, [], 0⟩

def ReplayRing.appended (objectSize : TopicObject B → Nat) (ring : ReplayRing B)
    (event : StreamEvent B) : ReplayRing B :=
  match ring.Append objectSize event with
  | .ok (next, _) => next
  | .error _ => ring

def Accepted (objectSize : TopicObject B → Nat) (event : StreamEvent B) : Prop :=
  ¬(event.event = .heartbeat ∨ event.event = .reset ∨ event.event = .error) ∧
    event.wireBytes objectSize ≤ MaximumStreamEventBytes

instance (event : StreamEvent B) : Decidable (Accepted objectSize event) :=
  inferInstanceAs (Decidable (_ ∧ _))

def appendedLog (objectSize : TopicObject B → Nat) (epoch : String)
    (events : List (StreamEvent B)) : List (ReplayEntry B) :=
  (events.filter (Accepted objectSize ·)).mapIdx fun index event =>
    ⟨publishedID epoch index, event⟩

theorem Append_of_accepted (ring : ReplayRing B) (h : Accepted objectSize event) :
    ∃ next id, ring.Append objectSize event = .ok (next, id) ∧ id ≠ "" := by
  rw [ReplayRing.Append, if_neg h.1, if_neg (not_lt.mpr h.2)]
  exact ⟨_, _, rfl, eventID_ne_empty _ _⟩

theorem appended_of_not_accepted (h : ¬Accepted objectSize event) :
    ring.appended objectSize event = ring := by
  unfold ReplayRing.appended ReplayRing.Append
  by_cases hcontrol : event.event = .heartbeat ∨ event.event = .reset ∨ event.event = .error
  · rw [if_pos hcontrol]
  · rw [if_neg hcontrol, if_pos (not_le.mp fun hle => h ⟨hcontrol, hle⟩)]

theorem appendedLog_concat (epoch : String) (events : List (StreamEvent B))
    (event : StreamEvent B) :
    appendedLog objectSize epoch (events ++ [event]) =
      if Accepted objectSize event then
        appendedLog objectSize epoch events ++
          [⟨publishedID epoch (appendedLog objectSize epoch events).length, event⟩]
      else appendedLog objectSize epoch events := by
  unfold appendedLog
  rw [filter_append]
  split_ifs with h
  · rw [filter_singleton, decide_eq_true h]
    simp
  · rw [filter_singleton, decide_eq_false h]
    simp

theorem appended_holds (objectSize : TopicObject B → Nat) (binding : String)
    (hepoch : Epoch epoch) (events : List (StreamEvent B)) :
    let ring := events.foldl (ReplayRing.appended objectSize) (NewReplayRing epoch binding)
    ring.epoch = epoch ∧ ring.binding = binding ∧ Weighed objectSize ring ∧
      Holds ring (appendedLog objectSize epoch events) := by
  induction events using reverseRecOn with
  | nil =>
    refine ⟨rfl, rfl, ⟨rfl, Int.natCast_nonneg _, by simp [NewReplayRing]⟩,
      hepoch, rfl, rfl, suffix_refl _, zero_le _⟩
  | append_singleton events event ih =>
    rw [foldl_append, foldl_cons, foldl_nil, appendedLog_concat]
    generalize events.foldl (ReplayRing.appended objectSize) (NewReplayRing epoch binding) = ring
      at ih ⊢
    obtain ⟨rfl, hbinding, hweighed, hholds⟩ := ih
    split_ifs with haccepted
    · obtain ⟨next, id, happend, hid⟩ := Append_of_accepted ring haccepted
      obtain ⟨rfl, hepoch', hbinding', hnext⟩ := hholds.append happend hid
      rw [ReplayRing.appended, happend]
      exact ⟨hepoch', hbinding'.trans hbinding, hweighed.append happend, hnext⟩
    · rw [appended_of_not_accepted haccepted]
      exact ⟨rfl, hbinding, hweighed, hholds⟩

structure Replays (objectSize : TopicObject B → Nat) (ring : ReplayRing B)
    (log : List (ReplayEntry B)) : Prop where
  /-- A retained ID gives what was appended after it. -/
  retained : ∀ lastID, (∃ item ∈ ring.events, item.id = lastID) →
    ∃ before entry replay, log = before ++ entry :: replay ∧ entry.ID = lastID ∧
      (∀ later ∈ replay, later.ID ≠ lastID) ∧
      ring.ReplayEntries lastID ring.binding = .ok replay
  /-- The IDs of this ring that are retained are those of the last events; all others are evicted
  or future ones. -/
  numbers : ∀ n, (∃ item ∈ ring.events, item.id = eventID ring.epoch n) ↔
    ∃ index, log.length - ring.events.length ≤ index ∧ index < log.length ∧
      n = (index + 1) % 2 ^ 64
  refused : ∀ lastID binding,
    (∀ item ∈ ring.events, item.id ≠ lastID) ∨ binding ≠ ring.binding →
      ∃ err, ring.ReplayEntries lastID binding = .error err
  foreign : ∀ epoch n binding, Epoch epoch → epoch ≠ ring.epoch →
    ∃ err, ring.ReplayEntries (eventID epoch n) binding = .error err
  bytes : ring.bytes =
    (ring.events.map fun item => (item.event.wireBytes objectSize : Int)).sum
  limits : ring.bytes ≤ MaximumStreamQueueBytes ∧ ring.events.length ≤ MaximumStreamQueueEvents

theorem Holds.numbers (h : Holds ring log) (n : Nat) :
    (∃ item ∈ ring.events, item.id = eventID ring.epoch n) ↔
      ∃ index, log.length - ring.events.length ≤ index ∧ index < log.length ∧
        n = (index + 1) % 2 ^ 64 := by
  have hmem : (∃ item ∈ ring.events, item.id = eventID ring.epoch n) ↔
      eventID ring.epoch n ∈ ring.events.map RingEvent.id := mem_map.symm
  rw [hmem, h.retainedIDs, mem_map]
  constructor
  · rintro ⟨index, hindex, hid⟩
    rw [range_eq_range', drop_range', mem_range'_1] at hindex
    exact ⟨index, by omega, by omega, (eventID_injective hid).symm⟩
  · rintro ⟨index, hlow, hhigh, rfl⟩
    refine ⟨index, ?_, rfl⟩
    rw [range_eq_range', drop_range', mem_range'_1]
    omega

/-- A ring replays what was appended, after every sequence of appends. -/
theorem ring_replays {epoch binding : String} (hepoch : Epoch epoch)
    (events : List (StreamEvent B)) :
    Replays objectSize
      (events.foldl (ReplayRing.appended objectSize) (NewReplayRing epoch binding))
      (appendedLog objectSize epoch events) := by
  obtain ⟨-, -, hweighed, hholds⟩ := appended_holds objectSize binding hepoch events
  refine ⟨fun lastID => hholds.replays, hholds.numbers, ?_, ?_, ?_, hweighed.limit, hholds.few⟩
  · intro lastID binding hrefused
    apply ReplayEntries_refused
    rintro ⟨replay, hreplay⟩
    obtain ⟨hbinding, ⟨item, hitem, hid⟩, -⟩ := ReplayEntries_ok hreplay
    rcases hrefused with hnone | hother
    · exact hnone item hitem hid
    · exact hother hbinding
  · intro other n binding hother hne
    apply ReplayEntries_refused
    rintro ⟨replay, hreplay⟩
    obtain ⟨-, -, scheme, sequence, hsplit⟩ := ReplayEntries_ok hreplay
    rw [eventID_split hother] at hsplit
    exact hne (String.toList_inj.mp (List.cons.inj (List.cons.inj hsplit).2).1)
  · rw [hweighed.bytes, retainedBytes]
    exact congrArg List.sum (List.map_congr_left fun item hitem => by
      rw [hweighed.sizes item hitem])

end

def ringEvents : List (StreamEvent Unit) :=
  [{ event := .snapshot, topic := .TopicPods, generation := "g1", final := true },
    { event := .heartbeat, topic := .TopicPods, generation := "g1" },
    { event := .added, topic := .TopicPods, generation := "g1"
      object := some ⟨.PodDTO ⟨"shop", "web", ()⟩, false⟩ }]

theorem ring_replays_two : Epoch "AAAAAAAAAAAAAAAAAAAAAA" ∧
    Replays (fun _ => 100)
      (ringEvents.foldl (ReplayRing.appended fun _ => 100)
        (NewReplayRing "AAAAAAAAAAAAAAAAAAAAAA" "binding"))
      (appendedLog (fun _ => 100) "AAAAAAAAAAAAAAAAAAAAAA" ringEvents) := by
  have hepoch : Epoch "AAAAAAAAAAAAAAAAAAAAAA" :=
    ⟨by decide, List.all_eq_true.mp (by decide)⟩
  exact ⟨hepoch, ring_replays hepoch ringEvents⟩

end Kubepeep.Stream
