import Kubepeep.Lib.Effect
import Kubepeep.Stream.Ring

/-!
# Resuming a stream

A client that attaches with the ID of a retained event gets every later event exactly once: those
that are in the ring with the attach, under the same lock, and the others through its queue.
-/

open Nat List Function Kubepeep.Go.Strconv Kubepeep.Resources Kubepeep.System Kubepeep.Watch

namespace Kubepeep.Stream

section

variable {B : Type} {objectSize : TopicObject B → Nat}

/-! ## What the ring retains -/

/-- The ring holds the last events published. -/
def Retains (session : Session B) : Prop :=
  Holds session.ring session.published

variable {session : Session B}

/-! ## What a client has received -/

/-- The client has the events from index `since` on; as long as it is open, all of them. -/
structure Tracks (since : Nat) (published : List (ReplayEntry B)) (client : Client B) : Prop where
  pre : client.received <+: published.drop since
  whole : client.closed = false → client.received = published.drop since

variable {since : Nat}

variable (client : Client B)

theorem Client.received_next : client.next.received = client.received := by
  unfold next
  cases hqueue : client.queue with
  | nil => rfl
  | cons delivery rest => simp [received, hqueue]

theorem Client.closed_next : client.next.closed = client.closed := by
  unfold next
  split <;> rfl

variable (event : StreamEvent B)

theorem Client.received_lost (bytes size : Nat) :
    ({ client with
      queue := [⟨⟨"", event⟩, true, size⟩], bytes := bytes, closed := true } :
        Client B).received <+:
      client.received := by
  simp [received]

theorem Client.forceTerminal_spec :
    (client.forceTerminal objectSize event).received <+: client.received ∧
      (client.forceTerminal objectSize event).closed = true := by
  unfold forceTerminal
  split
  · next hclosed => exact ⟨prefix_refl _, hclosed⟩
  · exact ⟨client.received_lost event _ _, rfl⟩

theorem Client.pushTerminal_spec :
    (client.pushTerminal objectSize event).received <+: client.received ∧
      (client.pushTerminal objectSize event).closed = true := by
  unfold pushTerminal
  dsimp only
  split
  · next hclosed => exact ⟨prefix_refl _, hclosed⟩
  split
  · exact ⟨client.received_lost event _ _, rfl⟩
  · refine ⟨?_, rfl⟩
    simp [received]

theorem Client.pushOrReset_spec (entry : ReplayEntry B) (slow : StreamEvent B) :
    (client.push objectSize entry).2 = true ∧ client.closed = false ∧
        (client.pushOrReset objectSize entry slow).received =
          client.received ++ [entry].filter (fun entry => entry.ID != "") ∨
      (client.pushOrReset objectSize entry slow).received <+: client.received ∧
        (client.pushOrReset objectSize entry slow).closed = true := by
  unfold pushOrReset push
  dsimp only
  split
  · exact .inr (client.forceTerminal_spec slow)
  · next hroom =>
    refine .inl ⟨rfl, ?_, by simp [received, filter_append]⟩
    by_contra hclosed
    exact hroom (.inl (by simpa using hclosed))

/-- The client with this number gets the events from index `since` on. -/
structure Resumes (since id : Nat) (session : Session B) : Prop where
  known : id < session.count
  since_le : since ≤ session.published.length
  tracks : Tracks since session.published (session.client id)
  attached : (session.client id).closed = false → id ∈ session.clients

/-! ## One step -/

variable {next : Session B} {id : Nat}

theorem Resumes.pushAll {entry : ReplayEntry B}
    (h : Resumes since id session) (hcount : next.count = session.count)
    (hclient : next.client = session.client) (hclients : next.clients = session.clients)
    (hpublished : next.published =
      session.published ++ [entry].filter fun entry => entry.ID != "") :
    Resumes since id (next.pushAll objectSize entry) := by
  have hdrop : next.published.drop since =
      session.published.drop since ++ [entry].filter fun entry => entry.ID != "" := by
    rw [hpublished, drop_append_of_le_length h.since_le]
  have hpre : (session.client id).received <+: next.published.drop since := by
    rw [hdrop]
    exact h.tracks.pre.trans (prefix_append _ _)
  have hsince : since ≤ next.published.length := by
    rw [hpublished, length_append]
    exact le_add_right_of_le h.since_le
  unfold Session.pushAll
  rw [hclient, hclients]
  by_cases hmember : id ∈ session.clients
  · rcases @Client.pushOrReset_spec B objectSize (session.client id) entry
      (next.resetEvent entry.event.topic "slow_consumer") with
      ⟨haccepted, hopen, hreceived⟩ | ⟨hreceived, hclosed⟩
    · have hall : ((session.client id).pushOrReset objectSize entry
          (next.resetEvent entry.event.topic "slow_consumer")).received =
          next.published.drop since := by
        rw [hreceived, h.tracks.whole hopen, hdrop]
      refine ⟨hcount ▸ h.known, hsince, ?_, fun _ => mem_filter.mpr ⟨hmember, haccepted⟩⟩
      dsimp only
      rw [if_pos hmember]
      exact ⟨hall ▸ prefix_refl _, fun _ => hall⟩
    · -- The queue is full, or the client is leaving.
      refine ⟨hcount ▸ h.known, hsince, ?_, ?_⟩
      all_goals dsimp only; rw [if_pos hmember]
      · exact ⟨hreceived.trans hpre, fun hopen => absurd (hclosed.symm.trans hopen) (by simp)⟩
      · exact fun hopen => absurd (hclosed.symm.trans hopen) (by simp)
  · have hclosed : (session.client id).closed ≠ false := fun hopen => hmember (h.attached hopen)
    refine ⟨hcount ▸ h.known, hsince, ?_, ?_⟩
    all_goals dsimp only; rw [if_neg hmember]
    · exact ⟨hpre, fun hopen => absurd hopen hclosed⟩
    · exact fun hopen => absurd hopen hclosed

theorem published_append (published : List (ReplayEntry B)) (id : String) (event : StreamEvent B) :
    (if id = "" then published else published ++ [⟨id, event⟩]) =
      published ++ [(⟨id, event⟩ : ReplayEntry B)].filter fun entry => entry.ID != "" := by
  by_cases hid : id = "" <;> simp [hid]

section

variable (h : Resumes since id session)

include h

theorem Resumes.publishLocked : Resumes since id (session.publishLocked objectSize event).1 := by
  unfold Session.publishLocked
  split
  · exact h
  split
  · exact h
  · exact h.pushAll rfl rfl rfl (published_append _ _ _)

theorem Resumes.publishTransient :
    Resumes since id (session.publishTransient objectSize event).1 := by
  unfold Session.publishTransient
  split
  · exact h
  · exact h.pushAll rfl rfl rfl (by simp)

theorem Resumes.publishTerminal :
    Resumes since id (session.publishTerminal objectSize event) := by
  unfold Session.publishTerminal
  dsimp only
  split
  · exact h
  · refine ⟨h.known, h.since_le, ?_, fun hopen => ?_⟩
    · dsimp only
      split
      · refine ⟨(Client.pushTerminal_spec _ _).1.trans h.tracks.pre, fun hopen => ?_⟩
        exact absurd ((Client.pushTerminal_spec _ _).2.symm.trans hopen) (by simp)
      · exact h.tracks
    · dsimp only at hopen ⊢
      split at hopen
      · next hmember => exact hmember
      · exact h.attached hopen

theorem Resumes.update {other : Nat} {client : Client B}
    (hreceived : client.received = (session.client other).received)
    (hclosed : client.closed = false → (session.client other).closed = false) :
    Resumes since id { session with client := update session.client other client } := by
  by_cases hsame : id = other
  · subst hsame
    refine ⟨h.known, h.since_le, ⟨?_, ?_⟩, ?_⟩
    all_goals dsimp only; rw [update_self]
    · rw [hreceived]
      exact h.tracks.pre
    · rw [hreceived]
      exact fun hopen => h.tracks.whole (hclosed hopen)
    · exact fun hopen => h.attached (hclosed hopen)
  · refine ⟨h.known, h.since_le, ?_, ?_⟩
    all_goals dsimp only; rw [update_of_ne hsame]
    · exact h.tracks
    · exact h.attached

end

theorem Session.attach_ok {lastID expectedBinding : String} {replay : List (ReplayEntry B)}
    (h : session.attach objectSize lastID expectedBinding = .ok (next, replay)) :
    ∃ client : Client B, client.received = [] ∧
      next = { session with
        client := update session.client session.count client
        count := session.count + 1
        clients := session.clients ++ [session.count] } := by
  unfold attach at h
  split at h
  · cases h
  split at h
  · cases h
  obtain ⟨rfl, -⟩ := Prod.mk.inj (Except.ok.inj h)
  refine ⟨_, ?_, rfl⟩
  split
  · rfl
  · next event _ =>
    exact prefix_nil.mp
      (@Client.forceTerminal_spec B objectSize (newResourceReplayClient B) event).1

variable {action : SessionAction B}

theorem SessionStep.resumes
    (h : Resumes since id session) (hstep : SessionStep objectSize session action next) :
    Resumes since id next := by
  cases hstep with
  | publish _ _ => exact h.publishLocked _
  | publishTransient => exact h.publishTransient _
  | publishTerminal => exact h.publishTerminal _
  | attach hattach =>
    obtain ⟨client, -, rfl⟩ := Session.attach_ok hattach
    have hother : id ≠ session.count := Nat.ne_of_lt h.known
    refine ⟨Nat.lt_succ_of_lt h.known, h.since_le, ?_, ?_⟩
    all_goals dsimp only; rw [update_of_ne hother]
    · exact h.tracks
    · exact fun hopen => mem_append_left _ (h.attached hopen)
  | close => exact h.update rfl (by simp [Client.close])
  | @remove other hclosed =>
    refine ⟨h.known, h.since_le, h.tracks, fun hopen => ?_⟩
    have hother : id ≠ other := by
      rintro rfl
      exact absurd (hclosed.symm.trans hopen) (by simp)
    exact (mem_erase_of_ne hother).mpr (h.attached hopen)
  | expire =>
    unfold Session.expire
    split
    · exact h
    · exact ⟨h.known, h.since_le, h.tracks, h.attached⟩
  | next =>
    refine h.update (Client.received_next _) fun hopen => ?_
    rwa [Client.closed_next] at hopen

theorem Retains.congr (h : Retains session)
    (hring : next.ring = session.ring) (hpublished : next.published = session.published) :
    Retains next := by
  unfold Retains at h ⊢
  rwa [hring, hpublished]

theorem Retains.publishLocked (h : Retains session) (event : StreamEvent B) :
    Retains (session.publishLocked objectSize event).1 := by
  unfold Session.publishLocked
  split
  · exact h
  split
  · exact h
  next ring id happend =>
  by_cases hid : id = ""
  · obtain ⟨rfl, rfl⟩ | ⟨rfl, -⟩ := Append_ok happend
    · exact h.congr rfl rfl
    · exact absurd hid (eventID_ne_empty _ _)
  · obtain ⟨-, -, -, hnext⟩ := Holds.append h happend hid
    simpa [Retains, Session.pushAll, hid] using hnext

theorem SessionStep.retains
    (h : Retains session) (hstep : SessionStep objectSize session action next) : Retains next := by
  cases hstep with
  | publish _ _ => exact h.publishLocked _
  | publishTransient =>
    unfold Session.publishTransient
    split <;> exact h.congr rfl rfl
  | publishTerminal =>
    unfold Session.publishTerminal
    dsimp only
    split <;> exact h.congr rfl rfl
  | attach hattach =>
    obtain ⟨client, -, rfl⟩ := Session.attach_ok hattach
    exact h.congr rfl rfl
  | close => exact h.congr rfl rfl
  | remove _ => exact h.congr rfl rfl
  | expire =>
    unfold Session.expire
    split <;> exact h.congr rfl rfl
  | next => exact h.congr rfl rfl

theorem SessionStart.retains (h : SessionStart session) : Retains session := by
  obtain ⟨hsequence, hevents, -⟩ := h.ring
  refine ⟨h.epoch, ?_, ?_, ?_, ?_⟩
  · rw [hsequence, h.published]
    rfl
  · rw [h.published]
    rfl
  · rw [hevents, h.published]
    exact suffix_refl []
  · rw [hevents]
    exact zero_le _

/-! ## Attaching -/

theorem SessionStep.published_grows (hstep : SessionStep objectSize session action next) :
    session.published <+: next.published := by
  cases hstep with
  | publish _ _ =>
    unfold Session.publishLocked
    split
    · exact prefix_refl _
    split
    · exact prefix_refl _
    · simp only [Session.pushAll, published_append]
      exact prefix_append _ _
  | publishTransient =>
    unfold Session.publishTransient
    split <;> exact prefix_refl _
  | publishTerminal =>
    unfold Session.publishTerminal
    dsimp only
    split <;> exact prefix_refl _
  | attach hattach =>
    obtain ⟨client, -, rfl⟩ := Session.attach_ok hattach
    exact prefix_refl _
  | close => exact prefix_refl _
  | remove _ => exact prefix_refl _
  | expire =>
    unfold Session.expire
    split <;> exact prefix_refl _
  | next => exact prefix_refl _

/-- In every run, for every retained ID: what `attach` replays and what the client then gets with an
ID are the events published after that one, in order, all of them while the client is open and a
prefix of them once it is closed. -/
theorem attach_resumes {start session : Session B} {actions : List (SessionAction B)}
    (hstart : SessionStart start) (hrun : Runs (SessionStep objectSize) start actions session)
    {lastID : String} (hlive : session.expired = false)
    (hretained : ∃ item ∈ session.ring.events, item.id = lastID) :
    ∃ attached replay before entry,
      session.attach objectSize lastID session.ring.binding = .ok (attached, replay) ∧
      session.published = before ++ entry :: replay ∧ entry.ID = lastID ∧
      (∀ later ∈ replay, later.ID ≠ lastID) ∧
      ∀ (later : List (SessionAction B)) (final : Session B),
        Runs (SessionStep objectSize) attached later final →
        replay ++ (final.client session.count).received <+:
            final.published.drop (before.length + 1) ∧
          ((final.client session.count).closed = false →
            replay ++ (final.client session.count).received =
              final.published.drop (before.length + 1)) := by
  have hretains : Retains session :=
    hrun.invariant hstart.retains fun h hstep => hstep.retains h
  obtain ⟨before, entry, replay, hpublished, hid, hfresh, hreplay⟩ :=
    Holds.replays hretains hretained
  have hnonempty : lastID ≠ "" := by
    obtain ⟨item, hitem, rfl⟩ := hretained
    obtain ⟨n, -, hn⟩ := Holds.exists_sequence hretains hitem
    rw [hn]
    exact eventID_ne_empty _ _
  have hattach : ∃ attached, session.attach objectSize lastID session.ring.binding =
      .ok (attached, replay) := by
    unfold Session.attach
    rw [if_neg (by simp [hlive]), if_neg hnonempty, hreplay]
    exact ⟨_, rfl⟩
  obtain ⟨attached, hattach⟩ := hattach
  refine ⟨attached, _, _, entry, hattach, hpublished, hid, hfresh, fun later final hlater => ?_⟩
  -- From here on the client follows what is published after the attach.
  have hresumes : Resumes session.published.length session.count attached := by
    obtain ⟨client, hnone, rfl⟩ := Session.attach_ok hattach
    refine ⟨Nat.lt_succ_self _, Nat.le_refl _, ⟨?_, ?_⟩, fun _ => by simp⟩
    all_goals dsimp only; rw [Function.update_self, hnone]
    · exact List.nil_prefix
    · simp
  have hfinal := hlater.invariant hresumes fun h hstep => hstep.resumes h
  have hmore : session.published <+: final.published := by
    have hsame : attached.published = session.published := by
      obtain ⟨client, -, rfl⟩ := Session.attach_ok hattach
      rfl
    refine hlater.invariant (I := fun t => session.published <+: t.published)
      (hsame ▸ List.prefix_refl _) fun h hstep => h.trans hstep.published_grows
  have hdrop : final.published.drop (before.length + 1) =
      replay ++ final.published.drop session.published.length := by
    obtain ⟨more, hmore⟩ := hmore
    rw [← hmore, List.drop_left, hpublished, List.append_assoc, List.drop_append]
    simp
  rw [hdrop]
  refine ⟨?_, fun hopen => ?_⟩
  · exact (List.prefix_append_right_inj _).mpr hfinal.tracks.pre
  · rw [hfinal.tracks.whole hopen]

end

def emptySession : Session Unit :=
  { generation := "g1"
    ring := ⟨"AAAAAAAAAAAAAAAAAAAAAA", "binding", 0, [], 0⟩
    terminal := none
    expired := false
    client := fun _ => newResourceReplayClient Unit
    count := 0
    clients := []
    published := [] }

theorem emptySession_start : SessionStart emptySession :=
  ⟨⟨by decide, all_eq_true.mp (by decide)⟩, ⟨rfl, rfl, rfl⟩, ⟨rfl, rfl⟩, ⟨rfl, rfl⟩, rfl⟩

def podEvent (type : EventType) : StreamEvent Unit :=
  { event := type, topic := .TopicPods, generation := "g1"
    object := some ⟨.PodDTO ⟨"shop", "web", ()⟩, false⟩ }

def busySession : Session Unit :=
  let chunk : StreamEvent Unit :=
    { event := .snapshot, topic := .TopicPods, generation := "g1", final := true }
  ((emptySession.publishLocked (fun _ => 100) chunk).1.publishLocked (fun _ => 100)
    (podEvent .added)).1

def resumedSession : Session Unit :=
  match busySession.attach (fun _ => 100) "kpse1.AAAAAAAAAAAAAAAAAAAAAA.1" "binding" with
  | .ok (attached, _) => (attached.publishLocked (fun _ => 100) (podEvent .modified)).1
  | .error _ => busySession

/-- The addition comes with the attach, and the change that follows through the queue. -/
theorem attach_resumes_after_chunk :
    ∃ attached replay before entry,
      busySession.attach (fun _ => 100) "kpse1.AAAAAAAAAAAAAAAAAAAAAA.1" "binding" =
        .ok (attached, replay) ∧
      busySession.published = before ++ entry :: replay ∧
      (resumedSession.client 0).next.received.length = 1 ∧
      replay ++ (resumedSession.client 0).next.received =
        resumedSession.published.drop (before.length + 1) := by
  have hrun : Runs (SessionStep fun _ => 100) emptySession [.publish _, .publish _] busySession :=
    .snoc (.snoc (.nil _) (.publish (by decide) (by decide))) (.publish (by decide) (by decide))
  have hretained : ∃ item ∈ busySession.ring.events,
      item.id = "kpse1.AAAAAAAAAAAAAAAAAAAAAA.1" := by
    decide +kernel
  obtain ⟨attached, replay, before, entry, hattach, hpublished, -, -, hlater⟩ :=
    attach_resumes emptySession_start hrun rfl hretained
  have hresumed : (attached.publishLocked (fun _ => 100) (podEvent .modified)).1 =
      resumedSession := by
    have hattach' : busySession.attach (fun _ => 100) "kpse1.AAAAAAAAAAAAAAAAAAAAAA.1" "binding" =
      .ok (attached, replay) := hattach
    rw [resumedSession, hattach']
  have hfinal := (hlater [.publish (podEvent .modified), .next 0] _
    (.snoc (.snoc (.nil _) (.publish (by decide) (by decide))) .next)).2
  rw [hresumed] at hfinal
  exact ⟨attached, replay, before, entry, hattach, hpublished, by decide +kernel,
    hfinal (by decide +kernel)⟩

end Kubepeep.Stream
