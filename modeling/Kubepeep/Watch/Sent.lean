import Kubepeep.Watch.Join

/-!
# The snapshots that a subscriber is sent

Only an install adds chunks to what a subscriber has been sent or is still to be sent, and
`Subscribe` starts with those of the worker's snapshot and whatever is still to be broadcast.
-/

open List Function Kubepeep.System

namespace Kubepeep.Watch

variable {B : Type} {objectSize : TopicObject B → Nat} {generation : String} {topic : Topic}

theorem chunksOf_append (first second : List (StreamEvent B)) :
    chunksOf (first ++ second) = chunksOf first ++ chunksOf second :=
  filter_append ..

variable {events : List (StreamEvent B)}

theorem chunksOf_eq_nil (h : ∀ event ∈ events, event.event ≠ .snapshot) : chunksOf events = [] :=
  filter_eq_nil_iff.mpr fun event hevent => by simpa using h event hevent

/-- No chunk comes after a final one. -/
def Once (chunks : List (StreamEvent B)) : Prop :=
  ∀ before last after, chunks = before ++ last :: after → last.final = true → after = []

theorem Chunked.once {resourceVersion : String} {count : Nat} {items : List (TopicObject B)}
    (h : Chunked generation topic resourceVersion count items events) : Once events := by
  induction h with
  | last count items =>
    intro before last after hsplit _
    rcases before with _ | ⟨first, rest⟩
    · exact (cons.inj hsplit).2.symm
    · exact absurd (cons.inj hsplit).2 (by simp)
  | more _ ih =>
    intro before last after hsplit hfinal
    rcases before with _ | ⟨first, rest⟩
    · rw [← (cons.inj hsplit).1] at hfinal
      exact absurd hfinal (by simp [chunkEvent])
    · exact ih rest last after (cons.inj hsplit).2 hfinal

def World.sent (world : World B) (id : Nat) : List (StreamEvent B) :=
  (world.subscription id).delivered ++ world.outstanding id

structure Sends (world : World B) (id : Nat) (next : World B) : Prop where
  consumed : (next.subscription id).consumed = (world.subscription id).consumed
  mem : ∀ event ∈ next.sent id, event ∈ world.sent id ∨ event ∈ next.pending
  chunks : chunksOf (next.sent id) = chunksOf (world.sent id)

variable {world next : World B} {id : Nat}

theorem Sends.of_eq (hsubscription : next.subscription id = world.subscription id)
    (houtstanding : next.outstanding id = world.outstanding id) : Sends world id next := by
  have hsent : next.sent id = world.sent id := by
    rw [World.sent, World.sent, hsubscription, houtstanding]
  refine ⟨by rw [hsubscription], fun event hevent => .inl (hsent ▸ hevent), by rw [hsent]⟩

theorem World.sent_announce (hidle : world.Idle)
    (hsubscription : next.subscription id = world.subscription id)
    (hsending : next.sending = none) : next.sent id = world.sent id ++ next.pending := by
  rw [sent, sent, hidle.outstanding, hsubscription, outstanding, underway, hsending]
  simp

theorem Sends.announce (hidle : world.Idle)
    (hsubscription : next.subscription id = world.subscription id)
    (hsending : next.sending = none)
    (hkind : ∀ event ∈ next.pending, event.event ≠ .snapshot) : Sends world id next := by
  have hsent := World.sent_announce hidle hsubscription hsending
  refine ⟨by rw [hsubscription], ?_, ?_⟩
  · rw [hsent]
    exact fun event hevent => mem_append.mp hevent
  · rw [hsent, chunksOf_append, chunksOf_eq_nil hkind, append_nil]

theorem Sends.pushed {event : StreamEvent B}
    (hpushed : Subscription.Pushed (world.subscription id) event (next.subscription id))
    (houtstanding : world.outstanding id = event :: next.outstanding id) :
    Sends world id next := by
  refine ⟨hpushed.consumed, ?_, ?_⟩
  · intro other hother
    refine .inl ?_
    rw [World.sent, houtstanding]
    rcases mem_append.mp hother with hother | hother
    · rcases hpushed.mem other hother with hold | rfl
      · exact mem_append_left _ hold
      · exact mem_append_right _ mem_cons_self
    · exact mem_append_right _ (mem_cons_of_mem _ hother)
  · rw [World.sent, World.sent, houtstanding, chunksOf_append, hpushed.chunks, ← chunksOf_append,
      append_assoc, singleton_append]

variable {world next : World B} {id : Nat} {action : Action B}

/-- Every step of the worker but an install leaves the chunks of a subscriber as they are.  The
subscriber stays, and neither reads nor closes; no other goroutine terminates it. -/
theorem Step.sends (h : Inv objectSize generation topic world)
    (hstep : Step objectSize generation topic world action next) (hid : id ∈ world.subscribers)
    (hstays : id ∈ next.subscribers) (hinstall : ∀ snapshot, action ≠ .install snapshot)
    (hreads : action ≠ .next id) (hterminal : ∀ other event, action ≠ .terminal other event) :
    Sends world id next := by
  cases hstep with
  | subscribe _ =>
    have hne : id ≠ world.count := Nat.ne_of_lt (h.subscriptions.subscriber id hid)
    exact .of_eq (update_of_ne hne _ _) rfl
  | install => exact absurd rfl (hinstall _)
  | @change event worker update fits hidle _ hchange _ _ =>
    refine .announce hidle rfl hidle.2 ?_
    cases update with
    | active =>
      intro other hother
      rw [mem_singleton.mp hother]
      rcases hchange with h | h | h <;> simp [h]
    | stopped => exact fun _ hnone => absurd hnone not_mem_nil
    | exceeded =>
      intro other hother
      rw [mem_singleton.mp hother]
      simp [resetEvent]
  | bookmark => exact .of_eq rfl rfl
  | @notice event hidle hnotice _ =>
    refine .announce hidle rfl hidle.2 ?_
    intro other hother
    rw [mem_singleton.mp hother]
    rcases hnotice with h | h | h <;> simp [h]
  | broadcast hpending hsending =>
    refine .of_eq rfl ?_
    simp [World.outstanding, World.underway, hpending, hsending, hid]
  | @deliver event left other hsending hother =>
    obtain ⟨hevent, hnodup, hbound⟩ := h.subscriptions.sending event left hsending
    have hnext : PushedTo world other event
        (world.push objectSize generation topic other event) :=
      World.pushedTo h.subscriptions.nodup hevent
        (h.subscriptions.queue other (hbound other hother))
    generalize world.push objectSize generation topic other event = after at hnext hstays
    by_cases hsame : id = other
    · subst hsame
      refine .pushed (hnext.self hstays) ?_
      simp [World.outstanding, World.underway, hsending, hother, hnodup.not_mem_erase,
        hnext.pending]
    · refine .of_eq (hnext.other id hsame) ?_
      simp [World.outstanding, World.underway, hsending, mem_erase_of_ne hsame, hnext.pending]
  | delivered hsending =>
    refine .of_eq rfl ?_
    simp [World.outstanding, World.underway, hsending]
  | terminal => exact absurd rfl (hterminal _ _)
  | @next other =>
    have hne : id ≠ other := fun hsame => hreads (by rw [hsame])
    exact .of_eq (update_of_ne hne _ _) rfl
  | @close other =>
    have hne : id ≠ other := by
      rintro rfl
      exact h.subscriptions.nodup.not_mem_erase hstays
    exact .of_eq (update_of_ne hne _ _) rfl
  | finish => exact absurd hstays not_mem_nil

theorem Step.install_sent {snapshot : WatchSnapshot (TopicObject B)}
    (hstep : Step objectSize generation topic world (.install snapshot) next) :
    (next.subscription id).consumed = (world.subscription id).consumed ∧
      next.sent id = (world.subscription id).delivered ++ next.pending ∧ Once next.pending ∧
      ∀ event ∈ next.pending, event.event = .snapshot := by
  cases hstep with
  | install ended fits hidle _ hevents _ =>
    have hchunked := SnapshotEvents_chunked hevents
    refine ⟨rfl, ?_, hchunked.once, fun event hevent => (hchunked.snapshot event hevent).1⟩
    have hbefore : world.sent id = (world.subscription id).delivered := by
      rw [World.sent, hidle.outstanding, append_nil]
    rw [← hbefore]
    exact World.sent_announce hidle rfl hidle.2

theorem Step.subscribe_sent (h : Inv objectSize generation topic world)
    (hstep : Step objectSize generation topic world .subscribe next)
    (hjoined : world.count ∈ next.subscribers) :
    (next.subscription world.count).consumed = [] ∧ ∃ initial,
      next.sent world.count = initial ++ world.pending ∧ Once initial ∧
      ∀ event ∈ initial, event.event = .snapshot := by
  cases hstep with
  | @subscribe initial hinitial =>
    obtain ⟨-, hkept⟩ := h.worker.initialEvents hinitial
    have hsnapshots : Once initial ∧ ∀ event ∈ initial, event.event = .snapshot := by
      by_cases hnil : initial = []
      · rw [hnil]
        exact ⟨fun before last after hsplit => absurd hsplit (by simp), by simp⟩
      · have hchunked := SnapshotEvents_chunked (hkept hnil)
        exact ⟨hchunked.once, fun event hevent => (hchunked.snapshot event hevent).1⟩
    have hjoin := filled_pushAll hsnapshots.2
      (⟨by simp, by simp, by simp [totalBytes]⟩ : FitsQueue objectSize [])
    rw [nil_append, show filled objectSize [] = newSubscription B from rfl] at hjoin
    have hpending : world.outstanding world.count = world.pending := by
      rw [World.outstanding, World.underway_of_new h, nil_append]
    have hold : world.count ∉ world.subscribers := fun hmem =>
      Nat.lt_irrefl _ (h.subscriptions.subscriber _ hmem)
    unfold World.sent World.subscribe at *
    dsimp only at hjoined ⊢
    rw [update_self]
    rcases hjoin with ⟨-, hjoin⟩ | ⟨-, queued, hjoin⟩
    · rw [hjoin, if_pos rfl]
      refine ⟨rfl, initial, ?_, hsnapshots⟩
      rw [filled_delivered]
      exact congrArg (initial ++ ·) hpending
    · rw [hjoin, if_neg (by simp)] at hjoined
      exact absurd hjoined hold

end Kubepeep.Watch
