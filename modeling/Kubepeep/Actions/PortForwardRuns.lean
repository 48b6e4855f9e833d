import Kubepeep.Actions.PortForwardSlots

/-!
# Runs of the port-forward manager

What every interleaving keeps in which nothing panics between the reservation of a create and its
publication and the generation stays the same while it publishes.  `createOnce` gives its gate back
when a panic unwinds it, but neither its reservation nor its listener.
-/

open Bool Function

namespace Kubepeep.Actions.PortForward

open Kubepeep.System

variable {E : Type} {origin : Nat → PortForwardOrigin} {podNamespace : Nat → String}
  {retention : Int} {m next : PortForwardManager E} {action : Action E}

namespace PortForwardManager

variable (m)

theorem reserve_cases (c g : Nat) (key : PortForwardOrigin) :
    (∃ code, m.reserve c g key = m.setCall c (.released g (.code code))) ∨
      ((m.activeSlots < MaximumPortForwardSessions ∨ m.replacing key = true) ∧
        m.reserve c g key = m.addStart c g key.generation) := by
  rw [reserve]
  by_cases hshutdown : m.shutdown = true
  · exact .inl ⟨_, if_pos hshutdown⟩
  rw [if_neg hshutdown]
  by_cases hfull : (decide (m.activeSlots ≥ MaximumPortForwardSessions) &&
      !m.replacing key) = true
  · exact .inl ⟨_, if_pos hfull⟩
  · refine .inr ⟨?_, if_neg hfull⟩
    rw [and_eq_true, decide_eq_true_iff, not_eq_true', not_and_or, not_le,
      not_eq_false] at hfull
    exact hfull

theorem publish_cases (c g s : Nat) (identifier current : String) (key : PortForwardOrigin)
    (done : Bool) :
    (∃ err, m.publish c g s identifier current key done = m.dropStart c s (.stopping g err)) ∨
      (m.shutdown = false ∧ current = key.generation ∧ m.sessions.lookup identifier = none ∧
        m.publish c g s identifier current key done = m.addSession c g s identifier key) := by
  rw [publish]
  by_cases hshutdown : m.shutdown = true
  · exact .inl ⟨_, if_pos hshutdown⟩
  simp only [if_neg hshutdown]
  by_cases hstale : (((m.starts.lookup s).any fun start => start.stale) ||
      current != key.generation) = true
  · exact .inl ⟨_, if_pos hstale⟩
  simp only [if_neg hstale]
  by_cases hdone : done = true
  · exact .inl ⟨_, if_pos hdone⟩
  simp only [if_neg hdone]
  cases hlookup : m.sessions.lookup identifier with
  | some _ => exact .inl ⟨_, rfl⟩
  | none =>
    rw [not_eq_true, or_eq_false_iff, bne_eq_false_iff_eq] at hstale
    exact .inr ⟨eq_false_iff.mpr hshutdown, hstale.2, rfl, rfl⟩

end PortForwardManager

theorem Inv.attachReservation (h : Inv origin m) {c g s : Nat}
    (hphase : m.call c = .closing g s []) : Inv origin (m.attachReservation c g s) := by
  rw [PortForwardManager.attachReservation]
  cases hlookup : m.starts.lookup s with
  | none => exact h.advance hphase rfl (.plain rfl rfl rfl) rfl rfl
  | some start =>
    have hattached : Inv origin
        { m with starts := m.starts.insert s { start with attached := true } } := by
      refine h.frame rfl rfl ?_ rfl (fun hrow => hrow)
        (fun _ => ⟨rfl, rfl, fun hactive => hactive⟩) (fun hopen => hopen) (fun hopen => hopen)
      intro t
      rw [PortForwardManager.creator, PortForwardManager.creator]
      by_cases ht : t = s
      · subst ht
        rw [hlookup]
        simp [AList.lookup_insert]
      · simp [AList.lookup_insert_ne ht]
    by_cases hshutdown : m.shutdown = true
    · simp only [if_pos hshutdown]
      exact hattached.advance hphase rfl (.plain rfl rfl rfl) rfl rfl
    simp only [if_neg hshutdown]
    by_cases hstale : start.stale = true
    · simp only [if_pos hstale]
      exact hattached.advance hphase rfl (.plain rfl rfl rfl) rfl rfl
    · simp only [if_neg hstale]
      exact hattached.advance hphase rfl ⟨rfl, fun hlist => hlist, fun hpublished => hpublished⟩
        rfl rfl

/-- Nothing panics once a create has its reservation, and a create publishes its session under the
generation that it has read just before. -/
def Calm (m : PortForwardManager E) : Action E → Prop
  | .panics c => (m.call c).start? = none
  | .publish c _ => ∀ g s identifier current, m.call c = .comparing g s identifier current →
      m.generations.current = current
  | _ => True

theorem Phase.reviewing_of_panics {phase : Phase E} {g : Nat} (h : phase.panics? = some g)
    (hstart : phase.start? = none) : phase = .reviewing g := by
  cases phase <;> first | cases hstart; done | cases h
  rfl

theorem Step.inv (hresolved : ∀ c, podNamespace c = (origin c).Namespace) (h : Inv origin m)
    (hstep : Step origin podNamespace retention m action next) (hcalm : Calm m action) :
    Inv origin next := by
  cases hstep with
  | rotate next hfresh =>
    exact h.frame rfl rfl (fun _ => rfl) rfl (fun hrow => hrow)
      (fun _ => ⟨rfl, rfl, fun hactive => hactive⟩) (fun hopen => hopen) (fun hopen => hopen)
  | create hphase =>
    exact h.pass hphase (h.gates.register (by rw [hphase]; rfl)) (.plain rfl rfl rfl) nofun nofun
  | giveUp hphase => exact h.advance hphase rfl (.plain rfl rfl rfl) rfl rfl
  | acquire hphase hfree =>
    exact h.pass hphase (h.gates.acquire (by rw [hphase]; rfl) hfree) (.plain rfl rfl rfl) nofun
      nofun
  | keyFailed err hphase => exact h.advance hphase rfl (.plain rfl rfl rfl) rfl rfl
  | refuse err hphase => exact h.advance hphase rfl (.plain rfl rfl rfl) rfl rfl
  | withdraw hphase => exact h.advance hphase rfl (.plain rfl rfl rfl) rfl rfl
  | permit hphase => exact h.advance hphase rfl (.plain rfl rfl rfl) rfl rfl
  | checkPermitted hphase =>
    split <;> exact h.advance hphase rfl (.plain rfl rfl rfl) rfl rfl
  | @reserve c g now hphase =>
    have hpruned := h.pruneLocked retention now
    rcases (m.pruneLocked retention now).reserve_cases c g (origin c) with
      ⟨code, heq⟩ | ⟨hspace, heq⟩
    · rw [heq]
      exact hpruned.advance hphase rfl (.plain rfl rfl rfl) rfl rfl
    · rw [heq]
      exact hpruned.addStart hphase hspace
  | collectPrevious hphase => exact h.collectPrevious hphase
  | finishPrevious now hphase => exact h.finishPrevious now hphase
  | @joinPrevious c g s p previous hphase =>
    exact (h.closeAll p).advance hphase rfl ⟨rfl, fun hlist => hlist, nofun⟩ rfl rfl
  | attachReservation hphase => exact h.attachReservation hphase
  | checkAttached hphase =>
    split
    · exact h.advance hphase rfl ⟨rfl, fun hlist => hlist, nofun⟩ rfl rfl
    · exact h.advance hphase rfl (.plain rfl rfl rfl) rfl rfl
  | identify identifier hphase =>
    exact h.advance hphase rfl ⟨rfl, fun hlist => hlist, nofun⟩ rfl rfl
  | identifyFailed hphase => exact h.advance hphase rfl (.plain rfl rfl rfl) rfl rfl
  | @listen c g s identifier hphase =>
    have hbound : Inv origin (m.setCall c (.bound g s identifier)) :=
      h.advance hphase rfl ⟨rfl, fun hlist => hlist, nofun⟩ rfl rfl
    apply hbound.openListener (c := c)
    show (update m.call c _ c).mayListen = true
    rw [update_self]
    rfl
  | listenFailed err hphase => exact h.advance hphase rfl (.plain rfl rfl rfl) rfl rfl
  | addressFailed hphase => exact h.closeAll_setCall hphase rfl (.plain rfl rfl rfl)
  | @connect c g s identifier hphase =>
    have hconnected : Inv origin (m.setCall c (.connected g s identifier)) :=
      h.setCall (fun _ => rfl) (fun _ => rfl) (by rw [hphase]; rfl)
        (by rw [hphase]; exact ⟨rfl, fun hlist => hlist, nofun⟩)
    apply hconnected.openHandle (c := c)
    show (update m.call c _ c).mayConnect = true
    rw [update_self]
    rfl
  | connectFailed err hphase => exact h.closeAll_setCall hphase rfl (.plain rfl rfl rfl)
  | checkConnected hphase hcurrent =>
    exact h.setCall (fun _ => rfl) (fun _ => rfl) (by rw [hphase]; rfl)
      (by rw [hphase]; exact ⟨rfl, fun hlist => hlist, nofun⟩)
  | checkConnectedFailed hphase hcurrent =>
    exact h.closeAll_setCall hphase rfl (.plain rfl rfl rfl)
  | compare hphase =>
    exact h.setCall (fun _ => rfl) (fun _ => rfl) (by rw [hphase]; rfl)
      (by rw [hphase]; exact ⟨rfl, fun hlist => hlist, nofun⟩)
  | @publish c g s identifier current done hphase =>
    have horigin : dtoOrigin origin podNamespace c = origin c := by
      rw [dtoOrigin, hresolved c]
    rw [horigin]
    rcases m.publish_cases c g s identifier current (origin c) done with
      ⟨err, heq⟩ | ⟨-, -, hlookup, heq⟩
    · rw [heq]
      exact h.dropStart (by rw [hphase]; rfl) rfl (by rw [hphase]; rfl) rfl (by rw [hphase]; rfl)
        (fun _ => rfl) (fun _ => rfl)
    · rw [heq]
      exact h.addSession hphase hlookup
  | stop hphase => exact h.closeAll_setCall hphase rfl (.plain rfl rfl rfl)
  | @releaseReservation c g s err hphase =>
    have ⟨hlistener, hhandle⟩ := h.closed (c := c) (by rw [hphase]; rfl) (by rw [hphase]; rfl)
    exact h.dropStart (by rw [hphase]; rfl) rfl (by rw [hphase]; rfl) rfl (by rw [hphase]; rfl)
      (by rw [hlistener]; exact nofun) (by rw [hhandle]; exact nofun)
  | checkReleased hphase =>
    split <;> exact h.advance hphase rfl (.plain rfl rfl rfl) rfl rfl
  | checkShutdown hphase => exact h.advance hphase rfl (.plain rfl rfl rfl) rfl rfl
  | panics hpanics =>
    exact h.advance (Phase.reviewing_of_panics hpanics hcalm) rfl (.plain rfl rfl rfl) rfl rfl
  | @releaseToken c g result hphase =>
    exact h.pass hphase (h.gates.release (by rw [hphase]; rfl))
      ⟨rfl, nofun, fun hpublished => hpublished⟩ (fun hopen => hopen) (fun hopen => hopen)
  | @releaseRef c g result hphase =>
    exact h.pass hphase (h.gates.leave (by rw [hphase]; rfl))
      ⟨rfl, nofun, fun hpublished => hpublished⟩ (fun hopen => hopen) (fun hopen => hopen)
  | close identifier generation now => exact (h.pruneLocked retention now).close _ _ now
  | finish status now hpublished hstatus => exact h.finish _ now hstatus
  | stopSession hstopping => exact h.closeAll _
  | list now => exact h.pruneLocked retention now
  | onGeneration current => exact h.sweep _
  | shutdown => exact h.shutdown

/-! ## Runs -/

structure Guarantees (origin : Nat → PortForwardOrigin) (podNamespace : Nat → String)
    (retention : Int) (m : PortForwardManager E) : Prop where
  /-- An origin has at most one active session. -/
  single : ∀ {id other p q}, m.sessions.lookup id = some p → m.sessions.lookup other = some q →
    m.isActive p = true → m.isActive q = true → (m.session p).origin = (m.session q).origin →
      id = other
  origins : ∀ held : Finset PortForwardOrigin, (∀ key ∈ held, m.Holds origin key) →
    held.card ≤ MaximumPortForwardSessions
  /-- A session that a step adds is of the current generation, and the manager is not shut down. -/
  published : ∀ {action next id p}, Step origin podNamespace retention m action next →
    Calm m action → next.sessions.lookup id = some p → m.sessions.lookup id = some p ∨
      (m.shutdown = false ∧ m.generations.current = (next.session p).origin.generation)
  /-- A create that has returned an error leaves nothing behind. -/
  failed : ∀ {c err}, m.call c = .finished (some err) → m.listener c = false ∧
    m.handle c = false ∧ ∀ s start, m.starts.lookup s = some start → start.create ≠ c

theorem PortForwardManager.lookup_finish {identifier id : String} {status : PortForwardStatus}
    {now : Int} : (m.finish identifier status now).sessions.lookup id = m.sessions.lookup id := by
  rw [finish]
  split
  · rfl
  · split <;> rfl

theorem PortForwardManager.lookup_close {identifier generation id : String} {now : Int} :
    (m.Close identifier generation now).1.sessions.lookup id = m.sessions.lookup id := by
  rw [Close]
  split
  · rfl
  · split
    · rfl
    · split <;> rfl

theorem Step.published (hstep : Step origin podNamespace retention m action next)
    (hcalm : Calm m action) {id : String} {p : Nat} (hrow : next.sessions.lookup id = some p) :
    m.sessions.lookup id = some p ∨
      (m.shutdown = false ∧ m.generations.current = (next.session p).origin.generation) := by
  cases hstep with
  | @reserve c g now =>
    rcases (m.pruneLocked retention now).reserve_cases c g (origin c) with ⟨code, heq⟩ | ⟨-, heq⟩
    all_goals
      rw [heq] at hrow
      exact .inl (Table.lookup_prune_eq_some_iff.mp hrow).1
  | finishPrevious now =>
    exact .inl (PortForwardManager.lookup_finish.symm.trans hrow)
  | @attachReservation c g s =>
    rw [PortForwardManager.attachReservation] at hrow
    split at hrow <;> exact .inl hrow
  | @publish c g s identifier current done hphase =>
    rcases m.publish_cases c g s identifier current (dtoOrigin origin podNamespace c) done with
      ⟨err, heq⟩ | ⟨hshutdown, hcurrent, -, heq⟩
    · rw [heq] at hrow
      exact .inl hrow
    · rw [heq] at hrow ⊢
      rcases Table.lookup_insert_eq_some_iff.mp hrow with ⟨-, rfl⟩ | ⟨-, hold⟩
      · refine .inr ⟨hshutdown, ?_⟩
        show _ = (update m.session c _ c).origin.generation
        rw [update_self]
        exact (hcalm g s identifier current hphase).trans hcurrent
      · exact .inl hold
  | close identifier generation now =>
    rw [PortForwardManager.lookup_close] at hrow
    exact .inl (Table.lookup_prune_eq_some_iff.mp hrow).1
  | finish status now => exact .inl (PortForwardManager.lookup_finish.symm.trans hrow)
  | list now => exact .inl (Table.lookup_prune_eq_some_iff.mp hrow).1
  | onGeneration current => exact .inl (Table.lookup_prune_eq_some_iff.mp hrow).1
  | shutdown =>
    rw [PortForwardManager.Shutdown] at hrow
    split at hrow
    · exact .inl hrow
    · exact .inl (Table.lookup_prune_eq_some_iff.mp hrow).1
  | _ => exact .inl hrow

theorem Inv.guarantees (h : Inv origin m) : Guarantees origin podNamespace retention m where
  single {id other p q} hp hq hfirst hsecond hsame := by
    have hrow := h.row hp
    have hother := h.row hq
    rw [hrow.2.1, hother.2.1] at hsame
    have heq := h.single hp hq hfirst hsecond hsame
    subst heq
    exact hrow.1.symm.trans hother.1
  origins := h.origins
  published hstep hcalm hrow := hstep.published hcalm hrow
  failed {c err} hphase := by
    have ⟨hlistener, hhandle⟩ := h.closed (c := c) (by rw [hphase]; rfl) (by rw [hphase]; rfl)
    refine ⟨hlistener, hhandle, ?_⟩
    rintro s start hrow rfl
    have hstart : (m.call start.create).start? = some s :=
      h.owner.mp (Option.map_eq_some_iff.mpr ⟨start, hrow, rfl⟩)
    rw [hphase] at hstart
    cases hstart

/-- Every interleaving whose steps are calm, when the pod of a Service is in its namespace. -/
theorem portForward_guarantees {initial final : PortForwardManager E} {actions : List (Action E)}
    (hresolved : ∀ c, podNamespace c = (origin c).Namespace) (hnew : initial.New)
    (hruns : Runs (fun m action next =>
      Step origin podNamespace retention m action next ∧ Calm m action) initial actions final) :
    Guarantees origin podNamespace retention final := by
  have hinv : Inv origin final :=
    hruns.invariant hnew.inv fun h hstep => hstep.1.inv hresolved h hstep.2
  exact hinv.guarantees

/-! ## One origin -/

def podOrigin (_ : Nat) : PortForwardOrigin := ⟨"g1", "Pod", "default", "web"⟩

def emptyManager : PortForwardManager Unit where
  generations := ⟨"g1", [], List.not_mem_nil⟩
  shutdown := false
  targetGates := ⟨∅, fun _ => ⟨0, false⟩, 0⟩
  starts := ∅
  nextStart := 0
  sessions := ∅
  session _ := ⟨"", ⟨"", "", "", ""⟩, .PortForwardClosed, none⟩
  call _ := .idle
  listener _ := false
  handle _ := false
  stopping _ := false

theorem emptyManager_new : emptyManager.New :=
  ⟨rfl, rfl, rfl, rfl, fun _ => rfl, fun _ => rfl, fun _ => rfl, fun _ => rfl⟩

/-- The first create publishes its session.  The second one ends it, the generation changes while it
connects, and it returns the error with nothing open. -/
theorem portForward_guarantees_stale : ∃ final,
    Runs (fun m action next =>
        Step podOrigin (fun _ => "default") 0 m action next ∧ Calm m action) emptyManager
      [.create 0, .acquire 0, .permit 0, .checkCurrent 0, .reserve 0 0, .collectPrevious 0,
        .attachReservation 0, .checkCurrent 0, .identify 0 "pf_1", .listen 0, .connect 0,
        .checkCurrent 0, .compare 0, .publish 0 false, .releaseToken 0, .releaseRef 0,
        .create 1, .acquire 1, .permit 1, .checkCurrent 1, .reserve 1 1, .collectPrevious 1,
        .finishPrevious 1 1, .joinPrevious 1, .attachReservation 1, .checkCurrent 1,
        .identify 1 "pf_2", .listen 1, .connect 1, .checkCurrent 1, .rotate "g2", .compare 1,
        .publish 1 false, .stop 1, .releaseToken 1, .releaseRef 1] final ∧
    Guarantees podOrigin (fun _ => "default") 0 final ∧
    final.sessions.lookup "pf_1" = some 0 ∧ (final.session 0).status = .PortForwardClosed ∧
    final.call 1 = .finished (some (.code .CodeGenerationChanged)) ∧
    final.listener 1 = false ∧ final.handle 1 = false := by
  apply runs_with
  apply runs_cons ⟨.create rfl, trivial⟩
  apply runs_cons ⟨.acquire rfl rfl, trivial⟩
  apply runs_cons ⟨.permit rfl, trivial⟩
  apply runs_cons ⟨.checkPermitted rfl, trivial⟩
  apply runs_cons ⟨.reserve _ rfl, trivial⟩
  apply runs_cons ⟨.collectPrevious rfl, trivial⟩
  apply runs_cons ⟨.attachReservation rfl, trivial⟩
  apply runs_cons ⟨.checkAttached rfl, trivial⟩
  apply runs_cons ⟨.identify _ rfl, trivial⟩
  apply runs_cons ⟨.listen rfl, trivial⟩
  apply runs_cons ⟨.connect rfl, trivial⟩
  apply runs_cons ⟨.checkConnected rfl rfl, trivial⟩
  apply runs_cons ⟨.compare rfl, trivial⟩
  apply runs_cons ⟨.publish _ rfl, fun _ _ _ _ h => (Phase.comparing.inj h).2.2.2⟩
  apply runs_cons ⟨.releaseToken rfl, trivial⟩
  apply runs_cons ⟨.releaseRef rfl, trivial⟩
  apply runs_cons ⟨.create rfl, trivial⟩
  apply runs_cons ⟨.acquire rfl rfl, trivial⟩
  apply runs_cons ⟨.permit rfl, trivial⟩
  apply runs_cons ⟨.checkPermitted rfl, trivial⟩
  apply runs_cons ⟨.reserve _ rfl, trivial⟩
  apply runs_cons ⟨.collectPrevious rfl, trivial⟩
  apply runs_cons ⟨.finishPrevious _ rfl, trivial⟩
  apply runs_cons ⟨.joinPrevious rfl, trivial⟩
  apply runs_cons ⟨.attachReservation rfl, trivial⟩
  apply runs_cons ⟨.checkAttached rfl, trivial⟩
  apply runs_cons ⟨.identify _ rfl, trivial⟩
  apply runs_cons ⟨.listen rfl, trivial⟩
  apply runs_cons ⟨.connect rfl, trivial⟩
  apply runs_cons ⟨.checkConnected rfl rfl, trivial⟩
  apply runs_cons ⟨.rotate "g2" (by decide), trivial⟩
  apply runs_cons ⟨.compare rfl, trivial⟩
  apply runs_cons ⟨.publish _ rfl, fun _ _ _ _ h => (Phase.comparing.inj h).2.2.2⟩
  apply runs_cons ⟨.stop rfl, trivial⟩
  apply runs_cons ⟨.releaseToken rfl, trivial⟩
  apply runs_cons ⟨.releaseRef rfl, trivial⟩
  refine ⟨_, .nil _, fun hruns => ?_⟩
  have hguarantees := portForward_guarantees (fun _ => rfl) emptyManager_new hruns
  have hfailed := @hguarantees.failed 1 (.code .CodeGenerationChanged) rfl
  exact ⟨hguarantees, rfl, rfl, rfl, hfailed.1, hfailed.2.1⟩

/-- The adapter panics: the create returns an error, and its reservation and its listener stay. -/
theorem panic_keeps_reservation : ∃ final,
    Runs (Step podOrigin (fun _ => "default") 0) emptyManager
      [.create 0, .acquire 0, .permit 0, .checkCurrent 0, .reserve 0 0, .collectPrevious 0,
        .attachReservation 0, .checkCurrent 0, .identify 0 "pf_1", .listen 0, .panics 0,
        .releaseToken 0, .releaseRef 0] final ∧
    final.call 0 = .finished (some (.code .CodeInternal)) ∧ final.listener 0 = true ∧
    final.starts.lookup 1 = some ⟨"g1", true, false, 0⟩ := by
  apply runs_cons (.create rfl)
  apply runs_cons (.acquire rfl rfl)
  apply runs_cons (.permit rfl)
  apply runs_cons (.checkPermitted rfl)
  apply runs_cons (.reserve _ rfl)
  apply runs_cons (.collectPrevious rfl)
  apply runs_cons (.attachReservation rfl)
  apply runs_cons (.checkAttached rfl)
  apply runs_cons (.identify _ rfl)
  apply runs_cons (.listen rfl)
  apply runs_cons (.panics rfl)
  apply runs_cons (.releaseToken rfl)
  apply runs_cons (.releaseRef rfl)
  exact ⟨_, .nil _, rfl, rfl, rfl⟩

end Kubepeep.Actions.PortForward
