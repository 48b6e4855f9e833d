import Kubepeep.Actions.Exec

/-!
# Steps that add nothing

Most steps of the exec manager add no ticket, no session and no sweep: they move a call on, drop
tickets or reservations, or request a terminal.  `Within` says once what such a step keeps, and the
invariants of the manager are kept by every step within.
-/

open Bool Function

namespace Kubepeep.Actions.Exec

open Kubepeep.System

variable {D E : Type}

namespace Phase

def ticket? : Phase D E → Option Nat
  | .consumed _ _ ticket => some ticket.serial
  | .inspecting _ _ ticket => some ticket.serial
  | .inspected _ _ ticket => some ticket.serial
  | .leased _ _ _ ticket => some ticket.serial
  | .granted _ ticket => some ticket.serial
  | _ => none

def session? : Phase D E → Option Nat
  | .starting _ p => some p
  | .connected _ p => some p
  | .confirmed _ p => some p
  | .revoked p => some p
  | .failing _ p _ => some p
  | _ => none

/-- The next phase of a call holds what the call has held. -/
structure Within (before after : Phase D E) : Prop where
  ticket : ∀ {t}, after.ticket? = some t → before.ticket? = some t
  session : ∀ {p}, after.session? = some p → before.session? = some p

theorem Within.released {before after : Phase D E} (hticket : after.ticket? = none)
    (hsession : after.session? = none) : Within before after where
  ticket h := by rw [hticket] at h; cases h
  session h := by rw [hsession] at h; cases h

end Phase

namespace Sweep

def scope? : Sweep → Option Scope
  | .idle => none
  | .sweeping scope _ => some scope
  | .returned scope => some scope

def pending : Sweep → List Nat
  | .sweeping _ pending => pending
  | _ => []

end Sweep

def ExecSessionState.isFinished (state : ExecSessionState) : Bool :=
  state.monitor == .finished

def ExecManager.Active (m : ExecManager D E) (p : Nat) : Prop :=
  (m.session p).active = true ∧ (m.session p).isFinished = false

structure ExecSessionState.Within (before after : ExecSessionState) : Prop where
  id : after.id = before.id
  generation : after.generation = before.generation
  active : after.active = before.active
  finished : after.isFinished = before.isFinished
  requested : before.requestedTerminal.isSome → after.requestedTerminal.isSome

theorem ExecSessionState.Within.refl (state : ExecSessionState) : Within state state :=
  ⟨rfl, rfl, rfl, rfl, fun h => h⟩

theorem ExecSessionState.Within.trans {first second third : ExecSessionState}
    (h : Within first second) (hlater : Within second third) : Within first third where
  id := hlater.id.trans h.id
  generation := hlater.generation.trans h.generation
  active := hlater.active.trans h.active
  finished := hlater.finished.trans h.finished
  requested hrequested := hlater.requested (h.requested hrequested)

structure TicketsWithin (m next : ExecManager D E) : Prop where
  nextTicket : next.nextTicket = m.nextTicket
  ticketsSize : next.tickets.size ≤ m.tickets.size
  tickets : ∀ {id ticket}, next.tickets.lookup id = some ticket →
    m.tickets.lookup id = some ticket
  taken : ∀ {c t}, (next.call c).ticket? = some t → (m.call c).ticket? = some t

structure SessionsWithin (m next : ExecManager D E) : Prop where
  nextSession : next.nextSession = m.nextSession
  sessionsSize : next.sessions.size ≤ m.sessions.size
  sessions : ∀ {id p}, next.sessions.lookup id = some p →
    m.sessions.lookup id = some p
  live : ∀ {id p}, m.Active p → m.sessions.lookup id = some p →
    next.sessions.lookup id = some p
  session : ∀ p, (m.session p).Within (next.session p)

structure StartsWithin (m next : ExecManager D E) : Prop where
  starting : ∀ {c p}, (next.call c).session? = some p → (m.call c).session? = some p

structure SweepsWithin (m next : ExecManager D E) : Prop where
  generations : m.generations.Le next.generations
  shutdown : next.shutdown = m.shutdown
  sweep : next.sweep = m.sweep

/-- A step that adds nothing to the manager. -/
structure Within (m next : ExecManager D E) : Prop extends TicketsWithin m next,
  SessionsWithin m next, StartsWithin m next, SweepsWithin m next

variable {m between next : ExecManager D E}

/-! A step is within as to the parts of the manager that it leaves alone. -/

theorem TicketsWithin.of_eq (hnext : next.nextTicket = m.nextTicket)
    (htickets : next.tickets = m.tickets) (hcall : next.call = m.call) :
    TicketsWithin m next where
  nextTicket := hnext
  ticketsSize := (congrArg Table.size htickets).le
  tickets h := htickets ▸ h
  taken h := hcall ▸ h

theorem SessionsWithin.of_eq (hnext : next.nextSession = m.nextSession)
    (hsessions : next.sessions = m.sessions) (hsession : next.session = m.session) :
    SessionsWithin m next where
  nextSession := hnext
  sessionsSize := (congrArg Table.size hsessions).le
  sessions h := hsessions ▸ h
  live _ h := hsessions ▸ h
  session _ := hsession ▸ .refl _

theorem StartsWithin.of_eq (hcall : next.call = m.call) : StartsWithin m next where
  starting h := hcall ▸ h

theorem SweepsWithin.of_eq (hgenerations : next.generations = m.generations)
    (hshutdown : next.shutdown = m.shutdown) (hsweep : next.sweep = m.sweep) :
    SweepsWithin m next where
  generations := hgenerations ▸ .refl _
  shutdown := hshutdown
  sweep := hsweep

theorem SessionsWithin.active_iff (h : SessionsWithin m next) (p : Nat) :
    next.Active p ↔ m.Active p := by
  rw [ExecManager.Active, ExecManager.Active, (h.session p).active, (h.session p).finished]

theorem TicketsWithin.trans (h : TicketsWithin m between) (hlater : TicketsWithin between next) :
    TicketsWithin m next where
  nextTicket := hlater.nextTicket.trans h.nextTicket
  ticketsSize := hlater.ticketsSize.trans h.ticketsSize
  tickets hlookup := h.tickets (hlater.tickets hlookup)
  taken hticket := h.taken (hlater.taken hticket)

theorem SessionsWithin.trans (h : SessionsWithin m between)
    (hlater : SessionsWithin between next) : SessionsWithin m next where
  nextSession := hlater.nextSession.trans h.nextSession
  sessionsSize := hlater.sessionsSize.trans h.sessionsSize
  sessions hlookup := h.sessions (hlater.sessions hlookup)
  live hactive hlookup := hlater.live ((h.active_iff _).mpr hactive) (h.live hactive hlookup)
  session p := (h.session p).trans (hlater.session p)

theorem StartsWithin.trans (h : StartsWithin m between) (hlater : StartsWithin between next) :
    StartsWithin m next where
  starting hsession := h.starting (hlater.starting hsession)

theorem SweepsWithin.trans (h : SweepsWithin m between) (hlater : SweepsWithin between next) :
    SweepsWithin m next where
  generations := h.generations.trans hlater.generations
  shutdown := hlater.shutdown.trans h.shutdown
  sweep := hlater.sweep.trans h.sweep

variable {p : Nat} {grant : ExecGrant}

theorem ExecManager.reservation_inactive (h : m.reservation? grant = some p) :
    m.sessions.lookup grant.SessionID = some p ∧ (m.session p).active = false := by
  have ⟨hlookup, hreserved⟩ := Option.filter_eq_some_iff.mp h
  simp only [and_eq_true, not_eq_true'] at hreserved
  exact ⟨hlookup, hreserved.2⟩

theorem ExecManager.size_removeReservation (m : ExecManager D E) (p : Nat) :
    (m.removeReservation p).sessions.size ≤ m.sessions.size := by
  rw [removeReservation]
  split
  · exact Table.size_erase_le _
  · exact le_rfl

theorem ExecManager.lookup_removeReservation (m : ExecManager D E) {id : String} {p q : Nat} :
    (m.removeReservation p).sessions.lookup id = some q ↔
      m.sessions.lookup id = some q ∧ ¬ (id = (m.session p).id ∧ q = p) := by
  rw [removeReservation]
  by_cases h : (m.sessions.lookup (m.session p).id == some p) = true
  · simp only [if_pos h, Table.lookup_erase_eq_some_iff]
    rw [beq_iff_eq] at h
    constructor
    · intro ⟨hid, hlookup⟩
      exact ⟨hlookup, fun hrow => hid hrow.1⟩
    · intro ⟨hlookup, hother⟩
      refine ⟨?_, hlookup⟩
      rintro rfl
      exact hother ⟨rfl, Option.some.inj (hlookup.symm.trans h)⟩
  · simp only [if_neg h]
    refine ⟨fun hlookup => ⟨hlookup, ?_⟩, And.left⟩
    rintro ⟨rfl, rfl⟩
    exact h (beq_iff_eq.mpr hlookup)

theorem ExecManager.requestedTerminal_requestTerminal (m : ExecManager D E)
    {terminal : ExecTerminal} (h : m.sessions.lookup (m.session p).id = some p) :
    ((m.requestTerminal p terminal).session p).requestedTerminal.isSome := by
  show ((update m.session p _) p).requestedTerminal.isSome
  rw [update_self, h, bne_self_eq_false, Bool.false_or]
  split_ifs with hrequested
  · exact hrequested
  · rfl

variable {phase : Phase D E} {c : Nat}

theorem TicketsWithin.setCall (h : ∀ {t}, phase.ticket? = some t → (m.call c).ticket? = some t) :
    TicketsWithin m (m.setCall c phase) where
  nextTicket := rfl
  ticketsSize := le_rfl
  tickets hlookup := hlookup
  taken {d t} := (forall_update_iff m.call fun d after =>
    after.ticket? = some t → (m.call d).ticket? = some t).mpr ⟨h, fun _ _ hold => hold⟩ d

theorem StartsWithin.setCall (h : ∀ {p}, phase.session? = some p → (m.call c).session? = some p) :
    StartsWithin m (m.setCall c phase) where
  starting {d p} := (forall_update_iff m.call fun d after =>
    after.session? = some p → (m.call d).session? = some p).mpr ⟨h, fun _ _ hold => hold⟩ d

namespace Within

theorem trans (h : Within m between) (hlater : Within between next) : Within m next where
  toTicketsWithin := h.toTicketsWithin.trans hlater.toTicketsWithin
  toSessionsWithin := h.toSessionsWithin.trans hlater.toSessionsWithin
  toStartsWithin := h.toStartsWithin.trans hlater.toStartsWithin
  toSweepsWithin := h.toSweepsWithin.trans hlater.toSweepsWithin

/-! ## The sections that are within -/

variable (m)

theorem setCall (h : (m.call c).Within phase) :
    Within m (m.setCall c phase) where
  toTicketsWithin := .setCall h.ticket
  toSessionsWithin := .of_eq rfl rfl rfl
  toStartsWithin := .setCall h.session
  toSweepsWithin := .of_eq rfl rfl rfl

theorem fail (c : Nat) (code : ErrorCode) : Within m (m.fail c code) :=
  setCall m (.released rfl rfl)

theorem checkCurrent (generation : String)
    (h : (m.call c).Within phase) : Within m (m.checkCurrent c generation phase) := by
  rw [ExecManager.checkCurrent]
  split_ifs with hcurrent
  · exact setCall m h
  · exact fail m c _

theorem setSession {state : ExecSessionState} (h : (m.session p).Within state) :
    Within m (m.setSession p state) where
  toTicketsWithin := .of_eq rfl rfl rfl
  toStartsWithin := .of_eq rfl
  toSweepsWithin := .of_eq rfl rfl rfl
  nextSession := rfl
  sessionsSize := le_rfl
  sessions hlookup := hlookup
  live _ hlookup := hlookup
  session :=
    (forall_update_iff m.session fun other after => (m.session other).Within after).mpr
      ⟨h, fun _ _ => .refl _⟩

theorem stopTimer (p : Nat) : Within m (m.stopTimer p) :=
  setSession m ⟨rfl, rfl, rfl, rfl, fun h => h⟩

theorem pruneTicketsLocked (now : Int) : Within m (m.pruneTicketsLocked now) where
  nextTicket := rfl
  ticketsSize := Table.size_prune_le _
  tickets h := (Table.lookup_prune_eq_some_iff.mp h).1
  taken h := h
  toSessionsWithin := .of_eq rfl rfl rfl
  toStartsWithin := .of_eq rfl
  toSweepsWithin := .of_eq rfl rfl rfl

theorem dropSession {sessionID : String}
    (h : ∀ {p}, m.sessions.lookup sessionID = some p → ¬ m.Active p) :
    Within m (m.dropSession sessionID) where
  toTicketsWithin := .of_eq rfl rfl rfl
  toStartsWithin := .of_eq rfl
  toSweepsWithin := .of_eq rfl rfl rfl
  nextSession := rfl
  session _ := .refl _
  sessionsSize := Table.size_erase_le _
  sessions hlookup := (Table.lookup_erase_eq_some_iff.mp hlookup).2
  live {id p} hactive hlookup := by
    refine Table.lookup_erase_eq_some_iff.mpr ⟨?_, hlookup⟩
    intro hid
    exact h (hid ▸ hlookup) hactive

theorem removeReservation (h : ¬ m.Active p) : Within m (m.removeReservation p) where
  toTicketsWithin := .of_eq rfl rfl rfl
  toStartsWithin := .of_eq rfl
  toSweepsWithin := .of_eq rfl rfl rfl
  nextSession := rfl
  session _ := .refl _
  sessionsSize := m.size_removeReservation p
  sessions hlookup := (m.lookup_removeReservation.mp hlookup).1
  live hactive hlookup := by
    refine m.lookup_removeReservation.mpr ⟨hlookup, ?_⟩
    rintro ⟨-, rfl⟩
    exact h hactive

theorem requestTerminal (p : Nat) (terminal : ExecTerminal) :
    Within m (m.requestTerminal p terminal) := by
  apply setSession m
  split
  · exact .refl _
  · exact ⟨rfl, rfl, rfl, rfl, fun _ => rfl⟩

theorem dropReservation (h : m.reservation? grant = some p) :
    Within m ((m.dropSession grant.SessionID).stopTimer p) := by
  have ⟨hlookup, hinactive⟩ := ExecManager.reservation_inactive h
  refine (dropSession m ?_).trans (stopTimer _ p)
  intro q hq hactive
  rw [hlookup] at hq
  cases hq
  rw [hactive.1] at hinactive
  cases hinactive

theorem leaveLoop (terminal : ExecTerminal)
    (hmonitor : (m.session p).monitor = .watching) : Within m (m.leaveLoop p terminal) := by
  refine setSession m ⟨rfl, rfl, rfl, ?_, fun h => h⟩
  rw [ExecSessionState.isFinished, ExecSessionState.isFinished, hmonitor]
  rfl

theorem expireReservation (p : Nat) : Within m (m.expireReservation p) := by
  have hfired : Within m (m.setSession p { m.session p with reservationTimer := .done }) :=
    setSession m ⟨rfl, rfl, rfl, rfl, fun h => h⟩
  rw [ExecManager.expireReservation]
  cases hlookup : m.sessions.lookup (m.session p).id with
  | none => exact hfired
  | some q =>
    by_cases h : ((m.session q).active || (m.session q).leaseID != (m.session p).leaseID) = true
    · simp only [if_pos h]
      exact hfired
    · simp only [if_neg h]
      refine hfired.trans (dropSession _ ?_)
      intro r hr hactive
      have hsame : q = r := Option.some.inj (hlookup.symm.trans hr)
      subst hsame
      refine h (or_eq_true_iff.mpr (.inl ?_))
      exact ((hfired.active_iff q).mp hactive).1

theorem ReleaseUpgrade (c : Nat) (grant : ExecGrant) : Within m (m.ReleaseUpgrade c grant) := by
  rw [ExecManager.ReleaseUpgrade]
  cases h : m.reservation? grant with
  | none => exact fail m c _
  | some p => exact (dropReservation m h).trans (setCall _ (.released rfl rfl))

theorem findActive (c : Nat) (sessionID : String) (terminal : ExecTerminal) :
    Within m (m.findActive c sessionID terminal) := by
  rw [ExecManager.findActive]
  split
  · exact fail m c _
  · exact setCall m (.released rfl rfl)

theorem dropReservations (keep : String → Bool) : Within m (m.dropReservations keep) where
  toTicketsWithin := .of_eq rfl rfl rfl
  toStartsWithin := .of_eq rfl
  toSweepsWithin := .of_eq rfl rfl rfl
  nextSession := rfl
  sessionsSize := Table.size_prune_le _
  sessions h := (Table.lookup_prune_eq_some_iff.mp h).1
  live hactive hlookup := by
    refine Table.lookup_prune_eq_some_iff.mpr ⟨hlookup, ?_⟩
    rw [hactive.1, Bool.or_true]
  session p := by
    show (m.session p).Within
      (if m.sweptReservation keep p then (m.session p).stopTimer else m.session p)
    split_ifs with h
    · exact ⟨rfl, rfl, rfl, rfl, fun h => h⟩
    · exact .refl _

end Within

/-! ## The sections that can add something -/

namespace ExecManager

variable (m)

theorem insertTicket_cases (c : Nat) (sessionID : String) (ticket : ExecTicket D) :
    (∃ code, m.insertTicket c sessionID ticket = m.fail c code) ∨
      (m.tickets.size < maximumPendingTickets ∧ m.tickets.lookup sessionID = none ∧
        m.insertTicket c sessionID ticket = m.addTicket c sessionID ticket) := by
  rw [insertTicket]
  by_cases hshutdown : m.shutdown = true
  · exact .inl ⟨_, if_pos hshutdown⟩
  by_cases hcurrent : (m.generations.current != ticket.binding.Generation) = true
  · exact .inl ⟨_, (if_neg hshutdown).trans (if_pos hcurrent)⟩
  by_cases hfull : m.tickets.size ≥ maximumPendingTickets
  · exact .inl ⟨_, (if_neg hshutdown).trans ((if_neg hcurrent).trans (if_pos hfull))⟩
  rw [if_neg hshutdown, if_neg hcurrent, if_neg hfull]
  cases hlookup : m.tickets.lookup sessionID with
  | some _ => exact .inl ⟨_, rfl⟩
  | none => exact .inr ⟨Nat.lt_of_not_le hfull, rfl, rfl⟩

theorem consumeTicket_cases [DecidableEq D] (c : Nat) (binding : SelectionBinding)
    (sessionID : String) (tokenHash : D) :
    m.consumeTicket c binding sessionID tokenHash = m.fail c .CodeSessionGone ∨
      ∃ ticket, m.tickets.lookup sessionID = some ticket ∧ ticket.tokenHash = tokenHash ∧
        m.consumeTicket c binding sessionID tokenHash =
          m.takeTicket c binding sessionID ticket := by
  rw [consumeTicket]
  cases hlookup : m.tickets.lookup sessionID with
  | none => exact .inl rfl
  | some ticket =>
    by_cases hhash : (tokenHash != ticket.tokenHash) = true
    · exact .inl (if_pos hhash)
    · refine .inr ⟨ticket, rfl, ?_, if_neg hhash⟩
      rw [not_eq_true, bne_eq_false_iff_eq] at hhash
      exact hhash.symm

theorem reserve_cases (c : Nat) (binding : SelectionBinding) (sessionID leaseID : String)
    (ticket : ExecTicket D) :
    (∃ code, m.reserve c binding sessionID leaseID ticket = m.fail c code) ∨
      (m.shutdown = false ∧ m.generations.current = binding.Generation ∧
        m.sessions.size < MaximumExecSessions ∧ m.sessions.lookup sessionID = none ∧
        m.reserve c binding sessionID leaseID ticket =
          m.addSession c ⟨sessionID, binding.Generation, leaseID⟩ ticket) := by
  rw [reserve]
  by_cases hshutdown : m.shutdown = true
  · exact .inl ⟨_, if_pos hshutdown⟩
  by_cases hcurrent : (m.generations.current != binding.Generation) = true
  · exact .inl ⟨_, (if_neg hshutdown).trans (if_pos hcurrent)⟩
  by_cases hfull : m.sessions.size ≥ MaximumExecSessions
  · exact .inl ⟨_, (if_neg hshutdown).trans ((if_neg hcurrent).trans (if_pos hfull))⟩
  rw [if_neg hshutdown, if_neg hcurrent, if_neg hfull]
  cases hlookup : m.sessions.lookup sessionID with
  | some _ => exact .inl ⟨_, rfl⟩
  | none =>
    rw [not_eq_true, bne_eq_false_iff_eq] at hcurrent
    exact .inr ⟨eq_false_iff.mpr hshutdown, hcurrent, Nat.lt_of_not_le hfull, rfl, rfl⟩

theorem start_cases (c : Nat) (grant : ExecGrant) :
    Within m (m.Start c grant) ∨
      ∃ p, m.reservation? grant = some p ∧
        m.Start c grant = (m.stopTimer p).setCall c (.starting grant p) := by
  rw [Start]
  cases hreserved : m.reservation? grant with
  | none => exact .inl (Within.fail m c _)
  | some p =>
    by_cases hstale : ((m.session p).generation != grant.Generation ||
        m.generations.current != grant.Generation) = true
    · simp only [if_pos hstale]
      exact .inl ((Within.dropReservation m hreserved).trans (Within.fail _ c _))
    · exact .inr ⟨p, rfl, if_neg hstale⟩

theorem activate_cases (c p : Nat) :
    m.activate c p = m.fail c .CodeSessionGone ∨
      (m.sessions.lookup (m.session p).id = some p ∧ m.activate c p = m.setActive c p) := by
  by_cases hgone : (m.sessions.lookup (m.session p).id != some p || m.shutdown) = true
  · exact .inl (if_pos hgone)
  · refine .inr ⟨?_, if_neg hgone⟩
    rw [not_eq_true, or_eq_false_iff, bne_eq_false_iff_eq] at hgone
    exact hgone.1

end ExecManager

end Kubepeep.Actions.Exec
