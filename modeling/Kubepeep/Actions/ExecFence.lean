import Kubepeep.Actions.ExecWithin

/-!
# The invariants of the exec manager

Three invariants, each with the steps that can break it: the tickets (who has taken which), the
sessions (an active session is never dropped, so the table counts it), and the fence (what a sweep
has not ended, it still has to end).
-/

open Nat Function

namespace Kubepeep.Actions.Exec

open Kubepeep.System

variable {D E : Type}

/-! ## Tickets -/

structure Tickets (hash : String → D) (tokens : Set String) (m : ExecManager D E) : Prop where
  size : m.tickets.size ≤ maximumPendingTickets
  hashed : ∀ {id ticket}, m.tickets.lookup id = some ticket →
    ticket.tokenHash = hash ticket.token ∧ ticket.token ∈ tokens
  serial : ∀ {id ticket}, m.tickets.lookup id = some ticket → ticket.serial < m.nextTicket
  distinct : ∀ {id other ticket found}, m.tickets.lookup id = some ticket →
    m.tickets.lookup other = some found → ticket.serial = found.serial → id = other
  taken : ∀ {c t}, (m.call c).ticket? = some t →
    t < m.nextTicket ∧ ∀ {id ticket}, m.tickets.lookup id = some ticket → ticket.serial ≠ t
  once : ∀ {c d t}, (m.call c).ticket? = some t → (m.call d).ticket? = some t → c = d

variable {hash : String → D} {tokens : Set String} {m next : ExecManager D E}

namespace Tickets

theorem within (h : Tickets hash tokens m) (hwithin : TicketsWithin m next) :
    Tickets hash tokens next where
  size := hwithin.ticketsSize.trans h.size
  hashed hlookup := h.hashed (hwithin.tickets hlookup)
  serial hlookup := by
    rw [hwithin.nextTicket]
    exact h.serial (hwithin.tickets hlookup)
  distinct hlookup hfound := h.distinct (hwithin.tickets hlookup) (hwithin.tickets hfound)
  taken hticket := by
    have ⟨hbound, hother⟩ := h.taken (hwithin.taken hticket)
    rw [hwithin.nextTicket]
    exact ⟨hbound, fun hlookup => hother (hwithin.tickets hlookup)⟩
  once hc hd := h.once (hwithin.taken hc) (hwithin.taken hd)

variable {ticket : ExecTicket D} {sessionID : String}

theorem addTicket (h : Tickets hash tokens m) (c : Nat) (hserial : ticket.serial = m.nextTicket)
    (hhash : ticket.tokenHash = hash ticket.token) (htoken : ticket.token ∈ tokens)
    (hspace : m.tickets.size < maximumPendingTickets)
    (hlookup : m.tickets.lookup sessionID = none) :
    Tickets hash tokens (m.addTicket c sessionID ticket) := by
  have hcreated : TicketsWithin m (m.setCall c (.created sessionID)) := .setCall nofun
  have hrow : ∀ {id found}, (m.tickets.insert sessionID ticket).lookup id = some found →
      (id = sessionID ∧ ticket = found) ∨ (id ≠ sessionID ∧ m.tickets.lookup id = some found) :=
    fun hfound => Table.lookup_insert_eq_some_iff.mp hfound
  refine ⟨?_, ?_, ?_, ?_, ?_, fun hc hd => h.once (hcreated.taken hc) (hcreated.taken hd)⟩
  · show Table.size (m.tickets.insert sessionID ticket) ≤ _
    rw [Table.size_insert hlookup]
    exact hspace
  · intro id found hfound
    rcases hrow hfound with ⟨_, rfl⟩ | ⟨_, hold⟩
    · exact ⟨hhash, htoken⟩
    · exact h.hashed hold
  · intro id found hfound
    rcases hrow hfound with ⟨_, rfl⟩ | ⟨_, hold⟩
    · exact hserial ▸ lt_succ_self _
    · exact lt_succ_of_lt (h.serial hold)
  · intro id other found second hfound hsecond hsame
    rcases hrow hfound with ⟨hid, rfl⟩ | ⟨_, hold⟩ <;>
      rcases hrow hsecond with ⟨hother, rfl⟩ | ⟨_, holder⟩
    · exact hid.trans hother.symm
    · exact absurd (h.serial holder) (by omega)
    · exact absurd (h.serial hold) (by omega)
    · exact h.distinct hold holder hsame
  · intro d t hticket
    have ⟨hbound, hother⟩ := h.taken (hcreated.taken hticket)
    refine ⟨lt_succ_of_lt hbound, ?_⟩
    intro id found hfound
    rcases hrow hfound with ⟨_, rfl⟩ | ⟨_, hold⟩
    · rw [hserial]
      exact ne_of_gt hbound
    · exact hother hold

theorem takeTicket (h : Tickets hash tokens m) (c : Nat) (binding : SelectionBinding)
    (hlookup : m.tickets.lookup sessionID = some ticket) :
    Tickets hash tokens (m.takeTicket c binding sessionID ticket) := by
  have hrow : ∀ {id found}, (m.tickets.erase sessionID).lookup id = some found →
      id ≠ sessionID ∧ m.tickets.lookup id = some found :=
    fun hfound => Table.lookup_erase_eq_some_iff.mp hfound
  have hcall : ∀ {d t}, ((m.takeTicket c binding sessionID ticket).call d).ticket? = some t →
      (d = c ∧ t = ticket.serial) ∨ (d ≠ c ∧ (m.call d).ticket? = some t) := by
    intro d t hticket
    rcases update_cases m.call (fun phase => phase.ticket? = some t) hticket with
      ⟨hd, hnew⟩ | hold
    · exact .inl ⟨hd, (Option.some.inj hnew).symm⟩
    · exact .inr hold
  refine ⟨(Table.size_erase_le _).trans h.size, fun hfound => h.hashed (hrow hfound).2,
    fun hfound => h.serial (hrow hfound).2, ?_, ?_, ?_⟩
  · intro id other found second hfound hsecond hsame
    exact h.distinct (hrow hfound).2 (hrow hsecond).2 hsame
  · intro d t hticket
    rcases hcall hticket with ⟨_, rfl⟩ | ⟨_, hold⟩
    · refine ⟨h.serial hlookup, ?_⟩
      intro id found hfound hsame
      exact (hrow hfound).1 (h.distinct (hrow hfound).2 hlookup hsame)
    · have ⟨hbound, hother⟩ := h.taken hold
      exact ⟨hbound, fun hfound => hother (hrow hfound).2⟩
  · intro d e t hd he
    rcases hcall hd with ⟨hdc, hfirst⟩ | ⟨_, hold⟩ <;>
      rcases hcall he with ⟨hec, hsecond⟩ | ⟨_, holder⟩
    · exact hdc.trans hec.symm
    · exact absurd hfirst.symm ((h.taken holder).2 hlookup)
    · exact absurd hsecond.symm ((h.taken hold).2 hlookup)
    · exact h.once hold holder

end Tickets

/-! ## Sessions -/

structure Sessions (m : ExecManager D E) : Prop where
  size : m.sessions.size ≤ MaximumExecSessions
  row : ∀ {id p}, m.sessions.lookup id = some p → p < m.nextSession ∧ (m.session p).id = id
  live : ∀ {p}, m.Active p → m.sessions.lookup (m.session p).id = some p
  starting : ∀ {c p}, (m.call c).session? = some p →
    p < m.nextSession ∧ (m.session p).active = false
  single : ∀ {c d p}, (m.call c).session? = some p → (m.call d).session? = some p → c = d

namespace Sessions

section

variable (h : Sessions m)

include h

theorem not_active {c p : Nat} (hsession : (m.call c).session? = some p) :
    ¬ m.Active p := by
  intro hactive
  have hinactive := (h.starting hsession).2
  rw [hactive.1] at hinactive
  cases hinactive

theorem within (hwithin : SessionsWithin m next) (hstarts : StartsWithin m next) :
    Sessions next where
  size := hwithin.sessionsSize.trans h.size
  row hlookup := by
    rw [hwithin.nextSession, (hwithin.session _).id]
    exact h.row (hwithin.sessions hlookup)
  live {p} hactive := by
    have hbefore := (hwithin.active_iff p).mp hactive
    rw [(hwithin.session p).id]
    exact hwithin.live hbefore (h.live hbefore)
  starting hsession := by
    rw [hwithin.nextSession, (hwithin.session _).active]
    exact h.starting (hstarts.starting hsession)
  single hc hd := h.single (hstarts.starting hc) (hstarts.starting hd)

theorem addSession (c : Nat) {grant : ExecGrant} (ticket : ExecTicket D)
    (hspace : m.sessions.size < MaximumExecSessions)
    (hlookup : m.sessions.lookup grant.SessionID = none) :
    Sessions (m.addSession c grant ticket) := by
  have hgranted : StartsWithin m (m.setCall c (.granted grant ticket)) := .setCall nofun
  -- the memory below `nextSession` is not touched
  have hold : ∀ {p}, p < m.nextSession → (m.addSession c grant ticket).session p = m.session p :=
    fun hp => update_of_ne (Nat.ne_of_lt hp) ..
  have hnew : (m.addSession c grant ticket).session m.nextSession =
      ⟨grant.SessionID, grant.leaseID, grant.Generation, .armed, false, none, .watching⟩ :=
    update_self ..
  refine ⟨?_, ?_, ?_, ?_, fun hc hd => h.single (hgranted.starting hc) (hgranted.starting hd)⟩
  · show Table.size (m.sessions.insert grant.SessionID m.nextSession) ≤ _
    rw [Table.size_insert hlookup]
    exact hspace
  · intro id p hrow
    rcases Table.lookup_insert_eq_some_iff.mp hrow with ⟨rfl, rfl⟩ | ⟨_, hrow⟩
    · rw [hnew]
      exact ⟨Nat.lt_succ_self _, rfl⟩
    · obtain ⟨hbound, hid⟩ := h.row hrow
      rw [hold hbound]
      exact ⟨Nat.lt_succ_of_lt hbound, hid⟩
  · intro p hactive
    rw [ExecManager.Active] at hactive
    by_cases hp : p = m.nextSession
    · rw [hp, hnew] at hactive
      cases hactive.1
    · have hsame : (m.addSession c grant ticket).session p = m.session p :=
        update_of_ne hp ..
      rw [hsame] at hactive ⊢
      have hrow := h.live hactive
      refine Table.lookup_insert_eq_some_iff.mpr (.inr ⟨?_, hrow⟩)
      intro hid
      rw [hid, hlookup] at hrow
      cases hrow
  · intro d p hsession
    obtain ⟨hbound, hinactive⟩ := h.starting (hgranted.starting hsession)
    rw [hold hbound]
    exact ⟨Nat.lt_succ_of_lt hbound, hinactive⟩

theorem setStarting (c : Nat) {p : Nat} (grant : ExecGrant)
    (hreserved : m.reservation? grant = some p) (hcalm : ∀ d, (m.call d).session? ≠ some p) :
    Sessions ((m.stopTimer p).setCall c (.starting grant p)) := by
  have ⟨hlookup, hinactive⟩ := ExecManager.reservation_inactive hreserved
  have hwithin := Within.stopTimer m p
  have hstopped := h.within hwithin.toSessionsWithin hwithin.toStartsWithin
  have hcall : ∀ {d q},
      (((m.stopTimer p).setCall c (.starting grant p)).call d).session? = some q →
        (d = c ∧ q = p) ∨ (d ≠ c ∧ (m.call d).session? = some q) := by
    intro d q hsession
    rcases update_cases m.call (fun phase => phase.session? = some q) hsession with
      ⟨hd, hnew⟩ | hold
    · exact .inl ⟨hd, (Option.some.inj hnew).symm⟩
    · exact .inr hold
  refine ⟨hstopped.size, hstopped.row, hstopped.live, ?_, ?_⟩
  · intro d q hsession
    rcases hcall hsession with ⟨_, rfl⟩ | ⟨_, hold⟩
    · exact ⟨(h.row hlookup).1, ((hwithin.session q).active).trans hinactive⟩
    · exact hstopped.starting hold
  · intro d e q hd he
    rcases hcall hd with ⟨hdc, hfirst⟩ | ⟨_, hold⟩ <;>
      rcases hcall he with ⟨hec, hsecond⟩ | ⟨_, holder⟩
    · exact hdc.trans hec.symm
    · exact absurd (hfirst ▸ holder) (hcalm e)
    · exact absurd (hsecond ▸ hold) (hcalm d)
    · exact h.single hold holder

theorem setActive {c p : Nat} (hp : (m.call c).session? = some p)
    (hlookup : m.sessions.lookup (m.session p).id = some p) : Sessions (m.setActive c p) := by
  have hstarted : StartsWithin m (m.setCall c (.started p)) := .setCall nofun
  have hid : ∀ q, ((m.setActive c p).session q).id = (m.session q).id :=
    update_same m.session (·.id) rfl
  have hsame : ∀ {q}, q ≠ p → (m.setActive c p).session q = m.session q :=
    fun hq => update_of_ne hq ..
  -- no other call holds on to the session that becomes active
  have hother : ∀ {d q}, ((m.setActive c p).call d).session? = some q → q ≠ p := by
    intro d q hsession hq
    have hd : d = c := h.single (hstarted.starting hsession) (hq ▸ hp)
    rcases update_cases m.call (fun phase => phase.session? = some q) hsession with
      ⟨-, hnew⟩ | hold
    · cases hnew
    · exact hold.1 hd
  refine ⟨h.size, ?_, ?_, ?_, fun hc hd => h.single (hstarted.starting hc) (hstarted.starting hd)⟩
  · intro id q hrow
    rw [hid q]
    exact h.row hrow
  · intro q hactive
    rw [hid q]
    by_cases hq : q = p
    · rw [hq]
      exact hlookup
    · rw [ExecManager.Active, hsame hq] at hactive
      exact h.live hactive
  · intro d q hsession
    rw [hsame (hother hsession)]
    exact h.starting (hstarted.starting hsession)

theorem finish (p : Nat) : Sessions (m.finish p) := by
  have hid : ∀ q, ((m.finish p).session q).id = (m.session q).id :=
    update_same m.session (·.id) rfl
  have hactive : ∀ q, ((m.finish p).session q).active = (m.session q).active :=
    update_same m.session (·.active) rfl
  refine ⟨(m.size_removeReservation p).trans h.size, ?_, ?_, ?_, h.single⟩
  · intro id q hlookup
    rw [hid q]
    exact h.row (m.lookup_removeReservation.mp hlookup).1
  · intro q hlive
    rw [hid q]
    rcases update_cases m.session (fun state => state.active = true ∧ state.isFinished = false)
      hlive with ⟨-, hnew⟩ | ⟨hq, hold⟩
    · cases hnew.2
    · exact m.lookup_removeReservation.mpr ⟨h.live hold, fun hrow => hq hrow.2⟩
  · intro c q hsession
    rw [hactive q]
    exact h.starting hsession

end

end Sessions

/-! ## The fence -/

/-- `swept`: the sessions in the scope of a sweep are active, and have been told to end or are still
to be told.  So no reservation is left in its scope that a `Start` could make active. -/
structure Fence (m : ExecManager D E) : Prop where
  older : ∀ {s retired current}, (m.sweep s).scope? = some (.older retired current) →
    ∀ old ∈ retired, old ∈ m.generations.retired
  all : ∀ {s}, (m.sweep s).scope? = some .all → m.shutdown = true
  shut : m.shutdown = true → ∃ s, (m.sweep s).scope? = some .all
  swept : ∀ {s scope id p}, (m.sweep s).scope? = some scope →
    scope.covers (m.session p).generation = true → m.sessions.lookup id = some p →
      (m.session p).active = true ∧
        ((m.session p).requestedTerminal.isSome ∨ p ∈ (m.sweep s).pending)

namespace Fence

section

variable (h : Fence m)

include h

theorem frame (hsweeps : SweepsWithin m next)
    (hsessions : ∀ {id p}, next.sessions.lookup id = some p → m.sessions.lookup id = some p)
    (hgeneration : ∀ p, (next.session p).generation = (m.session p).generation)
    (hactive : ∀ p, (m.session p).active = true → (next.session p).active = true)
    (hrequested : ∀ p, (m.session p).requestedTerminal.isSome →
      (next.session p).requestedTerminal.isSome) : Fence next where
  older hscope old hold := by
    rw [hsweeps.sweep] at hscope
    exact hsweeps.generations.retired old (h.older hscope old hold)
  all hscope := by
    rw [hsweeps.sweep] at hscope
    rw [hsweeps.shutdown]
    exact h.all hscope
  shut hshutdown := by
    rw [hsweeps.shutdown] at hshutdown
    rw [hsweeps.sweep]
    exact h.shut hshutdown
  swept {s scope id p} hscope hcovers hlookup := by
    rw [hsweeps.sweep] at hscope ⊢
    rw [hgeneration p] at hcovers
    have ⟨hbefore, hended⟩ := h.swept hscope hcovers (hsessions hlookup)
    exact ⟨hactive p hbefore, hended.imp_left (hrequested p)⟩

theorem within (hwithin : SessionsWithin m next) (hsweeps : SweepsWithin m next) :
    Fence next :=
  h.frame hsweeps hwithin.sessions (fun p => (hwithin.session p).generation)
    (fun p hactive => (hwithin.session p).active.trans hactive)
    (fun p => (hwithin.session p).requested)

theorem not_current {s : Nat} {scope : Scope}
    (hscope : (m.sweep s).scope? = some scope) (hshutdown : m.shutdown = false) :
    scope.covers m.generations.current = false := by
  cases scope with
  | all =>
    rw [h.all hscope] at hshutdown
    cases hshutdown
  | older retired current =>
    have hfresh : m.generations.current ∉ retired :=
      fun hold => m.generations.fresh (h.older hscope _ hold)
    simp [Scope.covers, hfresh]

theorem addSession (hsessions : Sessions m) (c : Nat) {grant : ExecGrant}
    (ticket : ExecTicket D) (hshutdown : m.shutdown = false)
    (hcurrent : m.generations.current = grant.Generation) :
    Fence (m.addSession c grant ticket) where
  older := h.older
  all := h.all
  shut := h.shut
  swept {s scope id p} hscope hcovers hlookup := by
    rcases Table.lookup_insert_eq_some_iff.mp hlookup with ⟨-, rfl⟩ | ⟨-, hrow⟩
    · -- the new session is of the current generation, which no sweep covers
      have hnew : ((m.addSession c grant ticket).session m.nextSession).generation =
          m.generations.current := by
        rw [hcurrent, ExecManager.addSession]
        simp only [update_self]
      rw [hnew, h.not_current hscope hshutdown] at hcovers
      cases hcovers
    · have hold : (m.addSession c grant ticket).session p = m.session p :=
        update_of_ne (Nat.ne_of_lt (hsessions.row hrow).1) ..
      rw [hold] at hcovers ⊢
      exact h.swept hscope hcovers hrow

theorem setActive (c p : Nat) : Fence (m.setActive c p) := by
  refine h.frame (.of_eq rfl rfl rfl) (fun hlookup => hlookup) ?_ ?_ ?_
  · exact update_same m.session (·.generation) rfl
  · exact imp_update m.session (·.active = true) fun _ => rfl
  · exact imp_update m.session (·.requestedTerminal.isSome) fun hrequested => hrequested

theorem finish (p : Nat) : Fence (m.finish p) := by
  refine h.frame (.of_eq rfl rfl rfl)
    (fun hlookup => (m.lookup_removeReservation.mp hlookup).1) ?_ ?_ ?_
  · exact update_same m.session (·.generation) rfl
  · exact imp_update m.session (·.active = true) fun hactive => hactive
  · exact imp_update m.session (·.requestedTerminal.isSome) fun hrequested => hrequested

theorem setSweep (s : Nat) (phase : Sweep) (shutdown : Bool)
    (holder : ∀ {retired current}, phase.scope? = some (.older retired current) →
      ∀ old ∈ retired, old ∈ m.generations.retired)
    (hall : phase.scope? = some .all → shutdown = true)
    (hmono : m.shutdown = true → shutdown = true)
    (hshut : shutdown = true → phase.scope? = some .all ∨
      (m.shutdown = true ∧ (m.sweep s).scope? ≠ some .all))
    (hswept : ∀ {scope id p}, phase.scope? = some scope →
      scope.covers (m.session p).generation = true → m.sessions.lookup id = some p →
        (m.session p).active = true ∧
          ((m.session p).requestedTerminal.isSome ∨ p ∈ phase.pending)) :
    Fence { m with shutdown := shutdown, sweep := update m.sweep s phase } where
  older {r retired current} := (forall_update_iff m.sweep fun _ sweep =>
    sweep.scope? = some (.older retired current) → ∀ old ∈ retired, old ∈ m.generations.retired).mpr
      ⟨holder, fun _ _ => h.older⟩ r
  all {r} := (forall_update_iff m.sweep fun _ sweep =>
    sweep.scope? = some .all → shutdown = true).mpr ⟨hall, fun _ _ hscope => hmono (h.all hscope)⟩ r
  shut hshutdown := by
    rcases hshut hshutdown with hnew | ⟨hbefore, hother⟩
    · refine ⟨s, ?_⟩
      show (update m.sweep s phase s).scope? = _
      rw [update_self]
      exact hnew
    · have ⟨r, hscope⟩ := h.shut hbefore
      have hr : r ≠ s := fun heq => hother (heq ▸ hscope)
      refine ⟨r, ?_⟩
      show (update m.sweep s phase r).scope? = _
      rw [update_of_ne hr]
      exact hscope
  swept {r scope id p} := (forall_update_iff m.sweep fun _ sweep =>
    sweep.scope? = some scope → scope.covers (m.session p).generation = true →
      m.sessions.lookup id = some p → (m.session p).active = true ∧
        ((m.session p).requestedTerminal.isSome ∨ p ∈ sweep.pending)).mpr
      ⟨hswept, fun _ _ => h.swept⟩ r

end

/-- What a sweep finds under the lock: in its scope, only active sessions are left. -/
theorem swept_dropReservations (keep : String → Bool) {id : String} {p : Nat}
    (hkeep : keep ((m.dropReservations keep).session p).generation = false)
    (hlookup : (m.dropReservations keep).sessions.lookup id = some p) :
    ((m.dropReservations keep).session p).active = true ∧ p ∈ m.sweepable keep := by
  have hsame := (Within.dropReservations m keep).session p
  have ⟨hrow, hkept⟩ := Table.lookup_prune_eq_some_iff.mp hlookup
  rw [hsame.generation] at hkeep
  rw [hkeep, Bool.false_or] at hkept
  rw [hsame.active]
  refine ⟨hkept, List.mem_filter.mpr ⟨?_, ?_⟩⟩
  · exact List.mem_map.mpr ⟨⟨id, p⟩, Table.lookup_eq_some_iff.mp hrow, rfl⟩
  · rw [hkeep, hkept]
    rfl

variable {s : Nat}

theorem onGeneration (h : Fence m) (current : String) (hidle : m.sweep s = .idle) :
    Fence (m.OnGeneration s current) := by
  have hwithin := Within.dropReservations m fun generation => generation == current
  have hdropped := h.within hwithin.toSessionsWithin hwithin.toSweepsWithin
  refine (hdropped.setSweep s (.sweeping (.older m.generations.retired current)
      (m.sweepable fun generation => generation == current)) m.shutdown ?_ ?_ ?_ ?_ ?_).frame
      (.of_eq rfl rfl rfl)
    (fun hlookup => hlookup) (fun _ => rfl) (fun _ hactive => hactive)
    (fun _ hrequested => hrequested)
  · rintro retired _ ⟨⟩ old hold
    exact hold
  · exact nofun
  · exact fun hshutdown => hshutdown
  · intro hshutdown
    refine .inr ⟨hshutdown, ?_⟩
    show (m.sweep s).scope? ≠ _
    rw [hidle]
    exact nofun
  · rintro _ id p ⟨⟩ hcovers hlookup
    rw [Scope.covers, Bool.and_eq_true, bne_iff_ne] at hcovers
    have ⟨hactive, hpending⟩ := swept_dropReservations (fun generation => generation == current)
      (beq_false_of_ne hcovers.2) hlookup
    exact ⟨hactive, .inr hpending⟩

/-- A second `Shutdown` returns at once, so it is one behind the end of the first. -/
theorem shutdown (h : Fence m) (s : Nat)
    (hcalm : m.shutdown = true → ∀ {r}, (m.sweep r).scope? = some .all →
      m.sweep r = .returned .all) :
    Fence (m.Shutdown s) := by
  rw [ExecManager.Shutdown]
  split_ifs with hshutdown
  · have ⟨r, hscope⟩ := h.shut hshutdown
    have hreturned := hcalm hshutdown hscope
    refine h.setSweep s (.returned .all) m.shutdown nofun (fun _ => hshutdown)
      (fun hbefore => hbefore) (fun _ => .inl rfl) ?_
    rintro _ id p ⟨⟩ hcovers hlookup
    have ⟨hactive, hended⟩ := h.swept hscope hcovers hlookup
    rw [hreturned] at hended
    exact ⟨hactive, hended⟩
  · have hwithin := Within.dropReservations m fun _ => false
    have hdropped := h.within hwithin.toSessionsWithin hwithin.toSweepsWithin
    refine (hdropped.setSweep s (.sweeping .all (m.sweepable fun _ => false)) true nofun
      (fun _ => rfl) (fun _ => rfl) (fun _ => .inl rfl) ?_).frame
      (.of_eq rfl rfl rfl) (fun hlookup => hlookup)
      (fun _ => rfl)
      (fun _ hactive => hactive) (fun _ hrequested => hrequested)
    rintro _ id p ⟨⟩ - hlookup
    have ⟨hactive, hpending⟩ := swept_dropReservations (fun _ => false) rfl hlookup
    exact ⟨hactive, .inr hpending⟩

variable {scope : Scope}

theorem advance (h : Fence m) {phase : Sweep}
    (hscope : (m.sweep s).scope? = some scope) (hphase : phase.scope? = some scope)
    (hswept : ∀ {id p}, scope.covers (m.session p).generation = true →
      m.sessions.lookup id = some p → (m.session p).active = true ∧
        ((m.session p).requestedTerminal.isSome ∨ p ∈ phase.pending)) :
    Fence { m with sweep := update m.sweep s phase } := by
  rw [← hphase] at hscope
  refine h.setSweep s phase m.shutdown ?_ ?_ ?_ ?_ ?_
  · intro retired current hnew
    exact h.older (hscope.trans hnew)
  · intro hnew
    exact h.all (hscope.trans hnew)
  · exact fun hshutdown => hshutdown
  · intro hshutdown
    by_cases hall : phase.scope? = some .all
    · exact .inl hall
    · exact .inr ⟨hshutdown, fun hbefore => hall (hscope.symm.trans hbefore)⟩
  · intro found id p hfound hcovers hlookup
    rw [hphase] at hfound
    cases hfound
    exact hswept hcovers hlookup

theorem requestNext (h : Fence m) (hsessions : Sessions m) {s p : Nat}
    {pending : List Nat} (hsweep : m.sweep s = .sweeping scope (p :: pending)) :
    Fence { m.requestTerminal p (terminalOf scope) with
      sweep := update m.sweep s (.sweeping scope pending) } := by
  have hwithin := Within.requestTerminal m p (terminalOf scope)
  have hrequested := h.within hwithin.toSessionsWithin hwithin.toSweepsWithin
  have hscope : ((m.requestTerminal p (terminalOf scope)).sweep s).scope? = some scope := by
    rw [hwithin.sweep, hsweep]
    rfl
  apply hrequested.advance hscope rfl
  intro id q hcovers hlookup
  have ⟨hactive, hended⟩ := hrequested.swept hscope hcovers hlookup
  refine ⟨hactive, ?_⟩
  by_cases hq : q = p
  · subst hq
    refine .inl (m.requestedTerminal_requestTerminal ?_)
    rw [(hsessions.row hlookup).2]
    exact hlookup
  · rw [hwithin.sweep, hsweep] at hended
    exact hended.imp_right fun hmem => (List.mem_cons.mp hmem).resolve_left hq

theorem returnSweep (h : Fence m) (hsweep : m.sweep s = .sweeping scope []) :
    Fence { m with sweep := update m.sweep s (.returned scope) } := by
  have hscope : (m.sweep s).scope? = some scope := by rw [hsweep]; rfl
  apply h.advance hscope rfl
  intro id q hcovers hlookup
  have hended := h.swept hscope hcovers hlookup
  rw [hsweep] at hended
  exact hended

end Fence

/-! ## The three together -/

structure Inv (hash : String → D) (tokens : Set String) (m : ExecManager D E) : Prop where
  tickets : Tickets hash tokens m
  sessions : Sessions m
  fence : Fence m

theorem Inv.within (h : Inv hash tokens m) (hwithin : Within m next) : Inv hash tokens next where
  tickets := h.tickets.within hwithin.toTicketsWithin
  sessions := h.sessions.within hwithin.toSessionsWithin hwithin.toStartsWithin
  fence := h.fence.within hwithin.toSessionsWithin hwithin.toSweepsWithin

theorem ExecManager.New.inv (h : m.New) : Inv hash tokens m where
  tickets := by
    have hempty : ∀ {id ticket}, m.tickets.lookup id ≠ some ticket := by
      rw [h.tickets]
      exact nofun
    have hidle : ∀ {c t}, (m.call c).ticket? ≠ some t := by
      intro c
      rw [h.call c]
      exact nofun
    refine ⟨?_, fun hlookup => absurd hlookup hempty, fun hlookup => absurd hlookup hempty,
      fun hlookup => absurd hlookup hempty, fun hticket => absurd hticket hidle,
      fun hticket => absurd hticket hidle⟩
    rw [h.tickets]
    exact zero_le _
  sessions := by
    have hidle : ∀ {c p}, (m.call c).session? ≠ some p := by
      intro c
      rw [h.call c]
      exact nofun
    refine ⟨?_, ?_, ?_, fun hsession => absurd hsession hidle,
      fun hsession => absurd hsession hidle⟩
    · rw [h.sessions]
      exact zero_le _
    · rw [h.sessions]
      exact nofun
    · intro p hactive
      have hinactive := h.active p
      rw [hactive.1] at hinactive
      cases hinactive
  fence := by
    have hidle : ∀ {s scope}, (m.sweep s).scope? ≠ some scope := by
      intro s
      rw [h.sweep s]
      exact nofun
    refine ⟨fun hscope => absurd hscope hidle, fun hscope => absurd hscope hidle, ?_,
      fun hscope => absurd hscope hidle⟩
    rw [h.shutdown]
    exact nofun

end Kubepeep.Actions.Exec
