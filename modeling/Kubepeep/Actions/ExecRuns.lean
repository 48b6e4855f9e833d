import Kubepeep.Actions.ExecFence

/-!
# Runs of the exec manager

What every interleaving keeps in which no two calls of `Start` hold on to one reservation and no
`Shutdown` overtakes another.  Without the first condition, the `Start` that fails drops the session
that the other one has made active.
-/

open List Function

namespace Kubepeep.Actions.Exec

open Kubepeep.System

variable {D E : Type} {hash : String → D} {ticketTTL : Int} {tokens : Set String}
  {m next : ExecManager D E} {action : Action E}

/-! ## What a step can do -/

/-- A step adds nothing, or it is one of the steps that add a ticket, a session or a sweep, make a
session active or end it. -/
inductive Effect (hash : String → D) (tokens : Set String) (m : ExecManager D E) :
    Action E → ExecManager D E → Prop where
  | within {action : Action E} {next : ExecManager D E} (h : Within m next) :
    Effect hash tokens m action next
  | addTicket {action : Action E} {between : ExecManager D E} (c : Nat) {sessionID : String}
    {ticket : ExecTicket D} (h : Within m between) (hserial : ticket.serial = between.nextTicket)
    (hhash : ticket.tokenHash = hash ticket.token) (htoken : ticket.token ∈ tokens)
    (hspace : between.tickets.size < maximumPendingTickets)
    (hlookup : between.tickets.lookup sessionID = none) :
    Effect hash tokens m action (between.addTicket c sessionID ticket)
  | takeTicket {action : Action E} {between : ExecManager D E} (c : Nat)
    (binding : SelectionBinding) {sessionID : String} {ticket : ExecTicket D}
    (h : Within m between) (hlookup : between.tickets.lookup sessionID = some ticket) :
    Effect hash tokens m action (between.takeTicket c binding sessionID ticket)
  | addSession {action : Action E} {c : Nat} {grant : ExecGrant} {ticket : ExecTicket D}
    (hticket : (m.call c).ticket? = some ticket.serial) (hshutdown : m.shutdown = false)
    (hcurrent : m.generations.current = grant.Generation)
    (hspace : m.sessions.size < MaximumExecSessions)
    (hlookup : m.sessions.lookup grant.SessionID = none) :
    Effect hash tokens m action (m.addSession c grant ticket)
  | setStarting {c p : Nat} (grant : ExecGrant) (hreserved : m.reservation? grant = some p) :
    Effect hash tokens m (.start c grant) ((m.stopTimer p).setCall c (.starting grant p))
  | setActive {action : Action E} {c p : Nat} (hsession : (m.call c).session? = some p)
    (hlookup : m.sessions.lookup (m.session p).id = some p) :
    Effect hash tokens m action (m.setActive c p)
  | finish {action : Action E} (p : Nat) : Effect hash tokens m action (m.finish p)
  | onGeneration {action : Action E} {s : Nat} (current : String) (h : m.sweep s = .idle) :
    Effect hash tokens m action (m.OnGeneration s current)
  | shutdown (s : Nat) : Effect hash tokens m (.shutdown s) (m.Shutdown s)
  | requestNext {action : Action E} {s p : Nat} {scope : Scope} {pending : List Nat}
    (h : m.sweep s = .sweeping scope (p :: pending)) :
    Effect hash tokens m action { m.requestTerminal p (terminalOf scope) with
      sweep := update m.sweep s (.sweeping scope pending) }
  | returnSweep {action : Action E} {s : Nat} {scope : Scope}
    (h : m.sweep s = .sweeping scope []) :
    Effect hash tokens m action
      { m with sweep := update m.sweep s (.returned scope) }

theorem Step.effect [DecidableEq D] (hsessions : Sessions m)
    (hstep : Step hash ticketTTL tokens m action next) : Effect hash tokens m action next := by
  cases hstep with
  | rotate next h =>
    exact .within ⟨.of_eq rfl rfl rfl, .of_eq rfl rfl rfl, .of_eq rfl,
      ⟨Generations.le_rotate next h, rfl, rfl⟩⟩
  | refuse err h => exact .within (.setCall m (.released rfl rfl))
  | createTicket binding h => exact .within (.setCall m (.released rfl rfl))
  | checkCreating h => exact .within (.checkCurrent m _ (.released rfl rfl))
  | review h => exact .within (.setCall m (.released rfl rfl))
  | draw sessionID token h =>
    refine .within (.checkCurrent m _ ?_)
    split <;> exact .released rfl rfl
  | @insertTicket c binding sessionID token now h htoken =>
    have hprune := Within.pruneTicketsLocked m now
    rcases (m.pruneTicketsLocked now).insertTicket_cases c sessionID
        ⟨m.nextTicket, token, hash token, binding, now + ticketTTL⟩ with
      ⟨code, heq⟩ | ⟨hspace, hlookup, heq⟩
    · rw [heq]
      exact .within (hprune.trans (.fail _ c code))
    · rw [heq]
      exact .addTicket c hprune rfl rfl htoken hspace hlookup
  | authorizeUpgrade binding sessionID offeredProtocols h hparse =>
    exact .within (.setCall m (.released rfl rfl))
  | malformed binding sessionID offeredProtocols h hparse =>
    exact .within (.setCall m (.released rfl rfl))
  | @consumeTicket c binding sessionID token now h htoken =>
    have hprune := Within.pruneTicketsLocked m now
    rcases (m.pruneTicketsLocked now).consumeTicket_cases c binding sessionID (hash token) with
      heq | ⟨ticket, hlookup, -, heq⟩
    · rw [heq]
      exact .within (hprune.trans (.fail _ c _))
    · rw [heq]
      exact .takeTicket c binding hprune hlookup
  | @checkConsumed c binding sessionID ticket h =>
    split_ifs with hbinding
    · exact .within (.fail m c _)
    · refine .within (.checkCurrent m _ ⟨?_, nofun⟩)
      rw [h]
      exact fun hticket => hticket
  | inspect h =>
    refine .within (.setCall m ⟨?_, nofun⟩)
    rw [h]
    exact fun hticket => hticket
  | lease leaseID h =>
    refine .within (.checkCurrent m _ ⟨?_, nofun⟩)
    rw [h]
    exact fun hticket => hticket
  | @reserve c binding sessionID leaseID ticket h =>
    rcases m.reserve_cases c binding sessionID leaseID ticket with
      ⟨code, heq⟩ | ⟨hshutdown, hcurrent, hspace, hlookup, heq⟩
    · rw [heq]
      exact .within (.fail m c code)
    · rw [heq]
      exact .addSession (by rw [h]; rfl) hshutdown hcurrent hspace hlookup
  | @start c grant h =>
    rcases m.start_cases c grant with hwithin | ⟨p, hreserved, heq⟩
    · exact .within hwithin
    · rw [heq]
      exact .setStarting grant hreserved
  | adapterStarted h | adapterFailed err h =>
    refine .within (.setCall m ⟨nofun, ?_⟩)
    rw [h]
    exact fun hsession => hsession
  | checkConnected h =>
    refine .within (.setCall m ⟨?_, ?_⟩)
    · split <;> exact nofun
    · rw [h]
      split <;> exact fun hsession => hsession
  | @removeRevoked c p h =>
    have hinactive : ¬ m.Active p := hsessions.not_active (by rw [h]; rfl)
    exact .within ((Within.removeReservation m hinactive).trans (.fail _ c _))
  | @removeFailing c p grant err h =>
    have hinactive : ¬ m.Active p := hsessions.not_active (by rw [h]; rfl)
    exact .within ((Within.removeReservation m hinactive).trans (.setCall _ (.released rfl rfl)))
  | checkRemoved h => exact .within (.checkCurrent m _ (.released rfl rfl))
  | checkShutdown h => exact .within (.setCall m (.released rfl rfl))
  | @activate c p grant h =>
    rcases m.activate_cases c p with heq | ⟨hlookup, heq⟩
    · rw [heq]
      exact .within (.fail m c _)
    · rw [heq]
      exact .setActive (by rw [h]; rfl) hlookup
  | abort sessionID reason h => exact .within (.findActive m _ _ _)
  | cancel sessionID h => exact .within (.findActive m _ _ _)
  | @requestTerminal c p terminal h =>
    exact .within ((Within.requestTerminal m p terminal).trans (.setCall _ (.released rfl rfl)))
  | releaseUpgrade grant h => exact .within (.ReleaseUpgrade m _ grant)
  | timeout code h hmonitor hcode => exact .within (.requestTerminal m _ _)
  | leaveLoop terminal h hmonitor => exact .within (.leaveLoop m terminal hmonitor)
  | finish h hmonitor => exact .finish _
  | fire h htimer => exact .within (.setSession m ⟨rfl, rfl, rfl, rfl, fun h => h⟩)
  | expireReservation h htimer => exact .within (.expireReservation m _)
  | onGeneration current h hseen => exact .onGeneration current h
  | shutdown h => exact .shutdown _
  | requestNext h => exact .requestNext h
  | returnSweep h => exact .returnSweep h

/-! ## One step keeps the invariants -/

/-- No `Start` begins on a reservation that another one holds on to, and no `Shutdown` while another
one has sessions to end. -/
def Calm (m : ExecManager D E) : Action E → Prop
  | .start _ grant => ∀ d p, m.reservation? grant = some p → (m.call d).session? ≠ some p
  | .shutdown _ => ∀ s pending, m.sweep s ≠ .sweeping .all pending
  | _ => True

section

variable (h : Inv hash tokens m)

include h

variable {ticket : ExecTicket D} {sessionID : String}

theorem Inv.addTicket (c : Nat) (hserial : ticket.serial = m.nextTicket)
    (hhash : ticket.tokenHash = hash ticket.token) (htoken : ticket.token ∈ tokens)
    (hspace : m.tickets.size < maximumPendingTickets)
    (hlookup : m.tickets.lookup sessionID = none) :
    Inv hash tokens (m.addTicket c sessionID ticket) where
  tickets := h.tickets.addTicket c hserial hhash htoken hspace hlookup
  sessions := by
    have hcreated : StartsWithin m (m.setCall c (.created sessionID)) := .setCall nofun
    exact h.sessions.within (.of_eq rfl rfl rfl) (hcreated.trans (.of_eq rfl))
  fence := h.fence.within (.of_eq rfl rfl rfl) (.of_eq rfl rfl rfl)

theorem Inv.takeTicket (c : Nat) (binding : SelectionBinding)
    (hlookup : m.tickets.lookup sessionID = some ticket) :
    Inv hash tokens (m.takeTicket c binding sessionID ticket) where
  tickets := h.tickets.takeTicket c binding hlookup
  sessions := by
    have hconsumed : StartsWithin m (m.setCall c (.consumed binding sessionID ticket)) :=
      .setCall nofun
    exact h.sessions.within (.of_eq rfl rfl rfl) (hconsumed.trans (.of_eq rfl))
  fence := h.fence.within (.of_eq rfl rfl rfl) (.of_eq rfl rfl rfl)

theorem Inv.onGeneration {s : Nat} (current : String)
    (hidle : m.sweep s = .idle) : Inv hash tokens (m.OnGeneration s current) where
  tickets := h.tickets.within
    ⟨rfl, Table.size_prune_le _, fun hlookup => (Table.lookup_prune_eq_some_iff.mp hlookup).1,
      fun hticket => hticket⟩
  sessions := by
    have hwithin := Within.dropReservations m fun generation => generation == current
    exact h.sessions.within (hwithin.toSessionsWithin.trans (.of_eq rfl rfl rfl)) (.of_eq rfl)
  fence := h.fence.onGeneration current hidle

theorem Inv.shutdown (s : Nat) (hcalm : Calm m (.shutdown s)) :
    Inv hash tokens (m.Shutdown s) := by
  have hfence : Fence (m.Shutdown s) := by
    apply h.fence.shutdown s
    intro _ r hscope
    cases hsweep : m.sweep r with
    | idle => rw [hsweep] at hscope; cases hscope
    | sweeping scope pending =>
      rw [hsweep] at hscope
      cases hscope
      exact absurd hsweep (hcalm r pending)
    | returned scope => rw [hsweep] at hscope; cases hscope; rfl
  rw [ExecManager.Shutdown] at hfence ⊢
  by_cases hshutdown : m.shutdown = true
  · rw [if_pos hshutdown] at hfence ⊢
    exact ⟨h.tickets.within (.of_eq rfl rfl rfl),
      h.sessions.within (.of_eq rfl rfl rfl) (.of_eq rfl), hfence⟩
  · rw [if_neg hshutdown] at hfence ⊢
    have hwithin := Within.dropReservations m fun _ => false
    refine ⟨h.tickets.within ⟨rfl, Nat.zero_le _, fun hlookup => (by cases hlookup),
      fun hticket => hticket⟩, ?_, hfence⟩
    exact h.sessions.within (hwithin.toSessionsWithin.trans (.of_eq rfl rfl rfl)) (.of_eq rfl)

theorem Step.inv [DecidableEq D]
    (hstep : Step hash ticketTTL tokens m action next) (hcalm : Calm m action) :
    Inv hash tokens next := by
  cases hstep.effect h.sessions with
  | within hwithin => exact h.within hwithin
  | addTicket c hwithin hserial hhash htoken hspace hlookup =>
    exact (h.within hwithin).addTicket c hserial hhash htoken hspace hlookup
  | takeTicket c binding hwithin hlookup => exact (h.within hwithin).takeTicket c binding hlookup
  | @addSession _ c grant ticket hticket hshutdown hcurrent hspace hlookup =>
    have hgranted : TicketsWithin m (m.setCall c (.granted grant ticket)) :=
      .setCall fun hnew => hticket.trans hnew
    exact ⟨h.tickets.within (hgranted.trans (.of_eq rfl rfl rfl)),
      h.sessions.addSession c ticket hspace hlookup,
      h.fence.addSession h.sessions c ticket hshutdown hcurrent⟩
  | @setStarting c p grant hreserved =>
    have hstarting : TicketsWithin m (m.setCall c (.starting grant p)) := .setCall nofun
    have hwithin := Within.stopTimer m p
    exact ⟨h.tickets.within (hstarting.trans (.of_eq rfl rfl rfl)),
      h.sessions.setStarting c grant hreserved fun d => hcalm d p hreserved,
      h.fence.within (hwithin.toSessionsWithin.trans (.of_eq rfl rfl rfl)) (.of_eq rfl rfl rfl)⟩
  | @setActive _ c p hsession hlookup =>
    have hstarted : TicketsWithin m (m.setCall c (.started p)) := .setCall nofun
    exact ⟨h.tickets.within (hstarted.trans (.of_eq rfl rfl rfl)),
      h.sessions.setActive hsession hlookup,
      h.fence.setActive c p⟩
  | finish p => exact
    ⟨h.tickets.within (.of_eq rfl rfl rfl), h.sessions.finish p, h.fence.finish p⟩
  | onGeneration current hidle => exact h.onGeneration current hidle
  | shutdown s => exact h.shutdown s hcalm
  | @requestNext _ s p scope pending hsweep =>
    have hwithin := Within.requestTerminal m p (terminalOf scope)
    exact ⟨h.tickets.within (.of_eq rfl rfl rfl),
      h.sessions.within (hwithin.toSessionsWithin.trans (.of_eq rfl rfl rfl)) (.of_eq rfl),
      h.fence.requestNext h.sessions hsweep⟩
  | returnSweep hsweep =>
    exact ⟨h.tickets.within (.of_eq rfl rfl rfl),
      h.sessions.within (.of_eq rfl rfl rfl) (.of_eq rfl), h.fence.returnSweep hsweep⟩

end

/-! ## Runs -/

def ExecManager.Holds (m : ExecManager D E) (p : Nat) : Prop :=
  (∃ id, m.sessions.lookup id = some p) ∨ m.Active p

structure Guarantees [DecidableEq D] (hash : String → D) (ticketTTL : Int) (tokens : Set String)
    (m : ExecManager D E) : Prop where
  /-- A ticket is granted to one call. -/
  granted : ∀ {c d first second ticket found}, m.call c = .granted first ticket →
    m.call d = .granted second found → ticket.serial = found.serial → c = d
  /-- An offer takes no ticket but the one of the session and the token that it names. -/
  offered : ∀ {c now binding sessionID token id ticket next},
    m.call c = .offered binding sessionID token →
    Step hash ticketTTL tokens m (.consumeTicket c now) next →
    m.tickets.lookup id = some ticket → now < ticket.expiresAt →
    (id = sessionID → token ≠ ticket.token) → next.tickets.lookup id = some ticket
  tickets : m.tickets.size ≤ maximumPendingTickets
  slots : ∀ held : Finset Nat, (∀ p ∈ held, m.Holds p) → held.card ≤ MaximumExecSessions
  /-- No session that a returned sweep covers stays active without a terminal request. -/
  ended : ∀ {s scope p}, m.sweep s = .returned scope →
    scope.covers (m.session p).generation = true → m.Active p →
      (m.session p).requestedTerminal.isSome
  /-- None becomes active. -/
  fenced : ∀ {s scope p action next}, m.sweep s = .returned scope →
    scope.covers (m.session p).generation = true → Step hash ticketTTL tokens m action next →
      next.Active p → m.Active p

theorem Sessions.slots (h : Sessions m) {held : Finset Nat} (hheld : ∀ p ∈ held, m.Holds p) :
    held.card ≤ MaximumExecSessions := by
  -- every slot has the row under its identifier, and a row is of one slot
  have hrow : ∀ p ∈ held, m.sessions.lookup (m.session p).id = some p := by
    intro p hp
    rcases hheld p hp with ⟨id, hlookup⟩ | hactive
    · rw [(h.row hlookup).2]
      exact hlookup
    · exact h.live hactive
  have hinjective : Set.InjOn (fun p => (m.session p).id) (held : Set Nat) := by
    intro p hp q hq hid
    have hsame := hrow p hp
    rw [show (m.session p).id = (m.session q).id from hid, hrow q hq] at hsame
    exact (Option.some.inj hsame).symm
  have hkeys : ∀ p ∈ held, (m.session p).id ∈ m.sessions.keys.toFinset := by
    intro p hp
    rw [mem_toFinset]
    exact AList.mem_keys.mp (AList.lookup_isSome.mp (by rw [hrow p hp]; rfl))
  calc held.card ≤ m.sessions.keys.toFinset.card :=
        Finset.card_le_card_of_injOn (fun p => (m.session p).id) hkeys hinjective
    _ ≤ m.sessions.keys.length := toFinset_card_le _
    _ = m.sessions.size := by rw [Table.size, AList.keys, keys, length_map]
    _ ≤ MaximumExecSessions := h.size

theorem Effect.active (h : Effect hash tokens m action next) {p : Nat} (hactive : next.Active p) :
    m.Active p ∨
      (m.sessions.lookup (m.session p).id = some p ∧ (m.session p).isFinished = false) := by
  cases h with
  | within hwithin => exact .inl ((hwithin.active_iff p).mp hactive)
  | addTicket c hwithin => exact .inl ((hwithin.active_iff p).mp hactive)
  | takeTicket c binding hwithin => exact .inl ((hwithin.active_iff p).mp hactive)
  | addSession =>
    exact .inl (of_update m.session (fun state => state.active = true ∧ state.isFinished = false)
      hactive fun hnew => nomatch hnew.1)
  | setStarting => exact .inl (((Within.stopTimer m _).active_iff p).mp hactive)
  | setActive hsession hlookup =>
    rcases update_cases m.session (fun state => state.active = true ∧ state.isFinished = false)
      hactive with ⟨rfl, hnew⟩ | ⟨-, hold⟩
    · exact .inr ⟨hlookup, hnew.2⟩
    · exact .inl hold
  | finish q =>
    exact .inl (of_update m.session (fun state => state.active = true ∧ state.isFinished = false)
      hactive fun hnew => nomatch hnew.2)
  | onGeneration current =>
    have hwithin := Within.dropReservations m fun generation => generation == current
    exact .inl ((hwithin.active_iff p).mp hactive)
  | shutdown s =>
    rw [ExecManager.Shutdown] at hactive
    split at hactive
    · exact .inl hactive
    · exact .inl (((Within.dropReservations m fun _ => false).active_iff p).mp hactive)
  | @requestNext _ s q scope pending =>
    exact .inl (((Within.requestTerminal m q (terminalOf scope)).active_iff p).mp hactive)
  | returnSweep => exact .inl hactive

theorem Tickets.offered [DecidableEq D] (h : Tickets hash tokens m)
    (hhash : Set.InjOn hash tokens) {c : Nat} {now : Int} {binding : SelectionBinding}
    {sessionID token id : String} {ticket : ExecTicket D}
    (hphase : m.call c = .offered binding sessionID token)
    (hstep : Step hash ticketTTL tokens m (.consumeTicket c now) next)
    (hlookup : m.tickets.lookup id = some ticket) (hexpires : now < ticket.expiresAt)
    (hwrong : id = sessionID → token ≠ ticket.token) :
    next.tickets.lookup id = some ticket := by
  cases hstep with
  | @consumeTicket _ _ sessionID offered _ hoffered htoken =>
    rw [hphase] at hoffered
    cases hoffered
    have hkept : (m.pruneTicketsLocked now).tickets.lookup id = some ticket :=
      Table.lookup_prune_eq_some_iff.mpr ⟨hlookup, decide_eq_true hexpires⟩
    rcases (m.pruneTicketsLocked now).consumeTicket_cases c binding sessionID (hash token) with
      heq | ⟨found, hfound, hsame, heq⟩
    · rw [heq]
      exact hkept
    · rw [heq]
      refine Table.lookup_erase_eq_some_iff.mpr ⟨?_, hkept⟩
      -- the digests agree, so the tokens do
      rintro rfl
      have hticket : ticket = found := Option.some.inj (hkept.symm.trans hfound)
      subst hticket
      have ⟨hstored, hknown⟩ := h.hashed hlookup
      exact hwrong rfl (hhash htoken hknown (hsame.symm.trans hstored))

theorem Inv.guarantees [DecidableEq D] (h : Inv hash tokens m) (hhash : Set.InjOn hash tokens) :
    Guarantees hash ticketTTL tokens m where
  granted {c d first second ticket found} hc hd hserial := by
    refine h.tickets.once (t := ticket.serial) ?_ ?_
    · rw [hc]
      rfl
    · rw [hd, hserial]
      rfl
  offered := h.tickets.offered hhash
  tickets := h.tickets.size
  slots _ := h.sessions.slots
  ended {s scope p} hsweep hcovers hactive := by
    have hended := (h.fence.swept (by rw [hsweep]; rfl) hcovers (h.sessions.live hactive)).2
    rw [hsweep] at hended
    exact hended.resolve_right not_mem_nil
  fenced {s scope p action next} hsweep hcovers hstep hactive := by
    rcases (hstep.effect h.sessions).active hactive with hbefore | ⟨hlookup, hfinished⟩
    · exact hbefore
    · exact ⟨(h.fence.swept (by rw [hsweep]; rfl) hcovers hlookup).1, hfinished⟩

/-- Every interleaving whose steps are calm, when no two of its tokens have one digest. -/
theorem exec_guarantees [DecidableEq D] {initial final : ExecManager D E}
    {actions : List (Action E)}
    (hhash : Set.InjOn hash tokens) (hnew : initial.New)
    (hruns : Runs (fun m action next => Step hash ticketTTL tokens m action next ∧ Calm m action)
      initial actions final) :
    Guarantees hash ticketTTL tokens final := by
  have hinv : Inv hash tokens final :=
    hruns.invariant hnew.inv fun h hstep => hstep.1.inv h hstep.2
  exact hinv.guarantees hhash

/-! ## One remote exec -/

/-- No `Start` can take the reservation any more. -/
def ExecManager.Gone (m : ExecManager D E) (p : Nat) : Prop :=
  p < m.nextSession ∧ ∀ id, m.sessions.lookup id = some p → (m.session p).active = true

/-- A call lets go of a reservation only when that is gone, and only a `Start` that begins takes one
to the adapter. -/
structure Moves (m : ExecManager D E) (action : Action E) (next : ExecManager D E) : Prop where
  held : ∀ {c p}, (m.call c).session? = some p → (next.call c).session? = some p ∨ next.Gone p
  starting : ∀ {c grant p}, next.call c = .starting grant p → m.call c = .starting grant p ∨
    (action = .start c grant ∧ m.reservation? grant = some p)

section

variable {c p : Nat} {phase : Phase D E}

theorem Moves.of_update (hcall : next.call = update m.call c phase)
    (hheld : ∀ {p}, (m.call c).session? = some p → phase.session? = some p ∨ next.Gone p)
    (hstarting : ∀ {grant p}, phase = .starting grant p →
      action = .start c grant ∧ m.reservation? grant = some p) : Moves m action next where
  held {d p} := by
    rw [hcall]
    exact (forall_update_iff m.call fun d after => (m.call d).session? = some p →
      after.session? = some p ∨ next.Gone p).mpr ⟨hheld, fun _ _ hold => .inl hold⟩ d
  starting {d grant p} := by
    rw [hcall]
    exact (forall_update_iff m.call fun d after => after = .starting grant p →
      m.call d = .starting grant p ∨ (action = .start d grant ∧ m.reservation? grant = some p)).mpr
      ⟨fun hnew => .inr (hstarting hnew), fun _ _ hold => .inl hold⟩ d

theorem Moves.quiet (hcall : next.call = update m.call c phase)
    (hbefore : (m.call c).session? = none) (hafter : phase.session? = none) :
    Moves m action next := by
  refine .of_update hcall ?_ ?_
  · intro p hsession
    rw [hbefore] at hsession
    cases hsession
  · rintro _ _ rfl
    cases hafter

theorem ExecManager.Gone.frame (h : m.Gone p) (hbound : m.nextSession ≤ next.nextSession)
    (hrow : ∀ {id}, next.sessions.lookup id = some p → m.sessions.lookup id = some p)
    (hactive : (m.session p).active = true → (next.session p).active = true) : next.Gone p :=
  ⟨h.1.trans_le hbound, fun id hlookup => hactive (h.2 id (hrow hlookup))⟩

theorem SessionsWithin.gone (h : SessionsWithin m next) (hgone : m.Gone p) : next.Gone p :=
  hgone.frame h.nextSession.ge h.sessions (h.session p).active.trans

theorem Effect.gone (h : Effect hash tokens m action next) (hgone : m.Gone p) : next.Gone p := by
  have hset : ∀ {q : Nat} {state : ExecSessionState},
      ((m.session q).active = true → state.active = true) → (m.session p).active = true →
        (update m.session q state p).active = true :=
    fun hstate => imp_update m.session (·.active = true) hstate p
  cases h with
  | within h | addTicket _ h | takeTicket _ _ h => exact h.toSessionsWithin.gone hgone
  | addSession =>
    have hp := Nat.ne_of_gt hgone.1
    refine hgone.frame (Nat.le_succ _) ?_ ?_
    · intro id hlookup
      exact ((Table.lookup_insert_eq_some_iff.mp hlookup).resolve_left fun hnew => hp hnew.2).2
    · exact (congrArg ExecSessionState.active (update_of_ne hp.symm ..)).trans
  | setStarting => exact (Within.stopTimer m _).toSessionsWithin.gone hgone
  | setActive => exact hgone.frame le_rfl (fun hlookup => hlookup) (hset fun _ => rfl)
  | finish q =>
    exact hgone.frame le_rfl (fun hlookup => (m.lookup_removeReservation.mp hlookup).1)
      (hset fun hactive => hactive)
  | onGeneration current =>
    exact (Within.dropReservations m fun generation => generation == current).toSessionsWithin.gone
      hgone
  | shutdown s =>
    rw [ExecManager.Shutdown]
    split_ifs
    · exact hgone
    · exact (Within.dropReservations m fun _ => false).toSessionsWithin.gone hgone
  | @requestNext _ s q scope =>
    exact (Within.requestTerminal m q (terminalOf scope)).toSessionsWithin.gone hgone
  | returnSweep => exact hgone

theorem Step.moves [DecidableEq D] (h : Inv hash tokens m)
    (hstep : Step hash ticketTTL tokens m action next) : Moves m action next := by
  have hcurrent : ∀ {c phase} (generation : String), (m.call c).session? = none →
      phase.session? = none → Moves m action (m.checkCurrent c generation phase) := by
    intro c phase generation hbefore hafter
    rw [ExecManager.checkCurrent]
    split_ifs
    · exact .quiet rfl hbefore hafter
    · exact .quiet rfl hbefore rfl
  cases hstep with
  | rotate | timeout | leaveLoop | finish | fire | onGeneration | requestNext | returnSweep =>
    exact ⟨.inl, .inl⟩
  | expireReservation =>
    rw [ExecManager.expireReservation]
    dsimp only
    split
    · exact ⟨.inl, .inl⟩
    · split_ifs <;> exact ⟨.inl, .inl⟩
  | shutdown =>
    rw [ExecManager.Shutdown]
    split_ifs <;> exact ⟨.inl, .inl⟩
  | @refuse c err hc =>
    refine .quiet rfl ?_ rfl
    cases hphase : m.call c <;> first | rfl | (rw [hphase] at hc; cases hc)
  | createTicket _ hc | review hc | authorizeUpgrade _ _ _ hc | malformed _ _ _ hc | inspect hc
  | checkShutdown hc | requestTerminal hc =>
    exact .quiet rfl (by rw [hc]; rfl) rfl
  | checkCreating hc | lease _ hc | checkRemoved hc => exact hcurrent _ (by rw [hc]; rfl) rfl
  | draw _ _ hc =>
    refine hcurrent _ (by rw [hc]; rfl) ?_
    split <;> rfl
  | checkConsumed hc =>
    split_ifs
    · exact .quiet rfl (by rw [hc]; rfl) rfl
    · exact hcurrent _ (by rw [hc]; rfl) rfl
  | @insertTicket c _ sessionID _ now hc =>
    rcases (m.pruneTicketsLocked now).insertTicket_cases c sessionID _ with
        ⟨_, heq⟩ | ⟨_, _, heq⟩ <;>
      exact .quiet (congrArg ExecManager.call heq) (by rw [hc]; rfl) rfl
  | @consumeTicket c binding sessionID token now hc =>
    rcases (m.pruneTicketsLocked now).consumeTicket_cases c binding sessionID (hash token) with
        heq | ⟨_, _, _, heq⟩ <;>
      exact .quiet (congrArg ExecManager.call heq) (by rw [hc]; rfl) rfl
  | @reserve c binding sessionID leaseID ticket hc =>
    rcases m.reserve_cases c binding sessionID leaseID ticket with
        ⟨_, heq⟩ | ⟨_, _, _, _, heq⟩ <;>
      exact .quiet (congrArg ExecManager.call heq) (by rw [hc]; rfl) rfl
  | @start c grant hc =>
    rw [ExecManager.Start]
    cases hreserved : m.reservation? grant with
    | none => exact .quiet rfl (by rw [hc]; rfl) rfl
    | some p =>
      dsimp only
      split_ifs
      · exact .quiet rfl (by rw [hc]; rfl) rfl
      · refine .of_update rfl ?_ ?_
        · rw [hc]
          intro p hsession
          cases hsession
        · intro _ _ hphase
          cases hphase
          exact ⟨rfl, hreserved⟩
  | adapterStarted hc | adapterFailed _ hc =>
    refine .of_update rfl ?_ (fun hphase => by cases hphase)
    rw [hc]
    exact .inl
  | checkConnected hc =>
    refine .of_update rfl ?_ ?_
    · rw [hc]
      split_ifs <;> exact .inl
    · intro _ _ hphase
      split_ifs at hphase
  | removeRevoked hc | removeFailing hc =>
    refine .of_update rfl (fun hsession => .inr ?_) fun hphase => by cases hphase
    have hbound := (h.sessions.starting hsession).1
    rw [hc] at hsession
    cases hsession
    refine ⟨hbound, fun id hlookup => ?_⟩
    obtain ⟨hrow, hother⟩ := m.lookup_removeReservation.mp hlookup
    exact absurd ⟨(h.sessions.row hrow).2.symm, rfl⟩ hother
  | @activate c p _ hc =>
    have hbound : p < m.nextSession := (h.sessions.starting (by rw [hc]; rfl)).1
    rw [ExecManager.activate]
    split_ifs with hgone
    · refine .of_update rfl (fun hsession => .inr ?_) fun hphase => by cases hphase
      rw [hc] at hsession
      cases hsession
      refine ⟨hbound, fun id (hlookup : m.sessions.lookup id = some p) => ?_⟩
      -- the manager is shut down, and only active sessions have a row
      rw [(h.sessions.row hlookup).2, hlookup, bne_self_eq_false, Bool.false_or] at hgone
      obtain ⟨s, hscope⟩ := h.fence.shut hgone
      exact (h.fence.swept hscope rfl hlookup).1
    · refine .of_update rfl (fun hsession => .inr ?_) fun hphase => by cases hphase
      rw [hc] at hsession
      cases hsession
      refine ⟨hbound, fun _ _ => ?_⟩
      show (update m.session p _ p).active = true
      rw [update_self]
  | abort _ _ hc | cancel _ hc =>
    rw [ExecManager.findActive]
    split <;> exact .quiet rfl (by rw [hc]; rfl) rfl
  | releaseUpgrade grant hc =>
    rw [ExecManager.ReleaseUpgrade]
    split <;> exact .quiet rfl (by rw [hc]; rfl) rfl

/-- The adapter has returned for the reservation, and no `Start` asks it again. -/
structure Spent (m : ExecManager D E) (p : Nat) : Prop where
  closed : (∃ c, (m.call c).session? = some p) ∨ m.Gone p
  quiet : ∀ {c grant}, m.call c ≠ .starting grant p

theorem Step.spent [DecidableEq D] (h : Inv hash tokens m) (hspent : Spent m p)
    (hstep : Step hash ticketTTL tokens m action next) (hcalm : Calm m action) : Spent next p where
  closed := by
    rcases hspent.closed with ⟨c, hsession⟩ | hgone
    · exact ((hstep.moves h).held hsession).imp_left fun hheld => ⟨c, hheld⟩
    · exact .inr ((hstep.effect h.sessions).gone hgone)
  quiet {c grant} hstarting := by
    rcases (hstep.moves h).starting hstarting with hold | ⟨rfl, hreserved⟩
    · exact hspent.quiet hold
    -- a `Start` that begins finds the reservation open and no other call on it
    · have ⟨hlookup, hinactive⟩ := ExecManager.reservation_inactive hreserved
      rcases hspent.closed with ⟨d, hsession⟩ | hgone
      · exact hcalm d p hreserved hsession
      · rw [hgone.2 _ hlookup] at hinactive
        cases hinactive

def CalmStep [DecidableEq D] (hash : String → D) (ticketTTL : Int) (tokens : Set String)
    (m : ExecManager D E) (action : Action E) (next : ExecManager D E) : Prop :=
  Step hash ticketTTL tokens m action next ∧ Calm m action

/-- In every interleaving whose steps are calm, once the adapter has started the remote exec of a
reservation no `Start` is ever about to start another. -/
theorem exec_starts_once [DecidableEq D] {initial final : ExecManager D E}
    {before later : List (Action E)} {grant : ExecGrant} (hnew : initial.New)
    (hbefore : Runs (CalmStep hash ticketTTL tokens) initial before m)
    (hstarting : m.call c = .starting grant p)
    (hstarted : Step hash ticketTTL tokens m (.adapterStarted c) next)
    (hlater : Runs (CalmStep hash ticketTTL tokens) next later final) (d : Nat)
    (other : ExecGrant) :
    final.call d ≠ .starting other p := by
  have hinv : Inv hash tokens m :=
    hbefore.invariant hnew.inv fun h hstep => hstep.1.inv h hstep.2
  have hheld : (m.call c).session? = some p := by rw [hstarting]; rfl
  have hspent : Spent next p := by
    have hmoves := hstarted.moves hinv
    refine ⟨(hmoves.held hheld).imp_left fun hsession => ⟨c, hsession⟩, ?_⟩
    intro e grant hnew
    rcases hmoves.starting hnew with hold | ⟨haction, -⟩
    · have he : e = c := hinv.sessions.single (by rw [hold]; rfl) hheld
      subst he
      cases hstarted with
      | adapterStarted =>
        rw [show (m.setCall e _).call e = _ from update_self ..] at hnew
        cases hnew
    · cases haction
  have hfinal := hlater.invariant (I := fun m => Inv hash tokens m ∧ Spent m p)
    ⟨hstarted.inv hinv trivial, hspent⟩
    fun h hstep => ⟨hstep.1.inv h.1 hstep.2, hstep.1.spent h.1 h.2 hstep.2⟩
  exact hfinal.2.quiet

end

/-! ## One reservation -/

def podBinding : SelectionBinding := ⟨"profile", "context", "g1"⟩

def podGrant : ExecGrant := ⟨"exec_1", "g1", "lease_1"⟩

def emptyManager : ExecManager String Unit where
  generations := ⟨"g1", [], List.not_mem_nil⟩
  shutdown := false
  tickets := ∅
  nextTicket := 0
  sessions := ∅
  nextSession := 0
  session _ := ⟨"", "", "", .stopped, false, none, .watching⟩
  call _ := .idle
  sweep _ := .idle

theorem emptyManager_new : emptyManager.New :=
  ⟨rfl, rfl, rfl, fun _ => rfl, fun _ => rfl, fun _ => rfl⟩

def reserving : List (Action Unit) :=
  [.createTicket 0 podBinding, .checkCurrent 0, .review 0, .draw 0 "exec_1" "t", .insertTicket 0 0,
    .authorizeUpgrade 1 podBinding "exec_1" ["kubepeep.exec.v1", "kp-ticket.t"],
    .consumeTicket 1 1, .checkCurrent 1, .review 1, .lease 1 "lease_1", .reserve 1]

def reserved : ExecManager String Unit where
  generations := emptyManager.generations
  shutdown := false
  tickets := ∅
  nextTicket := 1
  sessions := (∅ : Table String Nat).insert "exec_1" 0
  nextSession := 1
  session := update emptyManager.session 0
    ⟨"exec_1", "lease_1", "g1", .armed, false, none, .watching⟩
  call
    | 0 => .created "exec_1"
    | 1 => .granted podGrant ⟨0, "t", "t", podBinding, 10⟩
    | _ => .idle
  sweep := emptyManager.sweep

theorem runs_reserving :
    Runs (CalmStep id 10 Set.univ) emptyManager reserving reserved := by
  have hruns : ∃ m,
      Runs (CalmStep id 10 Set.univ) emptyManager reserving m ∧
        m.call = reserved.call ∧ m = { reserved with call := m.call } := by
    apply runs_cons ⟨.createTicket _ rfl, trivial⟩
    apply runs_cons ⟨.checkCreating rfl, trivial⟩
    apply runs_cons ⟨.review rfl, trivial⟩
    apply runs_cons ⟨.draw _ _ rfl, trivial⟩
    apply runs_cons ⟨.insertTicket _ rfl trivial, trivial⟩
    apply runs_cons ⟨.authorizeUpgrade _ _ _ rfl rfl, trivial⟩
    apply runs_cons ⟨.consumeTicket _ rfl trivial, trivial⟩
    apply runs_cons ⟨.checkConsumed rfl, trivial⟩
    apply runs_cons ⟨.inspect rfl, trivial⟩
    apply runs_cons ⟨.lease _ rfl, trivial⟩
    apply runs_cons ⟨.reserve rfl, trivial⟩
    refine ⟨_, .nil _, funext ?_, rfl⟩
    rintro (_ | _ | c) <;> rfl
  have ⟨m, hreserving, hcall, heq⟩ := hruns
  have hreserved : m = reserved := heq.trans (congrArg (fun call => { reserved with call }) hcall)
  exact hreserved ▸ hreserving

theorem reserved_calm : Calm reserved (.start 2 podGrant) := by
  rintro (_ | _ | d) p - <;> exact nofun

theorem runs_reserved
    {step : ExecManager String Unit → Action Unit → ExecManager String Unit → Prop}
    (hstep : ∀ {m action next}, CalmStep id 10 Set.univ m action next → step m action next)
    {later : List (Action Unit)} {P : ExecManager String Unit → Prop}
    (h : ∃ final, Runs step reserved later final ∧ P final) :
    ∃ final, Runs step emptyManager (reserving ++ later) final ∧ P final := by
  have hreserving := runs_reserving.history (I := Runs step emptyManager) (.nil _)
    fun hruns hlast => hruns.snoc (hstep hlast)
  have ⟨final, hlater, hfinal⟩ := h
  exact ⟨final, hreserving.trans hlater, hfinal⟩

/-- The session of one `Start` is told to end when its generation has changed. -/
theorem exec_guarantees_ended : ∃ final,
    Runs (fun m action next => Step id 10 Set.univ m action next ∧ Calm m action) emptyManager
      (reserving ++ [.start 2 podGrant, .adapterStarted 2, .checkCurrent 2, .activate 2,
        .rotate "g2", .onGeneration 0 "g2", .requestNext 0, .returnSweep 0]) final ∧
    Guarantees id 10 Set.univ final ∧ final.Active 0 ∧
    (final.session 0).requestedTerminal.isSome := by
  apply runs_with
  apply runs_reserved fun h => h
  apply runs_cons ⟨.start _ rfl, reserved_calm⟩
  apply runs_cons ⟨.adapterStarted rfl, trivial⟩
  apply runs_cons ⟨.checkConnected rfl, trivial⟩
  apply runs_cons ⟨.activate rfl, trivial⟩
  apply runs_cons ⟨.rotate "g2" (by decide), trivial⟩
  apply runs_cons ⟨.onGeneration _ rfl (by decide), trivial⟩
  apply runs_cons ⟨.requestNext rfl, trivial⟩
  apply runs_cons ⟨.returnSweep rfl, trivial⟩
  refine ⟨_, .nil _, fun hruns => ?_⟩
  have hguarantees := exec_guarantees (Set.injOn_id _) emptyManager_new hruns
  exact ⟨hguarantees, ⟨rfl, rfl⟩, @hguarantees.ended 0 (.older ["g1"] "g2") 0 rfl rfl ⟨rfl, rfl⟩⟩

/-- Two calls of `Start` on one grant.  The one whose adapter fails drops the session that the other
has made active: it has no slot, and `OnGeneration` returns without a terminal request for it.  And
a second `Shutdown` returns before the first has requested the terminal. -/
theorem start_drops_active :
    (∃ final, Runs (Step id 10 Set.univ) emptyManager
        (reserving ++ [.start 2 podGrant, .start 3 podGrant, .adapterStarted 2, .checkCurrent 2,
          .activate 2, .adapterFailed 3 none, .removeReservation 3, .rotate "g2",
          .onGeneration 0 "g2", .returnSweep 0]) final ∧
      final.sweep 0 = .returned (.older ["g1"] "g2") ∧ (final.session 0).generation = "g1" ∧
      final.Active 0 ∧ (final.session 0).requestedTerminal = none ∧ final.sessions.size = 0) ∧
    (∃ final, Runs (Step id 10 Set.univ) emptyManager
        (reserving ++ [.start 2 podGrant, .adapterStarted 2, .checkCurrent 2, .activate 2,
          .shutdown 0, .shutdown 1]) final ∧
      final.sweep 1 = .returned .all ∧ final.Active 0 ∧
      (final.session 0).requestedTerminal = none) := by
  constructor
  · apply runs_reserved And.left
    apply runs_cons (.start _ rfl)
    apply runs_cons (.start _ rfl)
    apply runs_cons (.adapterStarted rfl)
    apply runs_cons (.checkConnected rfl)
    apply runs_cons (.activate rfl)
    apply runs_cons (.adapterFailed _ rfl)
    apply runs_cons (.removeFailing rfl)
    apply runs_cons (.rotate _ (by decide))
    apply runs_cons (.onGeneration _ rfl (by decide))
    apply runs_cons (.returnSweep rfl)
    exact ⟨_, .nil _, rfl, rfl, ⟨rfl, rfl⟩, rfl, rfl⟩
  · apply runs_reserved And.left
    apply runs_cons (.start _ rfl)
    apply runs_cons (.adapterStarted rfl)
    apply runs_cons (.checkConnected rfl)
    apply runs_cons (.activate rfl)
    apply runs_cons (.shutdown rfl)
    apply runs_cons (.shutdown rfl)
    exact ⟨_, .nil _, rfl, ⟨rfl, rfl⟩, rfl⟩

/-- One `Start` makes its session active. -/
theorem exec_starts_once_active : ∃ final,
    Runs (CalmStep id 10 Set.univ) emptyManager (reserving ++ [.start 2 podGrant])
      (reserved.Start 2 podGrant) ∧
    Runs (CalmStep id 10 Set.univ) ((reserved.Start 2 podGrant).setCall 2 (.connected podGrant 0))
      [.checkCurrent 2, .activate 2] final ∧
    final.Active 0 ∧ ∀ d other, final.call d ≠ .starting other 0 := by
  have hbefore := runs_reserving.snoc ⟨.start podGrant rfl, reserved_calm⟩
  have hlater : ∃ final,
      Runs (CalmStep id 10 Set.univ) ((reserved.Start 2 podGrant).setCall 2 (.connected podGrant 0))
        [.checkCurrent 2, .activate 2] final ∧ final.Active 0 := by
    apply runs_cons ⟨.checkConnected rfl, trivial⟩
    apply runs_cons ⟨.activate rfl, trivial⟩
    exact ⟨_, .nil _, rfl, rfl⟩
  have ⟨final, hlater, hactive⟩ := hlater
  exact ⟨final, hbefore, hlater, hactive,
    exec_starts_once emptyManager_new hbefore rfl (.adapterStarted rfl) hlater⟩

/-- Two calls of `Start` on one grant, and the adapter starts two remote execs. -/
theorem remote_exec_twice : ∃ final,
    Runs (Step id 10 Set.univ) emptyManager (reserving ++ [.start 2 podGrant, .start 3 podGrant,
      .adapterStarted 2, .adapterStarted 3]) final ∧
    final.call 2 = .connected podGrant 0 ∧ final.call 3 = .connected podGrant 0 := by
  apply runs_reserved And.left
  apply runs_cons (.start _ rfl)
  apply runs_cons (.start _ rfl)
  apply runs_cons (.adapterStarted rfl)
  apply runs_cons (.adapterStarted rfl)
  exact ⟨_, .nil _, rfl, rfl⟩

end Kubepeep.Actions.Exec
