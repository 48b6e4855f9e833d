import Kubepeep.Actions.Generations
import Kubepeep.Lib.System
import Kubepeep.Lib.Table

/-!
# Exec sessions

The manager of `internal/services/actions/exec.go` and `exec_abort.go`.  A ticket is drawn, consumed
by the upgrade that offers its token, and turned into a reservation; `Start` makes the reservation
an active session, which its monitor finishes.  Every section under the lock of the manager is one
step, and so is every read of the current generation outside it.  The authorizer, the inspector, the
adapter, the clock, the identifiers and the digest of the tokens are the environment.
-/

open Function

namespace Kubepeep.Actions.Exec

open Kubepeep.System

def ExecWebSocketProtocol : String := "kubepeep.exec.v1"

def ExecTicketPrefix : String := "kp-ticket."

def maximumPendingTickets : Nat := 128

def MaximumExecSessions : Nat := 2

/-- `environment` is an error of the authorizer, the inspector, the identifiers or the adapter. -/
inductive ExecError (E : Type) where
  | code (code : ErrorCode)
  | validation (field rule : String)
  | environment (err : E)
  deriving DecidableEq, Repr

/-! ## Protocols -/

section Protocols

variable {E : Type}

def protocolError : ExecError E :=
  .validation "Sec-WebSocket-Protocol" "exec_protocol_and_one_ticket"

/-- The loop of `parseExecProtocols`. -/
def scanProtocols : List String → Bool → String → Except (ExecError E) (Bool × String)
  | [], seenProtocol, ticket => .ok (seenProtocol, ticket)
  | protocol :: protocols, seenProtocol, ticket =>
    if protocol == ExecWebSocketProtocol && !seenProtocol then scanProtocols protocols true ticket
    else
      match protocol.toList.dropPrefix? ExecTicketPrefix.toList with
      | some rest =>
        if ticket == "" then scanProtocols protocols seenProtocol (String.ofList rest)
        else .error protocolError
      | none => .error protocolError

/-- `strings.ContainsAny(text, ", \t\r\n")` -/
def containsSeparator (text : String) : Bool := text.toList.any ", \t\r\n".toList.contains

def parseExecProtocols (protocols : List String) : Except (ExecError E) String :=
  if protocols.length != 2 then .error protocolError
  else do
    let (seenProtocol, ticket) ← scanProtocols protocols false ""
    if !seenProtocol || ticket == "" || ticket.utf8ByteSize > 256 || containsSeparator ticket then
      .error protocolError
    else
      .ok ticket

end Protocols

/-! ## Tickets, sessions and calls -/

structure SelectionBinding where
  ClusterProfileID : String
  Context : String
  Generation : String
  deriving DecidableEq, Repr

/-- `serial` stands for the address of the ticket, and `token` is the token that the caller of
`CreateTicket` has received; the manager keeps only its digest. -/
structure ExecTicket (D : Type) where
  serial : Nat
  token : String
  tokenHash : D
  binding : SelectionBinding
  expiresAt : Int
  deriving DecidableEq, Repr

structure ExecGrant where
  SessionID : String
  Generation : String
  leaseID : String
  deriving DecidableEq, Repr

inductive ExecExitReason where
  | completed
  | signal
  | canceled
  deriving DecidableEq, Repr

inductive ExecTerminal where
  | exit (exitCode : Option Int) (reason : ExecExitReason) (closeCode : Nat)
  | error (code : ErrorCode) (retryable : Bool) (closeCode : Nat)
  deriving DecidableEq, Repr

inductive ExecAbortReason where
  | ExecAbortProtocolViolation
  | ExecAbortBackpressure
  | ExecAbortMessageTooLarge
  | ExecAbortInternal
  deriving DecidableEq, Repr

def ExecAbortReason.terminal : ExecAbortReason → ExecTerminal
  | .ExecAbortProtocolViolation => .error .CodeProtocolViolation false 1008
  | .ExecAbortBackpressure => .error .CodeLimitExceeded true 1008
  | .ExecAbortMessageTooLarge => .error .CodeLimitExceeded false 1009
  | .ExecAbortInternal => .error .CodeInternal false 1011

/-- The timer of a reservation.  `Stop` has no effect on one that has fired. -/
inductive Timer where
  | armed
  | stopped
  | fired
  | done
  deriving DecidableEq, Repr

def Timer.stop : Timer → Timer
  | .armed => .stopped
  | timer => timer

/-- The monitor of an active session.  `finishing` has left its loop. -/
inductive Monitor where
  | watching
  | finishing (terminal : ExecTerminal)
  | finished
  deriving DecidableEq, Repr

structure ExecSessionState where
  id : String
  leaseID : String
  generation : String
  reservationTimer : Timer
  active : Bool
  requestedTerminal : Option ExecTerminal
  monitor : Monitor
  deriving DecidableEq, Repr

def ExecSessionState.stopTimer (state : ExecSessionState) : ExecSessionState :=
  { state with reservationTimer := state.reservationTimer.stop }

/-- A call of one of the methods.  A session is named by its address. -/
inductive Phase (D E : Type) where
  | idle
  | creating (binding : SelectionBinding)
  | reviewing (binding : SelectionBinding)
  | reviewed (binding : SelectionBinding)
  | drawn (binding : SelectionBinding) (sessionID token : String)
  | created (sessionID : String)
  | offered (binding : SelectionBinding) (sessionID token : String)
  | consumed (binding : SelectionBinding) (sessionID : String) (ticket : ExecTicket D)
  | inspecting (binding : SelectionBinding) (sessionID : String) (ticket : ExecTicket D)
  | inspected (binding : SelectionBinding) (sessionID : String) (ticket : ExecTicket D)
  | leased (binding : SelectionBinding) (sessionID leaseID : String) (ticket : ExecTicket D)
  | granted (grant : ExecGrant) (ticket : ExecTicket D)
  | starting (grant : ExecGrant) (session : Nat)
  | connected (grant : ExecGrant) (session : Nat)
  | confirmed (grant : ExecGrant) (session : Nat)
  | revoked (session : Nat)
  | failing (grant : ExecGrant) (session : Nat) (err : Option E)
  | removed (grant : ExecGrant) (err : Option E)
  | rechecked (err : Option E)
  | started (session : Nat)
  | aborting (session : Nat) (terminal : ExecTerminal)
  | returned
  | failed (err : ExecError E)
  deriving DecidableEq, Repr

/-- A call of `OnGeneration` or of `Shutdown` with the sessions it still has to end. -/
inductive Sweep where
  | idle
  | sweeping (scope : Scope) (pending : List Nat)
  | returned (scope : Scope)
  deriving DecidableEq, Repr

def terminalOf : Scope → ExecTerminal
  | .older _ _ => .error .CodeGenerationChanged false 1001
  | .all => .error .CodeServerShutdown true 1001

/-- The manager with the calls in progress.  `session` is the memory that holds the session states,
from which `nextSession` allocates. -/
structure ExecManager (D E : Type) where
  generations : Generations
  shutdown : Bool
  tickets : Table String (ExecTicket D)
  nextTicket : Nat
  sessions : Table String Nat
  nextSession : Nat
  session : Nat → ExecSessionState
  call : Nat → Phase D E
  sweep : Nat → Sweep

/-! ## Sections -/

namespace ExecManager

variable {D E : Type} (m : ExecManager D E) (c : Nat)

def setCall (phase : Phase D E) : ExecManager D E :=
  { m with call := update m.call c phase }

def fail (code : ErrorCode) : ExecManager D E :=
  m.setCall c (.failed (.code code))

variable (p : Nat)

def setSession (state : ExecSessionState) : ExecManager D E :=
  { m with session := update m.session p state }

def stopTimer : ExecManager D E :=
  m.setSession p (m.session p).stopTimer

variable (sessionID : String)

/-- `delete(m.sessions, sessionID)` -/
def dropSession : ExecManager D E :=
  { m with sessions := m.sessions.erase sessionID }

def pruneTicketsLocked (now : Int) : ExecManager D E :=
  { m with tickets := m.tickets.prune fun _ ticket => now < ticket.expiresAt }

/-- `requireCurrent` outside the lock. -/
def checkCurrent (generation : String) (phase : Phase D E) : ExecManager D E :=
  if m.generations.requireCurrent generation then m.setCall c phase
  else m.fail c .CodeGenerationChanged

/-- `m.tickets[sessionID] = ticket` -/
def addTicket (ticket : ExecTicket D) : ExecManager D E :=
  { m with
    tickets := m.tickets.insert sessionID ticket
    nextTicket := m.nextTicket + 1
    call := update m.call c (.created sessionID) }

/-- The section of `CreateTicket`, behind `pruneTicketsLocked`. -/
def insertTicket (ticket : ExecTicket D) : ExecManager D E :=
  if m.shutdown then m.fail c .CodeServerShutdown
  else if m.generations.current != ticket.binding.Generation then m.fail c .CodeGenerationChanged
  else if m.tickets.size ≥ maximumPendingTickets then m.fail c .CodeLimitExceeded
  else
    match m.tickets.lookup sessionID with
    | some _ => m.fail c .CodeInternal
    | none => m.addTicket c sessionID ticket

variable (binding : SelectionBinding)

/-- `delete(m.tickets, sessionID)` -/
def takeTicket (sessionID : String) (ticket : ExecTicket D) : ExecManager D E :=
  { m with
    tickets := m.tickets.erase sessionID
    call := update m.call c (.consumed binding sessionID ticket) }

/-- The first section of `AuthorizeUpgrade`, behind `pruneTicketsLocked`. -/
def consumeTicket [DecidableEq D] (sessionID : String) (tokenHash : D) : ExecManager D E :=
  match m.tickets.lookup sessionID with
  | none => m.fail c .CodeSessionGone
  | some ticket =>
    if tokenHash != ticket.tokenHash then m.fail c .CodeSessionGone
    else m.takeTicket c binding sessionID ticket

variable (grant : ExecGrant)

/-- `m.sessions[sessionID] = state`, with the timer of the reservation. -/
def addSession (ticket : ExecTicket D) : ExecManager D E :=
  { m with
    sessions := m.sessions.insert grant.SessionID m.nextSession
    session := update m.session m.nextSession
      ⟨grant.SessionID, grant.leaseID, grant.Generation, .armed, false, none, .watching⟩
    nextSession := m.nextSession + 1
    call := update m.call c (.granted grant ticket) }

/-- The second section of `AuthorizeUpgrade`. -/
def reserve (sessionID leaseID : String) (ticket : ExecTicket D) : ExecManager D E :=
  if m.shutdown then m.fail c .CodeServerShutdown
  else if m.generations.current != binding.Generation then m.fail c .CodeGenerationChanged
  else if m.sessions.size ≥ MaximumExecSessions then m.fail c .CodeLimitExceeded
  else
    match m.sessions.lookup sessionID with
    | some _ => m.fail c .CodeInternal
    | none => m.addSession c ⟨sessionID, binding.Generation, leaseID⟩ ticket

/-- The reservation of a grant.  `Start` and `ReleaseUpgrade` go on only with one. -/
def reservation? : Option Nat :=
  (m.sessions.lookup grant.SessionID).filter fun p =>
    (m.session p).leaseID != "" && (m.session p).leaseID == grant.leaseID && !(m.session p).active

/-- The first section of `Start`. -/
def Start : ExecManager D E :=
  match m.reservation? grant with
  | none => m.fail c .CodeSessionGone
  | some p =>
    if (m.session p).generation != grant.Generation ||
        m.generations.current != grant.Generation then
      ((m.dropSession grant.SessionID).stopTimer p).fail c .CodeGenerationChanged
    else
      (m.stopTimer p).setCall c (.starting grant p)

def removeReservation : ExecManager D E :=
  { m with
    sessions :=
      if m.sessions.lookup (m.session p).id == some p then m.sessions.erase (m.session p).id
      else m.sessions }

def setActive (c p : Nat) : ExecManager D E :=
  { m with
    session := update m.session p { m.session p with active := true }
    call := update m.call c (.started p) }

/-- The last section of `Start`. -/
def activate (c p : Nat) : ExecManager D E :=
  if m.sessions.lookup (m.session p).id != some p || m.shutdown then m.fail c .CodeSessionGone
  else m.setActive c p

variable (terminal : ExecTerminal)

/-- The first section of `Abort` and of `Cancel`. -/
def findActive : ExecManager D E :=
  match (m.sessions.lookup sessionID).filter fun p => (m.session p).active with
  | none => m.fail c .CodeSessionGone
  | some p => m.setCall c (.aborting p terminal)

def requestTerminal : ExecManager D E :=
  m.setSession p
    (if m.sessions.lookup (m.session p).id != some p || (m.session p).requestedTerminal.isSome then
      m.session p
    else { m.session p with requestedTerminal := some terminal })

def leaveLoop : ExecManager D E :=
  m.setSession p
    { m.session p with monitor := .finishing ((m.session p).requestedTerminal.getD terminal) }

def finish : ExecManager D E :=
  (m.removeReservation p).setSession p { m.session p with monitor := .finished }

def expireReservation : ExecManager D E :=
  let fired := m.setSession p { m.session p with reservationTimer := .done }
  match m.sessions.lookup (m.session p).id with
  | none => fired
  | some q =>
    if (m.session q).active || (m.session q).leaseID != (m.session p).leaseID then fired
    else fired.dropSession (m.session p).id

def ReleaseUpgrade : ExecManager D E :=
  match m.reservation? grant with
  | none => m.fail c .CodeSessionGone
  | some p => ((m.dropSession grant.SessionID).stopTimer p).setCall c .returned

def sweptReservation (keep : String → Bool) (p : Nat) : Bool :=
  m.sessions.lookup (m.session p).id == some p && !keep (m.session p).generation &&
    !(m.session p).active

def dropReservations (keep : String → Bool) : ExecManager D E :=
  { m with
    sessions := m.sessions.prune fun _ p => keep (m.session p).generation || (m.session p).active
    session := fun p =>
      if m.sweptReservation keep p then (m.session p).stopTimer else m.session p }

def sweepable (keep : String → Bool) : List Nat :=
  (m.sessions.entries.map fun row => row.2).filter fun p =>
    !keep (m.session p).generation && (m.session p).active

def OnGeneration (s : Nat) (current : String) : ExecManager D E :=
  let keep := fun generation => generation == current
  { m.dropReservations keep with
    tickets := m.tickets.prune fun _ ticket => keep ticket.binding.Generation
    sweep := update m.sweep s
      (.sweeping (.older m.generations.retired current) (m.sweepable keep)) }

def Shutdown (s : Nat) : ExecManager D E :=
  let keep := fun _ => false
  if m.shutdown then { m with sweep := update m.sweep s (.returned .all) }
  else
    { m.dropReservations keep with
      shutdown := true
      tickets := ∅
      sweep := update m.sweep s (.sweeping .all (m.sweepable keep)) }

end ExecManager

/-! ## Interleavings -/

inductive Action (E : Type) where
  | rotate (next : String)
  | refuse (c : Nat) (err : ExecError E)
  | createTicket (c : Nat) (binding : SelectionBinding)
  | checkCurrent (c : Nat)
  | review (c : Nat)
  | draw (c : Nat) (sessionID token : String)
  | insertTicket (c : Nat) (now : Int)
  | authorizeUpgrade (c : Nat) (binding : SelectionBinding) (sessionID : String)
    (offeredProtocols : List String)
  | consumeTicket (c : Nat) (now : Int)
  | lease (c : Nat) (leaseID : String)
  | reserve (c : Nat)
  | start (c : Nat) (grant : ExecGrant)
  | adapterStarted (c : Nat)
  | adapterFailed (c : Nat) (err : Option E)
  | removeReservation (c : Nat)
  | checkShutdown (c : Nat)
  | activate (c : Nat)
  | abort (c : Nat) (sessionID : String) (reason : ExecAbortReason)
  | cancel (c : Nat) (sessionID : String)
  | requestTerminal (c : Nat)
  | releaseUpgrade (c : Nat) (grant : ExecGrant)
  | timeout (p : Nat) (code : ErrorCode)
  | leaveLoop (p : Nat) (terminal : ExecTerminal)
  | finish (p : Nat)
  | fire (p : Nat)
  | expireReservation (p : Nat)
  | onGeneration (s : Nat) (current : String)
  | shutdown (s : Nat)
  | requestNext (s : Nat)
  | returnSweep (s : Nat)
  deriving DecidableEq, Repr

def Phase.refusable {D E : Type} : Phase D E → Bool
  | .idle => true
  | .reviewing _ => true
  | .reviewed _ => true
  | .inspecting _ _ _ => true
  | .inspected _ _ _ => true
  | _ => false

/-- The error of a `Start` whose adapter has failed.  The adapter can return no session and no
error. -/
def setupError {E : Type} (shutdown : Bool) : Option E → ExecError E
  | none => .code (if shutdown then .CodeServerShutdown else .CodeInternal)
  | some err => if shutdown then .code .CodeServerShutdown else .environment err

section Steps

variable {D E : Type} [DecidableEq D] (hash : String → D) (ticketTTL : Int) (tokens : Set String)

/-- One step.  `tokens` are the tokens that are stored and offered.  `OnGeneration` is called with a
generation that has become current before. -/
inductive Step : ExecManager D E → Action E → ExecManager D E → Prop where
  | rotate {m : ExecManager D E} (next : String) (h : next ∉ m.generations.seen) :
    Step m (.rotate next) { m with generations := m.generations.rotate next h }
  | refuse {m : ExecManager D E} {c : Nat} (err : ExecError E) (h : (m.call c).refusable = true) :
    Step m (.refuse c err) (m.setCall c (.failed err))
  | createTicket {m : ExecManager D E} {c : Nat} (binding : SelectionBinding)
    (h : m.call c = .idle) : Step m (.createTicket c binding) (m.setCall c (.creating binding))
  | checkCreating {m : ExecManager D E} {c : Nat} {binding : SelectionBinding}
    (h : m.call c = .creating binding) :
    Step m (.checkCurrent c) (m.checkCurrent c binding.Generation (.reviewing binding))
  | review {m : ExecManager D E} {c : Nat} {binding : SelectionBinding}
    (h : m.call c = .reviewing binding) : Step m (.review c) (m.setCall c (.reviewed binding))
  | draw {m : ExecManager D E} {c : Nat} {binding : SelectionBinding} (sessionID token : String)
    (h : m.call c = .reviewed binding) :
    Step m (.draw c sessionID token) (m.checkCurrent c binding.Generation
      (if token == "" || containsSeparator token then .failed (.code .CodeInternal)
        else .drawn binding sessionID token))
  | insertTicket {m : ExecManager D E} {c : Nat} {binding : SelectionBinding}
    {sessionID token : String} (now : Int) (h : m.call c = .drawn binding sessionID token)
    (htoken : token ∈ tokens) :
    Step m (.insertTicket c now) ((m.pruneTicketsLocked now).insertTicket c sessionID
      ⟨m.nextTicket, token, hash token, binding, now + ticketTTL⟩)
  | authorizeUpgrade {m : ExecManager D E} {c : Nat} {token : String} (binding : SelectionBinding)
    (sessionID : String) (offeredProtocols : List String) (h : m.call c = .idle)
    (hparse : parseExecProtocols (E := E) offeredProtocols = .ok token) :
    Step m (.authorizeUpgrade c binding sessionID offeredProtocols)
      (m.setCall c (.offered binding sessionID token))
  | malformed {m : ExecManager D E} {c : Nat} {err : ExecError E} (binding : SelectionBinding)
    (sessionID : String) (offeredProtocols : List String) (h : m.call c = .idle)
    (hparse : parseExecProtocols offeredProtocols = .error err) :
    Step m (.authorizeUpgrade c binding sessionID offeredProtocols) (m.setCall c (.failed err))
  | consumeTicket {m : ExecManager D E} {c : Nat} {binding : SelectionBinding}
    {sessionID token : String} (now : Int) (h : m.call c = .offered binding sessionID token)
    (htoken : token ∈ tokens) :
    Step m (.consumeTicket c now)
      ((m.pruneTicketsLocked now).consumeTicket c binding sessionID (hash token))
  | checkConsumed {m : ExecManager D E} {c : Nat} {binding : SelectionBinding}
    {sessionID : String} {ticket : ExecTicket D}
    (h : m.call c = .consumed binding sessionID ticket) :
    Step m (.checkCurrent c)
      (if ticket.binding != binding then m.fail c .CodeGenerationChanged
        else m.checkCurrent c binding.Generation (.inspecting binding sessionID ticket))
  | inspect {m : ExecManager D E} {c : Nat} {binding : SelectionBinding} {sessionID : String}
    {ticket : ExecTicket D} (h : m.call c = .inspecting binding sessionID ticket) :
    Step m (.review c) (m.setCall c (.inspected binding sessionID ticket))
  | lease {m : ExecManager D E} {c : Nat} {binding : SelectionBinding} {sessionID : String}
    {ticket : ExecTicket D} (leaseID : String)
    (h : m.call c = .inspected binding sessionID ticket) :
    Step m (.lease c leaseID)
      (m.checkCurrent c binding.Generation (.leased binding sessionID leaseID ticket))
  | reserve {m : ExecManager D E} {c : Nat} {binding : SelectionBinding}
    {sessionID leaseID : String} {ticket : ExecTicket D}
    (h : m.call c = .leased binding sessionID leaseID ticket) :
    Step m (.reserve c) (m.reserve c binding sessionID leaseID ticket)
  | start {m : ExecManager D E} {c : Nat} (grant : ExecGrant) (h : m.call c = .idle) :
    Step m (.start c grant) (m.Start c grant)
  | adapterStarted {m : ExecManager D E} {c p : Nat} {grant : ExecGrant}
    (h : m.call c = .starting grant p) :
    Step m (.adapterStarted c) (m.setCall c (.connected grant p))
  | adapterFailed {m : ExecManager D E} {c p : Nat} {grant : ExecGrant} (err : Option E)
    (h : m.call c = .starting grant p) :
    Step m (.adapterFailed c err) (m.setCall c (.failing grant p err))
  | checkConnected {m : ExecManager D E} {c p : Nat} {grant : ExecGrant}
    (h : m.call c = .connected grant p) :
    Step m (.checkCurrent c) (m.setCall c
      (if m.generations.requireCurrent grant.Generation then .confirmed grant p else .revoked p))
  | removeRevoked {m : ExecManager D E} {c p : Nat} (h : m.call c = .revoked p) :
    Step m (.removeReservation c) ((m.removeReservation p).fail c .CodeGenerationChanged)
  | removeFailing {m : ExecManager D E} {c p : Nat} {grant : ExecGrant} {err : Option E}
    (h : m.call c = .failing grant p err) :
    Step m (.removeReservation c) ((m.removeReservation p).setCall c (.removed grant err))
  | checkRemoved {m : ExecManager D E} {c : Nat} {grant : ExecGrant} {err : Option E}
    (h : m.call c = .removed grant err) :
    Step m (.checkCurrent c) (m.checkCurrent c grant.Generation (.rechecked err))
  | checkShutdown {m : ExecManager D E} {c : Nat} {err : Option E}
    (h : m.call c = .rechecked err) :
    Step m (.checkShutdown c) (m.setCall c (.failed (setupError m.shutdown err)))
  | activate {m : ExecManager D E} {c p : Nat} {grant : ExecGrant}
    (h : m.call c = .confirmed grant p) : Step m (.activate c) (m.activate c p)
  | abort {m : ExecManager D E} {c : Nat} (sessionID : String) (reason : ExecAbortReason)
    (h : m.call c = .idle) :
    Step m (.abort c sessionID reason) (m.findActive c sessionID reason.terminal)
  | cancel {m : ExecManager D E} {c : Nat} (sessionID : String) (h : m.call c = .idle) :
    Step m (.cancel c sessionID) (m.findActive c sessionID (.exit none .canceled 1000))
  | requestTerminal {m : ExecManager D E} {c p : Nat} {terminal : ExecTerminal}
    (h : m.call c = .aborting p terminal) :
    Step m (.requestTerminal c) ((m.requestTerminal p terminal).setCall c .returned)
  | releaseUpgrade {m : ExecManager D E} {c : Nat} (grant : ExecGrant) (h : m.call c = .idle) :
    Step m (.releaseUpgrade c grant) (m.ReleaseUpgrade c grant)
  | timeout {m : ExecManager D E} {p : Nat} (code : ErrorCode)
    (h : (m.session p).active = true) (hmonitor : (m.session p).monitor = .watching)
    (hcode : code = .CodeExecIdleTimeout ∨ code = .CodeExecDurationLimit) :
    Step m (.timeout p code) (m.requestTerminal p (.error code false 1001))
  | leaveLoop {m : ExecManager D E} {p : Nat} (terminal : ExecTerminal)
    (h : (m.session p).active = true) (hmonitor : (m.session p).monitor = .watching) :
    Step m (.leaveLoop p terminal) (m.leaveLoop p terminal)
  | finish {m : ExecManager D E} {p : Nat} {terminal : ExecTerminal}
    (h : (m.session p).active = true) (hmonitor : (m.session p).monitor = .finishing terminal) :
    Step m (.finish p) (m.finish p)
  | fire {m : ExecManager D E} {p : Nat} (h : p < m.nextSession)
    (htimer : (m.session p).reservationTimer = .armed) :
    Step m (.fire p) (m.setSession p { m.session p with reservationTimer := .fired })
  | expireReservation {m : ExecManager D E} {p : Nat} (h : p < m.nextSession)
    (htimer : (m.session p).reservationTimer = .fired) :
    Step m (.expireReservation p) (m.expireReservation p)
  | onGeneration {m : ExecManager D E} {s : Nat} (current : String) (h : m.sweep s = .idle)
    (hseen : current ∈ m.generations.seen) :
    Step m (.onGeneration s current) (m.OnGeneration s current)
  | shutdown {m : ExecManager D E} {s : Nat} (h : m.sweep s = .idle) :
    Step m (.shutdown s) (m.Shutdown s)
  | requestNext {m : ExecManager D E} {s p : Nat} {scope : Scope} {pending : List Nat}
    (h : m.sweep s = .sweeping scope (p :: pending)) :
    Step m (.requestNext s)
      { m.requestTerminal p (terminalOf scope) with
        sweep := update m.sweep s (.sweeping scope pending) }
  | returnSweep {m : ExecManager D E} {s : Nat} {scope : Scope}
    (h : m.sweep s = .sweeping scope []) :
    Step m (.returnSweep s) { m with sweep := update m.sweep s (.returned scope) }

end Steps

structure ExecManager.New {D E : Type} (m : ExecManager D E) : Prop where
  shutdown : m.shutdown = false
  tickets : m.tickets = ∅
  sessions : m.sessions = ∅
  active : ∀ p, (m.session p).active = false
  call : ∀ c, m.call c = .idle
  sweep : ∀ s, m.sweep s = .idle

end Kubepeep.Actions.Exec
