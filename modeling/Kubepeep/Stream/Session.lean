import Kubepeep.Go.Strconv
import Kubepeep.Lib.System
import Kubepeep.Resources.Types
import Kubepeep.Watch.Types

/-!
# Stream sessions and their replay ring

`ReplayRing` (`internal/services/resources/watch.go`) and the clients of a session
(`internal/api/handlers/resources_stream_session.go`).  Every critical section of `session.mu` is
one step; `publish` of an event that is too large is two, since it takes the lock again to
terminate.
-/

open Function Kubepeep.Go.Strconv Kubepeep.Resources Kubepeep.Watch

namespace Kubepeep.Stream

/-! ## The replay ring -/

structure ReplayEntry (B : Type) where
  ID : String
  event : StreamEvent B
  deriving DecidableEq, Repr

structure RingEvent (B : Type) where
  id : String
  event : StreamEvent B
  bytes : Nat
  deriving DecidableEq, Repr

/-- `sequence` is a `uint64`. -/
structure ReplayRing (B : Type) where
  epoch : String
  binding : String
  sequence : Nat
  events : List (RingEvent B)
  bytes : Int
  deriving DecidableEq, Repr

def eventID (epoch : String) (sequence : Nat) : String :=
  "kpse1." ++ epoch ++ "." ++ FormatUint sequence

inductive ReplayError where
  | invalid (err : ReadError)
  | ErrResumeUnavailable
  deriving DecidableEq, Repr

/-- `base64.RawURLEncoding.DecodeString`, of which only the length is used; it skips line ends. -/
def rawURLDecodedLength (text : List Char) : Option Nat :=
  let letters := text.filter fun c => c ≠ '\r' ∧ c ≠ '\n'
  if letters.all (fun c => c.isAlphanum || c == '-' || c == '_') && letters.length % 4 != 1 then
    some (letters.length * 6 / 8)
  else
    none

variable {B : Type} (objectSize : TopicObject B → Nat)

def RingEvent.entry (item : RingEvent B) : ReplayEntry B := ⟨item.id, item.event⟩

namespace ReplayRing

/-- The loop at the end of `Append`. -/
def evict : List (RingEvent B) → Int → List (RingEvent B) × Int
  | [], bytes => ([], bytes)
  | first :: rest, bytes =>
    if (first :: rest).length > MaximumStreamQueueEvents ∨ bytes > MaximumStreamQueueBytes then
      evict rest (bytes - first.bytes)
    else
      (first :: rest, bytes)

def Append (ring : ReplayRing B) (event : StreamEvent B) :
    Except ReadError (ReplayRing B × String) :=
  if event.event = .heartbeat ∨ event.event = .reset ∨ event.event = .error then
    .ok (ring, "")
  else if event.wireBytes objectSize > MaximumStreamEventBytes then
    .error (domainError .CodeLimitExceeded "The stream event exceeds the event limit.")
  else
    let sequence := (ring.sequence + 1) % 2 ^ 64
    let id := eventID ring.epoch sequence
    let wireBytes := event.wireBytes objectSize
    let (events, bytes) := evict (ring.events ++ [⟨id, event, wireBytes⟩]) (ring.bytes + wireBytes)
    .ok ({ ring with sequence, events, bytes }, id)

def entriesAfter (lastID : String) : List (RingEvent B) → Option (List (ReplayEntry B))
  | [] => none
  | item :: rest =>
    if item.id = lastID then some (rest.map RingEvent.entry) else entriesAfter lastID rest

def ReplayEntries (ring : ReplayRing B) (lastID binding : String) :
    Except ReplayError (List (ReplayEntry B)) :=
  let malformed : Except ReplayError (List (ReplayEntry B)) :=
    .error (.invalid (validationError "Last-Event-ID is malformed"))
  match lastID.toList.splitOn '.' with
  | [scheme, epoch, sequence] =>
    if String.ofList scheme ≠ "kpse1" then
      malformed
    else if rawURLDecodedLength epoch ≠ some 16 then
      malformed
    else if ParseUint (String.ofList sequence) = none then
      malformed
    else if String.ofList epoch ≠ ring.epoch then
      .error .ErrResumeUnavailable
    else if binding ≠ ring.binding then
      .error .ErrResumeUnavailable
    else
      match entriesAfter lastID ring.events with
      | none => .error .ErrResumeUnavailable
      | some entries => .ok entries
  | _ => malformed

end ReplayRing

/-! ## Clients -/

structure Delivery (B : Type) where
  entry : ReplayEntry B
  terminal : Bool
  bytes : Nat
  deriving DecidableEq, Repr

/-- `consumed` records what `next` has returned so far. -/
structure Client (B : Type) where
  queue : List (Delivery B)
  bytes : Int
  closed : Bool
  consumed : List (Delivery B)
  deriving DecidableEq, Repr

def newResourceReplayClient (B : Type) : Client B := ⟨[], 0, false, []⟩

namespace Client

variable (client : Client B)

def push (entry : ReplayEntry B) : Client B × Bool :=
  let wireBytes := entry.event.encodedSize objectSize + entry.ID.utf8ByteSize + 64
  if client.closed = true ∨ client.queue.length ≥ MaximumStreamQueueEvents ∨
      client.bytes + wireBytes > MaximumStreamQueueBytes then
    (client, false)
  else
    ({ client with
      queue := client.queue ++ [⟨entry, false, wireBytes⟩]
      bytes := client.bytes + wireBytes }, true)

def forceTerminal (event : StreamEvent B) : Client B :=
  let bytes := event.encodedSize objectSize + 64
  if client.closed then
    client
  else
    { client with queue := [⟨⟨"", event⟩, true, bytes⟩], bytes, closed := true }

def pushOrReset (entry : ReplayEntry B) (slow : StreamEvent B) : Client B :=
  match client.push objectSize entry with
  | (client, true) => client
  | (client, false) => client.forceTerminal objectSize slow

def pushTerminal (event : StreamEvent B) : Client B :=
  let bytes := event.encodedSize objectSize + 64
  let delivery : Delivery B := ⟨⟨"", event⟩, true, bytes⟩
  if client.closed then
    client
  else if client.queue.length ≥ MaximumStreamQueueEvents ∨
      client.bytes + bytes > MaximumStreamQueueBytes then
    { client with queue := [delivery], bytes, closed := true }
  else
    { client with
      queue := client.queue ++ [delivery]
      bytes := client.bytes + bytes
      closed := true }

/-- `next` with a queued delivery. -/
def next : Client B :=
  match client.queue with
  | [] => client
  | delivery :: rest =>
    { client with
      queue := rest
      bytes := client.bytes - delivery.bytes
      consumed := client.consumed ++ [delivery] }

def close : Client B := { client with closed := true }

def received : List (ReplayEntry B) :=
  ((client.consumed ++ client.queue).map Delivery.entry).filter fun entry => entry.ID != ""

end Client

/-! ## Sessions -/

/-- The clients by number; `clients` are the attached ones.  `published` records every event that
got an ID. -/
structure Session (B : Type) where
  generation : String
  ring : ReplayRing B
  terminal : Option (StreamEvent B)
  expired : Bool
  client : Nat → Client B
  count : Nat
  clients : List Nat
  published : List (ReplayEntry B)

namespace Session

variable (session : Session B)

def resetEvent (topic : Topic) (reason : String) : StreamEvent B :=
  { event := .reset, topic, generation := session.generation, reason, refetchRequired := true }

/-- The loop over the clients: one whose queue is full gets a reset and is removed. -/
def pushAll (entry : ReplayEntry B) : Session B :=
  let slow := session.resetEvent entry.event.topic "slow_consumer"
  { session with
    client := fun id =>
      if id ∈ session.clients then (session.client id).pushOrReset objectSize entry slow
      else session.client id
    clients := session.clients.filter fun id => ((session.client id).push objectSize entry).2 }

/-- The defaults that `publish` fills in. -/
def stamp (generation now : String) (event : StreamEvent B) : StreamEvent B :=
  { event with
    generation := if event.generation = "" then generation else event.generation
    observedAt :=
      if event.observedAt = "" ∧ event.event ≠ .reset ∧ event.event ≠ .error then now
      else event.observedAt }

inductive Publication where
  | refused
  | tooLarge
  | done
  deriving DecidableEq, Repr

/-- The critical section of `publish`. -/
def publishLocked (event : StreamEvent B) : Session B × Publication :=
  if session.expired = true ∨ session.terminal.isSome then
    (session, .refused)
  else
    match session.ring.Append objectSize event with
    | .error _ => (session, .tooLarge)
    | .ok (ring, id) =>
      let entry : ReplayEntry B := ⟨id, event⟩
      let session := { session with
        ring := ring
        published := if id = "" then session.published else session.published ++ [entry] }
      (session.pushAll objectSize entry, .done)

def publishTransient (event : StreamEvent B) : Session B × Bool :=
  if session.expired = true ∨ session.terminal.isSome then
    (session, false)
  else
    (session.pushAll objectSize ⟨"", event⟩, true)

def publishTerminal (event : StreamEvent B) : Session B :=
  let event :=
    { event with
      generation := if event.generation = "" then session.generation else event.generation }
  if session.expired = true ∨ session.terminal.isSome then
    session
  else
    { session with
      terminal := some event
      client := fun id =>
        if id ∈ session.clients then (session.client id).pushTerminal objectSize event
        else session.client id }

def publish (now : String) (event : StreamEvent B) : Session B × Bool :=
  let event := stamp session.generation now event
  if event.event = .reset ∨ event.event = .error then
    (session.publishTerminal objectSize event, false)
  else
    match session.publishLocked objectSize event with
    | (session, .refused) => (session, false)
    | (session, .tooLarge) =>
      (session.publishTerminal objectSize (session.resetEvent event.topic "event_too_large"), false)
    | (session, .done) => (session, true)

/-- The new client is the one with number `session.count`. -/
def attach (lastID expectedBinding : String) :
    Except ReplayError (Session B × List (ReplayEntry B)) :=
  if session.expired then
    .error .ErrResumeUnavailable
  else
    match if lastID = "" then .ok [] else session.ring.ReplayEntries lastID expectedBinding with
    | .error err => .error err
    | .ok replay =>
      let client := newResourceReplayClient B
      let client :=
        match session.terminal with
        | none => client
        | some event => client.forceTerminal objectSize event
      .ok ({ session with
        client := update session.client session.count client
        count := session.count + 1
        clients := session.clients ++ [session.count] }, replay)

def expire : Session B :=
  if session.clients ≠ [] ∨ session.expired = true then session
  else { session with expired := true }

end Session

/-! ## Steps -/

inductive SessionAction (B : Type) where
  | publish (event : StreamEvent B)
  | publishTransient (event : StreamEvent B)
  | publishTerminal (event : StreamEvent B)
  | attach (lastID expectedBinding : String)
  | close (id : Nat)
  | remove (id : Nat)
  | expire
  | next (id : Nat)

inductive SessionStep : Session B → SessionAction B → Session B → Prop where
  | publish {session : Session B} {event : StreamEvent B} :
    event.event ≠ .reset → event.event ≠ .error →
    SessionStep session (.publish event) (session.publishLocked objectSize event).1
  | publishTransient {session : Session B} {event : StreamEvent B} :
    SessionStep session (.publishTransient event) (session.publishTransient objectSize event).1
  | publishTerminal {session : Session B} {event : StreamEvent B} :
    SessionStep session (.publishTerminal event) (session.publishTerminal objectSize event)
  | attach {session next : Session B} {lastID expectedBinding : String}
      {replay : List (ReplayEntry B)} :
    session.attach objectSize lastID expectedBinding = .ok (next, replay) →
    SessionStep session (.attach lastID expectedBinding) next
  /-- The two critical sections of `detach`. -/
  | close {session : Session B} {id : Nat} :
    SessionStep session (.close id)
      { session with client := update session.client id (session.client id).close }
  | remove {session : Session B} {id : Nat} :
    (session.client id).closed = true →
    SessionStep session (.remove id) { session with clients := session.clients.erase id }
  | expire {session : Session B} : SessionStep session .expire session.expire
  | next {session : Session B} {id : Nat} :
    SessionStep session (.next id)
      { session with client := update session.client id (session.client id).next }

/-- What `EncodeToString` makes of sixteen bytes. -/
structure Epoch (text : String) : Prop where
  length : text.toList.length = 22
  letters : ∀ c ∈ text.toList, (c.isAlphanum || c == '-' || c == '_') = true

structure SessionStart (session : Session B) : Prop where
  epoch : Epoch session.ring.epoch
  ring : session.ring.sequence = 0 ∧ session.ring.events = [] ∧ session.ring.bytes = 0
  live : session.terminal = none ∧ session.expired = false
  clients : session.count = 0 ∧ session.clients = []
  published : session.published = []

end Kubepeep.Stream
