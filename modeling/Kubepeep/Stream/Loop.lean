import Kubepeep.Stream.Scope
import Kubepeep.Stream.Session
import Kubepeep.Watch.Snapshot

/-!
# The loop of a stream session

`run` (`internal/api/handlers/resources_stream_session.go`) reads the events of all sources of a
session from one channel.  Until every source of a topic has delivered its snapshot, the items are
collected and the changes are buffered; then one snapshot is published, and the changes after it.
-/

open Function Kubepeep.Resources Kubepeep.System Kubepeep.Watch

namespace Kubepeep.Stream

/-- `resourceStreamSource`, without its subscription. -/
structure Source where
  topic : Topic
  key : String
  namespaceName : String
  deriving DecidableEq, Repr

/-- `resourceTopicSnapshot`; the sets and maps as lists of their keys and entries. -/
structure TopicState (B : Type) where
  expected : Nat
  finalSources : List String
  finalNamespaces : List (String × Nat)
  previewSent : Nat
  items : List (TopicObject B)
  resourceVersion : String
  complete : Bool
  buffered : List (StreamEvent B)
  bufferedBytes : Nat
  itemBytes : Nat
  deriving DecidableEq, Repr

structure Config where
  allowedNamespaces : Option (List String)
  preferGlobal : Bool
  requestedNamespaceCount : Nat
  topics : List Topic
  sources : List Source

/-- `len(resourcecore.TopicGVRs(topic))` -/
def topicGVRs : Topic → Nat
  | .TopicWorkloads => 5
  | _ => 1

/-- `finalNamespaces[namespace]++` -/
def increment (namespaceName : String) : List (String × Nat) → List (String × Nat)
  | [] => [(namespaceName, 1)]
  | (name, count) :: rest =>
    if name = namespaceName then (name, count + 1) :: rest
    else (name, count) :: increment namespaceName rest

variable {B : Type} (objectSize : TopicObject B → Nat)

namespace TopicState

def new (expected : Nat) : TopicState B := ⟨expected, [], [], 0, [], "", false, [], 0, 0⟩

/-- The loop of `addItems` over the encoded items. -/
def addItemBytes : List (TopicObject B) → Nat → Option Nat
  | [], bytes => some bytes
  | item :: rest, bytes =>
    if bytes + objectSize item + 1 > MaximumSnapshotBytes then none
    else addItemBytes rest (bytes + (objectSize item + 1))

variable (state : TopicState B)

/-- `none` is `false`: the session is reset. -/
def addItems (items : List (TopicObject B)) : Option (TopicState B) :=
  if state.items.length + items.length > MaximumSnapshotItems then
    none
  else
    (addItemBytes objectSize items state.itemBytes).map fun itemBytes =>
      { state with items := state.items ++ items, itemBytes }

/-- `none` is `false`: the session is reset. -/
def buffer (event : StreamEvent B) : Option (TopicState B) :=
  let wireBytes := event.encodedSize objectSize + 64
  if state.buffered.length ≥ MaximumStreamQueueEvents ∨
      state.bufferedBytes + wireBytes > MaximumStreamQueueBytes then
    none
  else
    some { state with
      buffered := state.buffered ++ [event]
      bufferedBytes := state.bufferedBytes + wireBytes }

def preview (items : List (TopicObject B)) : List (TopicObject B) :=
  items.take (500 - state.previewSent)

/-- A chunk of a source, once its items have been added. -/
def mark (source : Source) (event : StreamEvent B) : TopicState B :=
  { state with
    resourceVersion := if state.expected = 1 then event.resourceVersion else state.resourceVersion
    finalSources :=
      if event.final then state.finalSources ++ [source.key] else state.finalSources
    finalNamespaces :=
      if event.final then increment source.namespaceName state.finalNamespaces
      else state.finalNamespaces
    previewSent := state.previewSent + (state.preview event.items).length }

def completedNamespaces (config : Config) (state : TopicState B) (source : Source)
    (event : StreamEvent B) : Nat :=
  if config.preferGlobal = true ∧ event.final = true ∧ state.expected = 1 then
    config.requestedNamespaceCount
  else
    (state.finalNamespaces.filter fun entry => entry.2 == topicGVRs source.topic).length

end TopicState

/-- `running` is false once `run` has returned. -/
structure Loop (B : Type) where
  session : Session B
  states : Topic → Option (TopicState B)
  running : Bool

namespace Loop

/-- `clock` is the time of a publication, by the number of those before. -/
def publishEach (clock : Nat → String) (session : Session B) :
    List (StreamEvent B) → Session B × Bool
  | [] => (session, true)
  | event :: rest =>
    match session.publish objectSize (clock session.published.length) event with
    | (session, true) => publishEach clock session rest
    | (session, false) => (session, false)

variable (loop : Loop B)

def terminate (event : StreamEvent B) : Loop B :=
  { loop with session := loop.session.publishTerminal objectSize event, running := false }

def reset (topic : Topic) (reason : String) : Loop B :=
  loop.terminate objectSize (loop.session.resetEvent topic reason)

variable (config : Config)

def progress (session : Session B) (source : Source)
    (items : List (TopicObject B)) (completedNamespaces : Nat) : StreamEvent B :=
  { event := .progress, topic := source.topic, generation := session.generation, items
    completedNamespaces, requestedNamespaces := config.requestedNamespaceCount }

def receiveProgress (source : Source) (state : TopicState B) (event : StreamEvent B) : Loop B :=
  let preview := state.preview event.items
  let state := { state with previewSent := state.previewSent + preview.length }
  let states := update loop.states source.topic (some state)
  if preview = [] then
    { loop with states }
  else
    let (session, sent) := loop.session.publishTransient objectSize
      (progress config loop.session source preview state.finalNamespaces.length)
    { session, states, running := sent }

def publishSnapshot (clock : Nat → String) (loop : Loop B) (source : Source)
    (state : TopicState B) : Loop B :=
  match SnapshotEvents objectSize loop.session.generation source.topic
    ⟨state.resourceVersion, state.items⟩ with
  | .error _ => loop.reset objectSize source.topic "snapshot_too_large"
  | .ok chunks =>
    let (session, published) :=
      publishEach objectSize clock loop.session (chunks ++ state.buffered)
    { session
      states := update loop.states source.topic
        (some { state with complete := true, buffered := [] })
      running := published }

def receiveSnapshot (clock : Nat → String) (loop : Loop B) (source : Source)
    (state : TopicState B) (event : StreamEvent B) : Loop B :=
  if source.key ∈ state.finalSources then
    loop.reset objectSize source.topic "snapshot_too_large"
  else
    match state.addItems objectSize event.items with
    | none => loop.reset objectSize source.topic "snapshot_too_large"
    | some added =>
      let preview := added.preview event.items
      let state := added.mark source event
      let completed := state.completedNamespaces config source event
      let (session, sent) :=
        if preview ≠ [] ∨ event.final = true then
          loop.session.publishTransient objectSize
            (progress config loop.session source preview completed)
        else
          (loop.session, true)
      let loop : Loop B :=
        { session, states := update loop.states source.topic (some state), running := sent }
      if !sent then
        loop
      else if state.finalSources.length = state.expected then
        loop.publishSnapshot objectSize clock source state
      else
        loop

def receiveChange (source : Source) (state : TopicState B) (event : StreamEvent B) : Loop B :=
  match state.buffer objectSize event with
  | none => loop.reset objectSize source.topic "slow_consumer"
  | some state => { loop with states := update loop.states source.topic (some state) }

def receive (clock : Nat → String) (loop : Loop B) (source : Source)
    (event : StreamEvent B) : Loop B :=
  match filterScopedEvent config.allowedNamespaces event with
  | (_, false) => loop
  | (event, true) =>
    if event.event = .reset ∨ event.event = .error then
      loop.terminate objectSize event
    else
      match loop.states source.topic with
      | none => loop.reset objectSize source.topic "event_too_large"
      | some state =>
        if state.complete then
          let (session, published) :=
            loop.session.publish objectSize (clock loop.session.published.length) event
          { loop with session, running := published }
        else if event.event = .progress then
          loop.receiveProgress objectSize config source state event
        else if event.event = .snapshot then
          loop.receiveSnapshot objectSize config clock source state event
        else
          loop.receiveChange objectSize source state event

/-- An error of a source; `quiet` is a cancellation, or the end of a session that has stopped. -/
def receiveError (source : Source) (quiet : Bool) : Loop B :=
  if quiet then
    { loop with running := false }
  else
    loop.terminate objectSize
      { event := .error, topic := source.topic, generation := loop.session.generation
        reason := "CLUSTER_UNAVAILABLE", refetchRequired := true }

end Loop

/-! ## Steps -/

inductive LoopAction (B : Type) where
  | receive (source : Source) (event : StreamEvent B)
  | receiveError (source : Source) (quiet : Bool)
  | reauthorize (code : String)
  | client (action : SessionAction B)

/-- What other goroutines do with the session. -/
def ClientAction : SessionAction B → Prop
  | .attach .. | .close _ | .remove _ | .next _ | .expire => True
  | _ => False

inductive LoopStep (config : Config) (clock : Nat → String) :
    Loop B → LoopAction B → Loop B → Prop where
  | receive {loop : Loop B} {source : Source} {event : StreamEvent B} :
    loop.running = true → source ∈ config.sources →
    LoopStep config clock loop (.receive source event)
      (loop.receive objectSize config clock source event)
  | receiveError {loop : Loop B} {source : Source} {quiet : Bool} :
    loop.running = true → source ∈ config.sources →
    LoopStep config clock loop (.receiveError source quiet)
      (loop.receiveError objectSize source quiet)
  /-- The periodic check fails. -/
  | reauthorize {loop : Loop B} {topic : Topic} {code : String} :
    loop.running = true → config.topics.head? = some topic →
    LoopStep config clock loop (.reauthorize code)
      (loop.terminate objectSize
        { event := .error, topic, generation := loop.session.generation, reason := code
          refetchRequired := true })
  | client {loop : Loop B} {action : SessionAction B} {session : Session B} :
    ClientAction action → SessionStep objectSize loop.session action session →
    LoopStep config clock loop (.client action) { loop with session := session }

structure LoopStart (config : Config) (loop : Loop B) : Prop where
  session : SessionStart loop.session
  states : ∀ topic, loop.states topic = if topic ∈ config.topics then
    some (TopicState.new (config.sources.filter fun source => source.topic = topic).length)
    else none
  running : loop.running = true

end Kubepeep.Stream
