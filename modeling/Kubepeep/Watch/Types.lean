import Kubepeep.Go.Json

/-!
# Topics, objects and events

The data of a resource stream (`internal/services/resources/watch.go`): the objects that a topic may
carry, their identities, and the events of a subscription with their encoded size.
-/

open Kubepeep.Go.Json

namespace Kubepeep.Watch

/-! ## Limits -/

def MaximumStreamEventBytes : Nat := 64 * 2 ^ 10

def MaximumSnapshotItems : Nat := 10000

def MaximumSnapshotBytes : Nat := 10 * 2 ^ 20

def MaximumStreamQueueBytes : Nat := 2 ^ 20

def MaximumStreamQueueEvents : Nat := 1000

def streamSSEEnvelopeReserve : Nat := 64

/-! ## Objects -/

inductive Topic where
  | TopicPods
  | TopicEvents
  | TopicWorkloads
  | TopicServices
  | TopicIngresses
  | TopicEndpointSlices
  | TopicConfigMaps
  | TopicPVCs
  deriving DecidableEq, Repr

def Topic.text : Topic → String
  | .TopicPods => "pods"
  | .TopicEvents => "events"
  | .TopicWorkloads => "workloads"
  | .TopicServices => "services"
  | .TopicIngresses => "ingresses"
  | .TopicEndpointSlices => "endpoint-slices"
  | .TopicConfigMaps => "configmaps"
  | .TopicPVCs => "persistent-volume-claims"

structure WatchSnapshot (O : Type) where
  resourceVersion : String
  items : List O
  deriving DecidableEq, Repr

/-- A named object; `B` is what only the wire format reads. -/
structure Named (B : Type) where
  namespaceName : String
  name : String
  body : B
  deriving DecidableEq, Repr

structure EventFields (B : Type) extends Named B where
  timestamp : Option String
  objectKind : String
  objectName : String
  reason : String
  deriving DecidableEq, Repr

inductive DTO (B : Type) where
  | PodDTO (pod : Named B)
  | EventDTO (event : EventFields B)
  | WorkloadDTO (kind : String) (workload : Named B)
  | ServiceDTO (service : Named B)
  | IngressDTO (ingress : Named B)
  | EndpointSliceDTO (slice : Named B)
  | ConfigMapListDTO (configMap : Named B)
  | PersistentVolumeClaimDTO (claim : Named B)
  deriving DecidableEq, Repr

def DTO.namespaceName {B : Type} : DTO B → String
  | .PodDTO pod => pod.namespaceName
  | .EventDTO event => event.namespaceName
  | .WorkloadDTO _ workload => workload.namespaceName
  | .ServiceDTO service => service.namespaceName
  | .IngressDTO ingress => ingress.namespaceName
  | .EndpointSliceDTO slice => slice.namespaceName
  | .ConfigMapListDTO configMap => configMap.namespaceName
  | .PersistentVolumeClaimDTO claim => claim.namespaceName

/-- A value of the `TopicObject` interface: a DTO, or a pointer to one.  A nil pointer is not among
them: its `resourceTopic` panics. -/
structure TopicObject (B : Type) where
  dto : DTO B
  pointer : Bool
  deriving DecidableEq, Repr

def TopicObject.resourceTopic {B : Type} (object : TopicObject B) : Topic :=
  match object.dto with
  | .PodDTO _ => .TopicPods
  | .EventDTO _ => .TopicEvents
  | .WorkloadDTO .. => .TopicWorkloads
  | .ServiceDTO _ => .TopicServices
  | .IngressDTO _ => .TopicIngresses
  | .EndpointSliceDTO _ => .TopicEndpointSlices
  | .ConfigMapListDTO _ => .TopicConfigMaps
  | .PersistentVolumeClaimDTO _ => .TopicPVCs

structure ResourceRef where
  apiGroup : String
  kind : String
  namespaceName : String
  name : String
  uid : String
  deriving DecidableEq, Repr

/-! ## Identities -/

def isSpace (c : Char) : Bool :=
  c == ' ' || c == '\t' || c == '\n' || c == '\r' || c == '\x0b' || c == '\x0c'

/-- `strings.ToLower(strings.TrimSpace(kind))`; kinds are ASCII. -/
def normalizedKind (kind : String) : String :=
  let trimmed := ((kind.toList.dropWhile isSpace).reverse.dropWhile isSpace).reverse
  String.ofList (trimmed.map Char.toLower)

def objectIdentity (kind namespaceName name : String) : String :=
  normalizedKind kind ++ "\x00" ++ namespaceName ++ "\x00" ++ name

def eventObjectIdentity {B : Type} (event : EventFields B) : String :=
  if event.name ≠ "" then
    objectIdentity "event" event.namespaceName event.name
  else
    "\x00".intercalate ["event", event.namespaceName, event.objectKind, event.objectName,
      event.reason, event.timestamp.getD ""]

/-- The switch treats a value and a pointer alike. -/
def TopicObject.identity {B : Type} (object : TopicObject B) : String :=
  match object.dto with
  | .PodDTO pod => objectIdentity "pod" pod.namespaceName pod.name
  | .EventDTO event => eventObjectIdentity event
  | .WorkloadDTO kind workload => objectIdentity kind workload.namespaceName workload.name
  | .ServiceDTO service => objectIdentity "service" service.namespaceName service.name
  | .IngressDTO ingress => objectIdentity "ingress" ingress.namespaceName ingress.name
  | .EndpointSliceDTO slice => objectIdentity "endpointslice" slice.namespaceName slice.name
  | .ConfigMapListDTO configMap =>
    objectIdentity "configmap" configMap.namespaceName configMap.name
  | .PersistentVolumeClaimDTO claim =>
    objectIdentity "persistentvolumeclaim" claim.namespaceName claim.name

/-- `none` is `false` in the second result. -/
def topicObjectIdentity {B : Type} (object : Option (TopicObject B)) : Option String :=
  object.map TopicObject.identity

def resourceRefIdentity (topic : Topic) (ref : Option ResourceRef) : Option String :=
  ref.map fun ref =>
    let kind :=
      if ref.kind ≠ "" then ref.kind
      else
        match topic with
        | .TopicPods => "pod"
        | .TopicServices => "service"
        | .TopicIngresses => "ingress"
        | .TopicEndpointSlices => "endpointslice"
        | .TopicConfigMaps => "configmap"
        | .TopicPVCs => "persistentvolumeclaim"
        | .TopicEvents => ""
        | .TopicWorkloads => ""
    objectIdentity kind ref.namespaceName ref.name

/-! ## Events -/

inductive EventType where
  | snapshot
  | added
  | modified
  | deleted
  | progress
  | refreshed
  | reset
  | error
  | heartbeat
  deriving DecidableEq, Repr

def EventType.text : EventType → String
  | .snapshot => "snapshot"
  | .added => "added"
  | .modified => "modified"
  | .deleted => "deleted"
  | .progress => "progress"
  | .refreshed => "refreshed"
  | .reset => "reset"
  | .error => "error"
  | .heartbeat => "heartbeat"

/-- Every event of a worker or a session names its topic. -/
structure StreamEvent (B : Type) where
  event : EventType
  topic : Topic
  generation : String
  resourceVersion : String := ""
  items : List (TopicObject B) := []
  object : Option (TopicObject B) := none
  deleted : Option ResourceRef := none
  reason : String := ""
  refetchRequired : Bool := false
  final : Bool := false
  chunk : Nat := 0
  completedNamespaces : Nat := 0
  requestedNamespaces : Nat := 0
  observedAt : String := ""
  deriving DecidableEq, Repr

/-! ## Encoded size -/

/-- The length of a JSON object or array with members of these lengths. -/
def enclosedSize (members : List Nat) : Nat :=
  2 + members.sum + (members.length - 1)

def fieldSize (name : String) (value : Nat) : Nat :=
  name.utf8ByteSize + 3 + value

def stringSize (s : String) : Nat :=
  (marshalString s).utf8ByteSize

/-- A field with `omitempty`. -/
def optionalField (present : Bool) (name : String) (value : Nat) : List Nat :=
  if present then [fieldSize name value] else []

def ResourceRef.encodedSize (ref : ResourceRef) : Nat :=
  enclosedSize [fieldSize "apiGroup" (stringSize ref.apiGroup),
    fieldSize "kind" (stringSize ref.kind),
    fieldSize "namespace" (stringSize ref.namespaceName), fieldSize "name" (stringSize ref.name),
    fieldSize "uid" (stringSize ref.uid)]

variable {B : Type} (objectSize : TopicObject B → Nat)

/-- The length of `json.Marshal(items)`. -/
def itemsSize (items : List (TopicObject B)) : Nat :=
  enclosedSize (items.map objectSize)

/-- The length of `json.Marshal(event)`, given that of each object. -/
def StreamEvent.encodedSize (event : StreamEvent B) : Nat :=
  enclosedSize (
    [fieldSize "event" (stringSize event.event.text),
      fieldSize "topic" (stringSize event.topic.text),
      fieldSize "generation" (stringSize event.generation)] ++
    optionalField (event.resourceVersion != "") "resourceVersion"
      (stringSize event.resourceVersion) ++
    optionalField (!event.items.isEmpty) "items" (itemsSize objectSize event.items) ++
    optionalField event.object.isSome "object" ((event.object.map objectSize).getD 0) ++
    optionalField event.deleted.isSome "deleted"
      ((event.deleted.map ResourceRef.encodedSize).getD 0) ++
    optionalField (event.reason != "") "reason" (stringSize event.reason) ++
    optionalField event.refetchRequired "refetchRequired" 4 ++
    optionalField event.final "final" 4 ++
    optionalField (event.chunk != 0) "chunk" event.chunk.repr.utf8ByteSize ++
    optionalField (event.completedNamespaces != 0) "completedNamespaces"
      event.completedNamespaces.repr.utf8ByteSize ++
    optionalField (event.requestedNamespaces != 0) "requestedNamespaces"
      event.requestedNamespaces.repr.utf8ByteSize ++
    optionalField (event.observedAt != "") "observedAt" (stringSize event.observedAt))

/-- With the room that the SSE envelope needs. -/
def StreamEvent.wireBytes (event : StreamEvent B) : Nat :=
  event.encodedSize objectSize + streamSSEEnvelopeReserve

end Kubepeep.Watch
