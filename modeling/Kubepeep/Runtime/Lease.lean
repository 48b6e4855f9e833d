import Kubepeep.Kubernetes.ClientCache
import Kubepeep.Selection.Coordinator

/-!
# Leases of the Kubernetes runtime

`Runtime` of `internal/integration/kubernetesruntime`.  Its binding and its lease have one lock, the
client cache has another; `leaseFor`, `Activate` and `OnGeneration` take them one after the other.
-/

namespace Kubepeep.Runtime

open Kubepeep.Kubernetes Kubepeep.Selection Kubepeep.System

inductive Job where
  | leaseFor
  | Activate
  deriving DecidableEq, Repr

/-- Where a call is, from its `cache.Activate` on.  `adopted` is a `leaseFor` that has resolved its
candidate again and offered it to the runtime. -/
inductive Stage where
  | checking
  | invalidating (error : SafeError)
  | entering
  | building (ticket : Ticket)
  | waiting (ticket : Ticket)
  | activated (result : Except SafeError Lease)
  | resolving
  | adopted (lease : Lease)
  | returned

/-- `binding` is the one the call has found in the runtime or has put there. -/
structure Call where
  job : Job
  binding : SelectionBinding
  candidate : Resolution
  retried : Bool
  stage : Stage

/-- `issued` counts the generations; `invalidating` are the descriptors that a call of
`OnGeneration` still has to invalidate.  `published` are the leases the runtime has published with
their generations, for the statements only. -/
structure World where
  cache : ClientCache
  candidate : Option Resolution
  lease : Option Lease
  binding : SelectionBinding
  issued : Nat
  invalidating : List Descriptor
  call : Nat → Option Call
  published : List (String × Lease)

namespace World

variable (world : World)

def setCache (cache : ClientCache) : World := { world with cache }

def setCall (id : Nat) (call : Call) : World :=
  { world with call := Function.update world.call id (some call) }

def setStage (id : Nat) (call : Call) (stage : Stage) : World :=
  world.setCall id { call with stage }

variable (binding : SelectionBinding)

def leaseFor : Option Resolution :=
  if world.binding.clusterProfileID ≠ binding.clusterProfileID ∨
      world.binding.context ≠ binding.context ∨ world.binding.generation ≠ binding.generation then
    none
  else
    world.candidate

def beginActivation (resolved : Resolution) (binding : SelectionBinding) :
    Option World :=
  if world.binding.generation ≠ "" ∧ world.binding.generation ≠ binding.generation then
    none
  else
    some { world with candidate := some resolved, lease := none, binding }

/-- `publishLease`, and the end of `leaseFor`. -/
def publishLease (lease : Lease) : World :=
  if world.binding = binding then
    { world with lease := some lease, published := (binding.generation, lease) :: world.published }
  else
    world

def adopt (fresh : Resolution) : World :=
  if world.binding = binding then { world with candidate := some fresh } else world

/-- The part of `OnGeneration` under the runtime's lock. -/
def OnGeneration (generation : String) : World :=
  { world with
    lease := none
    binding := { world.binding with generation }
    issued := world.issued + 1
    invalidating := match world.candidate with
      | none => world.invalidating
      | some candidate =>
        if candidate.descriptor.paths = [] then world.invalidating
        else candidate.descriptor :: world.invalidating }

end World

def Stage.entered : Entered → Stage
  | .returned result => .activated result
  | .building ticket => .building ticket
  | .waiting ticket => .waiting ticket

/-! ## Steps -/

inductive Action where
  | leaseFor (id : Nat) (binding : SelectionBinding)
  | Activate (id : Nat) (binding : SelectionBinding) (resolved : Resolution)
  | abandon (id : Nat) (error : SafeError)
  | current (id : Nat)
  | stale (id : Nat) (error : SafeError)
  | invalidate (id : Nat)
  | enter (id : Nat)
  | built (id : Nat) (result : Except SafeError Nat)
  | woken (id : Nat)
  | retry (id : Nat)
  | resolve (id : Nat) (fresh : Resolution)
  | fail (id : Nat)
  | adopt (id : Nat)
  | publish (id : Nat)
  | OnGeneration
  | invalidateOld (descriptor : Descriptor)
  | InvalidateOnError (descriptor : Descriptor)
  | Close
  | done

def Action.caller : Action → Option Nat
  | .abandon id _ | .current id | .stale id _ | .invalidate id | .enter id | .built id _ | .woken id
  | .retry id | .resolve id _ | .fail id | .adopt id | .publish id => some id
  | _ => none

def Call.Publishes (call : Call) (lease : Lease) : Prop :=
  call.stage = .activated (.ok lease) ∧ (call.job = .Activate ∨ call.retried = false) ∨
    call.stage = .adopted lease

/-- `generations` are the generations of the selection in order. -/
inductive Step (digest : List String → String) (generations : Nat → String) :
    World → Action → World → Prop where
  | leaseFor {world : World} {id : Nat} {binding : SelectionBinding} {candidate : Resolution} :
    world.call id = none → world.leaseFor binding = some candidate →
    Step digest generations world (.leaseFor id binding)
      (world.setCall id ⟨.leaseFor, world.binding, candidate, false, .checking⟩)
  /-- A binding has the generation it was published with. -/
  | Activate {world begun : World} {id index : Nat} {binding : SelectionBinding}
      {resolved : Resolution} :
    world.call id = none →
    0 < binding.clusterProfileID → binding.context ≠ "" → binding.generation ≠ "" →
    index ≤ world.issued → binding.generation = generations index →
    world.beginActivation resolved binding = some begun →
    Step digest generations world (.Activate id binding resolved)
      (begun.setCall id ⟨.Activate, binding, resolved, false, .checking⟩)
  /-- The context of the caller, or that of the cache, is done. -/
  | abandon {world : World} {id : Nat} {call : Call} {error : SafeError} :
    world.call id = some call → (call.stage = .checking ∨ ∃ ticket, call.stage = .waiting ticket) →
    IsGenerationChanged error = false →
    Step digest generations world (.abandon id error)
      (world.setStage id call (.activated (.error error)))
  | current {world : World} {id : Nat} {call : Call} :
    world.call id = some call → call.stage = .checking →
    Step digest generations world (.current id) (world.setStage id call .entering)
  /-- The files of the resolution have changed or cannot be read. -/
  | stale {world : World} {id : Nat} {call : Call} {error : SafeError} :
    world.call id = some call → call.stage = .checking →
    Step digest generations world (.stale id error) (world.setStage id call (.invalidating error))
  | invalidate {world : World} {id : Nat} {call : Call} {error : SafeError} :
    world.call id = some call → call.stage = .invalidating error →
    Step digest generations world (.invalidate id)
      ((world.setCache (world.cache.invalidateKey digest
          (call.candidate.descriptor.CacheKey digest))).setStage id call
        (.activated (.error error)))
  | enter {world : World} {id : Nat} {call : Call} :
    world.call id = some call → call.stage = .entering →
    Step digest generations world (.enter id)
      ((world.setCache (world.cache.enter digest call.candidate).1).setStage id call
        (.entered (world.cache.enter digest call.candidate).2))
  | built {world : World} {id : Nat} {call : Call} {ticket : Ticket}
      {result : Except SafeError Nat} :
    world.call id = some call → call.stage = .building ticket →
    Step digest generations world (.built id result)
      ((world.setCache (world.cache.built digest ticket result).1).setStage id call
        (.activated (world.cache.built digest ticket result).2))
  | woken {world : World} {id : Nat} {call : Call} {ticket : Ticket}
      {result : Except SafeError Nat} :
    world.call id = some call → call.stage = .waiting ticket →
    world.cache.builds ticket.call = some result →
    Step digest generations world (.woken id)
      ((world.setCache (world.cache.woken digest ticket result).1).setStage id call
        (.activated (world.cache.woken digest ticket result).2))
  | retry {world : World} {id : Nat} {call : Call} {error : SafeError} :
    world.call id = some call → call.job = .leaseFor → call.retried = false →
    call.stage = .activated (.error error) → IsGenerationChanged error = true →
    Step digest generations world (.retry id) (world.setStage id call .resolving)
  | resolve {world : World} {id : Nat} {call : Call} {fresh : Resolution} :
    world.call id = some call → call.stage = .resolving →
    Step digest generations world (.resolve id fresh)
      (world.setCall id { call with candidate := fresh, retried := true, stage := .checking })
  /-- The error is returned, or that of the second resolution. -/
  | fail {world : World} {id : Nat} {call : Call} :
    world.call id = some call →
    (call.stage = .resolving ∨ ∃ error, call.stage = .activated (.error error) ∧
      ¬ (call.job = .leaseFor ∧ call.retried = false ∧ IsGenerationChanged error = true)) →
    Step digest generations world (.fail id) (world.setStage id call .returned)
  | adopt {world : World} {id : Nat} {call : Call} {lease : Lease} :
    world.call id = some call → call.job = .leaseFor → call.retried = true →
    call.stage = .activated (.ok lease) →
    Step digest generations world (.adopt id)
      ((world.adopt call.binding call.candidate).setStage id call (.adopted lease))
  | publish {world : World} {id : Nat} {call : Call} {lease : Lease} :
    world.call id = some call → call.Publishes lease →
    Step digest generations world (.publish id)
      ((world.publishLease call.binding lease).setStage id call .returned)
  | OnGeneration {world : World} :
    Step digest generations world .OnGeneration
      (world.OnGeneration (generations (world.issued + 1)))
  | invalidateOld {world : World} {descriptor : Descriptor} :
    descriptor ∈ world.invalidating →
    Step digest generations world (.invalidateOld descriptor)
      { world.setCache (world.cache.invalidateKey digest (descriptor.CacheKey digest)) with
        invalidating := world.invalidating.erase descriptor }
  | InvalidateOnError {world : World} {descriptor : Descriptor} :
    Step digest generations world (.InvalidateOnError descriptor)
      (world.setCache (world.cache.invalidateKey digest (descriptor.CacheKey digest)))
  | Close {world : World} :
    Step digest generations world .Close (world.setCache world.cache.Close)
  /-- The parent of the cache's context is done. -/
  | done {world : World} :
    Step digest generations world .done (world.setCache { world.cache with done := true })

def World.new : World :=
  ⟨.new, none, none, ⟨0, "", "", 0, ""⟩, 0, [], fun _ => none, []⟩

end Kubepeep.Runtime
