import Kubepeep.Actions.Generations
import Kubepeep.Lib.System
import Kubepeep.Lib.Table

/-!
# Guarded mutations

`guarded`, `beginOperation`, `OnGeneration` and `Shutdown` of
`internal/services/actions/service.go`.  A mutation registers its operation, checks that its
generation is current, runs the operation under a context of its own, and checks again; a sweep
collects the registered operations under the lock and cancels their contexts one by one behind it.
The authorizer, the operations, the contexts of the callers and the coordinator that changes the
generation are the environment.
-/

open Function

namespace Kubepeep.Actions.Guarded

open Kubepeep.System

inductive ActionError (E : Type) where
  | refused
  | context
  | CodeServerShutdown
  | CodeGenerationChanged
  | operation (err : E)
  deriving DecidableEq, Repr

/-- A mutation.  `permitted` has passed the review of the authorizer, `begun` has registered its
operation, `cleared` has found its generation current; behind the operation, `ended` still has to
check the generation again and `closing` and `closed` still have to cancel the context and to
unregister.  `stale` says that the generation was not current when the operation ended. -/
inductive Phase (E : Type) where
  | idle
  | reviewing
  | permitted
  | begun (operation : Nat)
  | cleared (operation : Nat)
  | running (operation : Nat)
  | ended (operation : Nat) (stale : Bool) (err : Option E)
  | closing (operation : Nat) (stale : Bool) (err : Option (ActionError E))
  | closed (operation : Nat) (stale : Bool) (err : Option (ActionError E))
  | finished (stale : Bool) (err : Option (ActionError E))
  deriving DecidableEq, Repr

/-- A call of `OnGeneration` or of `Shutdown` with the contexts it still has to cancel.  `early` is
a `Shutdown` that has found the service shut down. -/
inductive Sweep where
  | idle
  | sweeping (scope : Scope) (pending : List Nat)
  | returned (scope : Scope)
  | early
  deriving DecidableEq, Repr

/-- The context of a registered operation is the one of its mutation. -/
structure GenerationOperation where
  generation : String
  mutation : Nat
  deriving DecidableEq, Repr

structure Service (E : Type) where
  generations : Generations
  shutdown : Bool
  nextOperation : Nat
  operations : Table Nat GenerationOperation
  call : Nat → Phase E
  /-- The caller's context is done. -/
  abandoned : Nat → Bool
  /-- The context of the operation is done. -/
  canceled : Nat → Bool
  sweep : Nat → Sweep

variable {E : Type}

namespace Service

variable (service : Service E)

def setCall (id : Nat) (phase : Phase E) : Service E :=
  { service with call := update service.call id phase }

def setSweep (id : Nat) (sweep : Sweep) : Service E :=
  { service with sweep := update service.sweep id sweep }

def cancel (id : Nat) : Service E :=
  { service with canceled := update service.canceled id true }

def beginOperation (id : Nat) (generation : String) : Service E :=
  if service.shutdown then service.setCall id (.finished false (some .CodeServerShutdown))
  else
    { service with
      nextOperation := service.nextOperation + 1
      operations := service.operations.insert (service.nextOperation + 1) ⟨generation, id⟩
      canceled := update service.canceled id (service.abandoned id)
      call := update service.call id (.begun (service.nextOperation + 1)) }

/-- The second half of the function that `beginOperation` returns. -/
def unregister (id operation : Nat) (stale : Bool) (err : Option (ActionError E)) : Service E :=
  { service with
    operations := service.operations.erase operation
    call := update service.call id (.finished stale err) }

/-- The mutations whose operations `OnGeneration` and `Shutdown` cancel. -/
def sweepable (keep : String → Bool) : List Nat :=
  (service.operations.entries.filter fun row => !keep row.2.generation).map fun row =>
    row.2.mutation

def OnGeneration (id : Nat) (current : String) : Service E :=
  service.setSweep id (.sweeping (.older service.generations.retired current)
    (service.sweepable fun generation => generation == current))

def Shutdown (id : Nat) : Service E :=
  if service.shutdown then service.setSweep id .early
  else
    { service with
      shutdown := true
      sweep := update service.sweep id
        (.sweeping .all (service.sweepable fun _ => false)) }

end Service

/-! ## Interleavings -/

inductive Action (E : Type) where
  | rotate (next : String)
  | abandon (id : Nat)
  | expire (id : Nat)
  | start (id : Nat)
  | refuse (id : Nat)
  | permit (id : Nat)
  | withdraw (id : Nat)
  | enter (id : Nat)
  | check (id : Nat)
  | run (id : Nat)
  | complete (id : Nat) (err : Option E)
  | recheck (id : Nat)
  | close (id : Nat)
  | unregister (id : Nat)
  | onGeneration (sweep : Nat) (current : String)
  | shutdown (sweep : Nat)
  | cancelNext (sweep : Nat)
  | returnSweep (sweep : Nat)
  deriving DecidableEq, Repr

section Steps

variable (generation : Nat → String)

/-- One step.  `OnGeneration` is called with a generation that has become current before. -/
inductive Step : Service E → Action E → Service E → Prop where
  | rotate {service : Service E} (next : String) (h : next ∉ service.generations.seen) :
    Step service (.rotate next)
      { service with generations := service.generations.rotate next h }
  | abandon {service : Service E} (id : Nat) :
    Step service (.abandon id)
      { service.cancel id with abandoned := update service.abandoned id true }
  | expire {service : Service E} (id : Nat) : Step service (.expire id) (service.cancel id)
  | start {service : Service E} {id : Nat} (h : service.call id = .idle) :
    Step service (.start id) (service.setCall id .reviewing)
  | refuse {service : Service E} {id : Nat} (h : service.call id = .reviewing) :
    Step service (.refuse id) (service.setCall id (.finished false (some .refused)))
  | permit {service : Service E} {id : Nat} (h : service.call id = .reviewing) :
    Step service (.permit id) (service.setCall id .permitted)
  | withdraw {service : Service E} {id : Nat} (h : service.call id = .permitted)
    (habandoned : service.abandoned id = true) :
    Step service (.withdraw id) (service.setCall id (.finished false (some .context)))
  | enter {service : Service E} {id : Nat} (h : service.call id = .permitted) :
    Step service (.enter id) (service.beginOperation id (generation id))
  | check {service : Service E} {id operation : Nat} (h : service.call id = .begun operation) :
    Step service (.check id) (service.setCall id
      (if service.generations.requireCurrent (generation id) then .cleared operation
        else .closing operation false (some .CodeGenerationChanged)))
  | run {service : Service E} {id operation : Nat} (h : service.call id = .cleared operation) :
    Step service (.run id) (service.setCall id (.running operation))
  | complete {service : Service E} {id operation : Nat} (err : Option E)
    (h : service.call id = .running operation) :
    Step service (.complete id err) (service.setCall id
      (.ended operation (service.generations.current != generation id) err))
  | recheck {service : Service E} {id operation : Nat} {stale : Bool} {err : Option E}
    (h : service.call id = .ended operation stale err) :
    Step service (.recheck id) (service.setCall id (.closing operation stale
      (if service.generations.requireCurrent (generation id) then err.map .operation
        else some .CodeGenerationChanged)))
  | close {service : Service E} {id operation : Nat} {stale : Bool}
    {err : Option (ActionError E)} (h : service.call id = .closing operation stale err) :
    Step service (.close id) ((service.cancel id).setCall id (.closed operation stale err))
  | unregister {service : Service E} {id operation : Nat} {stale : Bool}
    {err : Option (ActionError E)} (h : service.call id = .closed operation stale err) :
    Step service (.unregister id) (service.unregister id operation stale err)
  | onGeneration {service : Service E} {id : Nat} (current : String)
    (h : service.sweep id = .idle) (hseen : current ∈ service.generations.seen) :
    Step service (.onGeneration id current) (service.OnGeneration id current)
  | shutdown {service : Service E} {id : Nat} (h : service.sweep id = .idle) :
    Step service (.shutdown id) (service.Shutdown id)
  | cancelNext {service : Service E} {id mutation : Nat} {scope : Scope} {pending : List Nat}
    (h : service.sweep id = .sweeping scope (mutation :: pending)) :
    Step service (.cancelNext id)
      ((service.cancel mutation).setSweep id (.sweeping scope pending))
  | returnSweep {service : Service E} {id : Nat} {scope : Scope}
    (h : service.sweep id = .sweeping scope []) :
    Step service (.returnSweep id) (service.setSweep id (.returned scope))

end Steps

structure Service.New (service : Service E) : Prop where
  shutdown : service.shutdown = false
  operations : service.operations = ∅
  call : ∀ id, service.call id = .idle
  sweep : ∀ id, service.sweep id = .idle

end Kubepeep.Actions.Guarded
