import Kubepeep.Lib.System

/-!
# Selection changes

`internal/services/selection`: a coordinator numbers the intents to change the selection, and the
newest one commits its change under the coordinator's lock while the state of the selection has a
lock of its own.  Any number of changes run at the same time.
-/

open Function

namespace Kubepeep.Selection

open Kubepeep.System

inductive ScopeMode where
  | single
  | list
  | all
  deriving DecidableEq, Repr

structure SelectionBinding where
  clusterProfileID : Int
  context : String
  cluster : String
  activeScopeID : Int
  generation : String
  deriving DecidableEq, Repr

structure ScopeResolution where
  scopeID : Int
  scopeName : String
  scopeMode : ScopeMode
  scopeSource : String
  defaultNamespace : Option String
  namespaces : List String
  preferGlobal : Bool
  deriving DecidableEq, Repr

structure SelectionMutation where
  publishGeneration : Bool
  activation : Option ScopeResolution
  deriving DecidableEq, Repr

inductive SelectionError where
  | ErrSuperseded
  | ErrGenerationChanged
  | other (text : String)
  deriving DecidableEq, Repr

/-- The methods of `State` that change the selection. -/
inductive Change where
  | Mutate
  | ReplaceContextPrepared
  | ReplaceContext (binding : SelectionBinding) (resolution : ScopeResolution)
  deriving DecidableEq, Repr

inductive Activation where
  | scope (resolution : ScopeResolution)
  | context (binding : SelectionBinding) (resolution : ScopeResolution)
  deriving DecidableEq, Repr

/-- How a change ends.  `unrotated` is a change that is published although the token of the session
could not be renewed. -/
inductive Outcome where
  | failed (error : SelectionError)
  | kept
  | published
  | unrotated
  deriving DecidableEq, Repr

/-- Where the goroutine of a change is, up to its commit: the three calls of `Validate`, and what
stands between them. -/
inductive Stage where
  | begun
  | validated
  | compared
  | revalidated
  | prepared
  | ready
  | committing
  | finished (outcome : Outcome)
  deriving DecidableEq, Repr

/-- `begunAt` is the generation at the call of `Begin`, for the statements only. -/
structure Intent where
  change : Change
  expectedGeneration : String
  begunAt : String
  stage : Stage
  target : Option (SelectionBinding × ScopeResolution)
  deriving DecidableEq, Repr

/-- Where `CommitConditional` is, with the coordinator's lock held. -/
inductive Phase where
  | fenced
  | accepted (activation : Option Activation)
  | rotated (activation : Activation)
  | renewed (activation : Activation)
  | activated
  deriving DecidableEq, Repr

structure Session where
  token : String
  generation : String
  expiresAt : Nat
  deriving DecidableEq, Repr

/-- `issued` is the number of generations before the current one.  Contexts are numbered: those of
intents by their sequence, those of work in the order of their creation. -/
structure World where
  generation : String
  issued : Nat
  session : Session
  sequence : Nat
  intentStop : Option Nat
  cancelled : Nat → Bool
  workContext : Nat
  workCancelled : Nat → Bool
  workStop : Bool
  binding : SelectionBinding
  resolution : ScopeResolution
  intent : Nat → Option Intent
  lock : Option (Nat × Phase)

namespace World

variable (world : World) (id : Nat)

def stop : World :=
  { world with cancelled := update world.cancelled id true }

variable (intent : Intent)

def setIntent : World :=
  { world with intent := update world.intent id (some intent) }

def setStage (stage : Stage) : World :=
  world.setIntent id { intent with stage }

/-- The change returns; the deferred `Cancel` runs. -/
def finish (outcome : Outcome) : World :=
  (world.setStage id intent (.finished outcome)).stop id

/-- The same for a commit, which also gives the lock back. -/
def release (outcome : Outcome) : World :=
  { world.finish id intent outcome with lock := none }

def hold (phase : Phase) : World :=
  { world with lock := some (id, phase) }

def stoppedIntent : Nat → Bool :=
  match world.intentStop with
  | none => world.cancelled
  | some id => update world.cancelled id true

def Begin (change : Change) (expectedGeneration : String) : World :=
  let sequence := world.sequence + 1
  { world.setIntent sequence
      { change, expectedGeneration, begunAt := world.generation, stage := .begun
        target := match change with
          | .ReplaceContext binding resolution => some (binding, resolution)
          | _ => none } with
    sequence
    intentStop := some sequence
    cancelled := update world.stoppedIntent sequence false }

/-- The check of `Validate`, which `CommitConditional` makes as well. -/
def Validate : Option SelectionError :=
  if id ≠ world.sequence ∨ world.cancelled id = true then
    some .ErrSuperseded
  else if intent.expectedGeneration = "" ∨ intent.expectedGeneration ≠ world.generation then
    some .ErrGenerationChanged
  else
    none

/-- The transaction of `Mutate`, with what its callback returns. -/
def mutateTransaction (result : Except String SelectionMutation) :
    Except SelectionError (Option Activation) :=
  if world.binding.generation ≠ intent.expectedGeneration then
    .error .ErrGenerationChanged
  else
    match result with
    | .error text => .error (.other text)
    | .ok mutation =>
      match mutation.publishGeneration, mutation.activation with
      | true, none =>
        .error (.other "selection: published scope mutation requires an activation")
      | false, some _ =>
        .error (.other "selection: inactive scope mutation cannot activate a resolution")
      | true, some resolution => .ok (some (.scope resolution))
      | false, none => .ok none

/-- The transaction of the two methods that replace the context; only one compares the
generation. -/
def contextTransaction (result : Except String Unit) :
    Except SelectionError (Option Activation) :=
  if intent.change = .ReplaceContextPrepared ∧
      world.binding.generation ≠ intent.expectedGeneration then
    .error .ErrGenerationChanged
  else
    match result with
    | .error text => .error (.other text)
    | .ok () => .ok (intent.target.map fun target => .context target.1 target.2)

/-- `afterPublish` -/
def activate : Activation → World
  | .scope resolution =>
    { world with
      binding := { world.binding with
        activeScopeID := resolution.scopeID
        generation := world.generation }
      resolution }
  | .context binding resolution =>
    { world with
      binding := { binding with
        generation := world.generation
        activeScopeID := resolution.scopeID }
      resolution }

/-- `SessionStore.Current`, with a new token and its expiry if one is needed. -/
def currentSession (generation token : String) (now expiresAt : Nat) : World :=
  if world.session.token = "" ∨ world.session.generation ≠ generation ∨
      world.session.expiresAt ≤ now then
    { world with session := ⟨token, generation, expiresAt⟩ }
  else
    world

/-- Both closures of `Mutate` and of the methods that replace the context. -/
def transaction (result : Except String SelectionMutation) :
    Except SelectionError (Option Activation) :=
  match intent.change with
  | .Mutate => world.mutateTransaction intent result
  | _ => world.contextTransaction intent (result.map fun _ => ())

def renewWork : World :=
  { world with
    workContext := world.workContext + 1
    workCancelled := if world.workStop then
      update world.workCancelled world.workContext true else world.workCancelled
    workStop := true }

/-- `GenerationStore.Rotate` -/
def Rotate (generation : String) : World :=
  { world with generation, issued := world.issued + 1 }

/-- `Close` cancels the contexts of the last intent and of the work. -/
def Close : World :=
  { world with
    intentStop := none
    cancelled := world.stoppedIntent
    workCancelled := if world.workStop then
      update world.workCancelled world.workContext true else world.workCancelled
    workStop := false }

end World

def Stage.validated? : Stage → Option Stage
  | .begun => some .validated
  | .compared => some .revalidated
  | .prepared => some .ready
  | _ => none

/-- The change has come to its commit.  `ReplaceContext` commits without a preparation. -/
def Intent.Ready (intent : Intent) : Prop :=
  match intent.change with
  | .Mutate => intent.stage = .ready
  | .ReplaceContextPrepared => intent.stage = .ready ∧ ∃ binding resolution,
    intent.target = some (binding, resolution) ∧ 0 < binding.clusterProfileID ∧
      binding.context ≠ ""
  | .ReplaceContext .. => intent.stage = .begun

/-! ## Steps -/

inductive Action where
  | Begin (change : Change) (expectedGeneration : String)
  | cancel (id : Nat)
  | Validate (id : Nat)
  | compare (id : Nat)
  | prepare (id : Nat) (result : Except String (Option (SelectionBinding × ScopeResolution)))
  | reject (id : Nat) (text : String)
  | commit (id : Nat)
  | transaction (id : Nat) (result : Except String SelectionMutation)
  | keep (id : Nat)
  | rotate (id : Nat)
  | renew (id : Nat)
  | afterPublish (id : Nat)
  | rotateSession (id : Nat) (session : Option (String × Nat))
  | session (generation token : String) (now expiresAt : Nat)
  | Initialize (binding : SelectionBinding) (resolution : ScopeResolution)
  | Close

/-- `generations` are the values of `GenerationStore.Rotate`, which does not fail. -/
inductive Step (generations : Nat → String) : World → Action → World → Prop where
  | Begin {world : World} {change : Change} {expectedGeneration : String} :
    world.lock = none →
    Step generations world (.Begin change expectedGeneration)
      (world.Begin change expectedGeneration)
  /-- The caller's context is cancelled. -/
  | cancel {world : World} {id : Nat} :
    Step generations world (.cancel id) (world.stop id)
  | validated {world : World} {id : Nat} {intent : Intent} {stage : Stage} :
    world.lock = none → world.intent id = some intent → intent.stage.validated? = some stage →
    world.Validate id intent = none →
    Step generations world (.Validate id) (world.setStage id intent stage)
  | invalid {world : World} {id : Nat} {intent : Intent} {stage : Stage} {error : SelectionError} :
    world.lock = none → world.intent id = some intent → intent.stage.validated? = some stage →
    world.Validate id intent = some error →
    Step generations world (.Validate id) (world.finish id intent (.failed error))
  | compared {world : World} {id : Nat} {intent : Intent} :
    world.intent id = some intent → intent.stage = .validated →
    world.binding.generation = intent.expectedGeneration →
    Step generations world (.compare id) (world.setStage id intent .compared)
  | changed {world : World} {id : Nat} {intent : Intent} :
    world.intent id = some intent → intent.stage = .validated →
    world.binding.generation ≠ intent.expectedGeneration →
    Step generations world (.compare id)
      (world.finish id intent (.failed .ErrGenerationChanged))
  | prepared {world : World} {id : Nat} {intent : Intent}
      {target : Option (SelectionBinding × ScopeResolution)} :
    world.intent id = some intent → intent.stage = .revalidated →
    Step generations world (.prepare id (.ok target))
      (world.setIntent id { intent with stage := .prepared, target })
  /-- A preparation that fails is followed by one more check. -/
  | unprepared {world : World} {id : Nat} {intent : Intent} {text : String} :
    world.lock = none → world.intent id = some intent → intent.stage = .revalidated →
    Step generations world (.prepare id (.error text))
      (world.finish id intent (.failed ((world.Validate id intent).getD (.other text))))
  /-- The preparation has returned no transaction, or no profile and context. -/
  | reject {world : World} {id : Nat} {intent : Intent} {text : String} :
    world.intent id = some intent → intent.stage = .ready →
    Step generations world (.reject id text) (world.finish id intent (.failed (.other text)))
  | fenced {world : World} {id : Nat} {intent : Intent} :
    world.lock = none → world.intent id = some intent → intent.Ready →
    world.Validate id intent = none →
    Step generations world (.commit id) ((world.setStage id intent .committing).hold id .fenced)
  | refused {world : World} {id : Nat} {intent : Intent} {error : SelectionError} :
    world.lock = none → world.intent id = some intent → intent.Ready →
    world.Validate id intent = some error →
    Step generations world (.commit id) (world.finish id intent (.failed error))
  | accepted {world : World} {id : Nat} {intent : Intent}
      {result : Except String SelectionMutation} {activation : Option Activation} :
    world.lock = some (id, .fenced) → world.intent id = some intent →
    world.transaction intent result = .ok activation →
    Step generations world (.transaction id result) (world.hold id (.accepted activation))
  | aborted {world : World} {id : Nat} {intent : Intent}
      {result : Except String SelectionMutation} {error : SelectionError} :
    world.lock = some (id, .fenced) → world.intent id = some intent →
    world.transaction intent result = .error error →
    Step generations world (.transaction id result) (world.release id intent (.failed error))
  | keep {world : World} {id : Nat} {intent : Intent} :
    world.lock = some (id, .accepted none) → world.intent id = some intent →
    Step generations world (.keep id) (world.release id intent .kept)
  | rotate {world : World} {id : Nat} {activation : Activation} :
    world.lock = some (id, .accepted (some activation)) →
    Step generations world (.rotate id)
      ((world.Rotate (generations (world.issued + 1))).hold id (.rotated activation))
  /-- The hooks run here; they do not change the selection. -/
  | renew {world : World} {id : Nat} {activation : Activation} :
    world.lock = some (id, .rotated activation) →
    Step generations world (.renew id) (world.renewWork.hold id (.renewed activation))
  | afterPublish {world : World} {id : Nat} {activation : Activation} :
    world.lock = some (id, .renewed activation) →
    Step generations world (.afterPublish id) ((world.activate activation).hold id .activated)
  | published {world : World} {id expiresAt : Nat} {intent : Intent} {token : String} :
    world.lock = some (id, .activated) → world.intent id = some intent →
    Step generations world (.rotateSession id (some (token, expiresAt)))
      ({ world with session := ⟨token, world.generation, expiresAt⟩ }.release id intent .published)
  | unrotated {world : World} {id : Nat} {intent : Intent} :
    world.lock = some (id, .activated) → world.intent id = some intent →
    Step generations world (.rotateSession id none) (world.release id intent .unrotated)
  /-- A request for the session, with a generation read at any time before. -/
  | session {world : World} {generation token : String} {now expiresAt : Nat} :
    generation ≠ "" →
    Step generations world (.session generation token now expiresAt)
      (world.currentSession generation token now expiresAt)
  /-- The generation is read with the lock of the state held, and nothing reads the binding before
  that lock is given back. -/
  | Initialize {world : World} {binding : SelectionBinding} {resolution : ScopeResolution} :
    0 < binding.clusterProfileID → binding.context ≠ "" →
    world.binding.clusterProfileID = 0 → world.binding.context = "" →
    Step generations world (.Initialize binding resolution)
      (world.activate (.context binding resolution))
  | Close {world : World} : world.lock = none → Step generations world .Close world.Close

/-- Generations that do not repeat. -/
def tally (count : Nat) : String := String.ofList (List.replicate (count + 1) 'g')

theorem tally_injective : Injective tally := by
  intro count other h
  have hlength := congrArg String.length h
  simpa [tally] using hlength

theorem tally_ne_empty (count : Nat) : tally count ≠ "" := by
  intro h
  have hlength := congrArg String.length h
  simp [tally] at hlength

structure Start (generations : Nat → String) (world : World) : Prop where
  generation : world.generation = generations world.issued
  binding : world.binding.generation = world.generation
  intent : ∀ id, world.intent id = none
  sequence : world.sequence = 0
  intentStop : world.intentStop = none
  lock : world.lock = none

end Kubepeep.Selection
