import Kubepeep.Authorization.Expand
import Kubepeep.Lib.System

/-!
# Access reviews

`internal/services/authorization/service.go`.  A check answers from the cache, joins a review in
flight, or leads a review of its own; invalidations count revisions up, and a review is shared and
cached only under the revisions it has started with.  Calls are numbered, and a review has the
number of the call that leads it.  The reviewer, the operations, the clock and the contexts of the
callers are the environment.
-/

open Function

namespace Kubepeep.Authorization

open Kubepeep.System

def UnknownTTL : Nat := 3 * 10 ^ 9

def forbiddenError : PublicError :=
  ⟨.CodeForbidden, "Kubernetes denied this operation (HTTP 403). The current identity lacks " ++
    "permission for this resource and operation; check its Role or ClusterRole bindings."⟩

structure AccessReviewResult where
  allowed : Bool
  denied : Bool
  complete : Bool
  deriving DecidableEq, Repr

/-- What `ReviewAccess` returns.  Of an error only the code of `TranslateOperationError` is read. -/
inductive Response where
  | answered (review : AccessReviewResult)
  | failed (code : ErrorCode)
  deriving DecidableEq, Repr

def classifyReview : Response → Decision × ReasonCode
  | .failed .CodeClientCanceled => (.DecisionUnknown, .ReasonRequestCanceled)
  | .failed .CodeUpstreamTimeout => (.DecisionUnknown, .ReasonSARTimeout)
  | .failed .CodeAuthenticationUnavailable =>
    (.DecisionUnknown, .ReasonSARAuthenticationUnavailable)
  | .failed .CodeForbidden => (.DecisionUnknown, .ReasonSARForbidden)
  | .failed _ => (.DecisionUnknown, .ReasonSARUnavailable)
  | .answered review =>
    if !review.complete || review.allowed == review.denied then
      (.DecisionUnknown, .ReasonSARIncomplete)
    else if review.allowed then (.DecisionAllowed, .ReasonSARAllowed)
    else (.DecisionDenied, .ReasonSARDenied)

/-- A decision with its end of life.  `review` is the review it comes from, and `interrupted` says
that this review has failed because the context of its leader was done. -/
structure Verdict where
  decision : Decision
  reasonCode : ReasonCode
  expiresAt : Nat
  review : Option Nat
  interrupted : Bool
  deriving DecidableEq, Repr

inductive OperationKind where
  | OperationRead
  | OperationMutation
  | OperationUpgrade
  deriving DecidableEq, Repr

inductive Program where
  | Check
  | Refresh
  | Revalidate (kind : OperationKind)
  | Guard (kind : OperationKind)
  deriving DecidableEq, Repr

structure Request where
  program : Program
  key : Key
  deriving DecidableEq, Repr

structure RevisionStamp where
  global : Nat
  generation : Nat
  key : Nat
  deriving DecidableEq, Repr

structure FlightKey where
  key : Key
  revision : RevisionStamp
  deriving DecidableEq, Repr

/-- A call.  `leading` has put its review in flight, `reviewing` has sent it, `responded` still has
to publish the result; `forbidden` still has to invalidate its key. -/
inductive Phase where
  | idle
  | started (now : Nat)
  | waiting (leader : Nat)
  | leading (revision : RevisionStamp)
  | reviewing (revision : RevisionStamp)
  | responded (revision : RevisionStamp) (response : Response) (verdict : Verdict)
  | checked (verdict : Verdict)
  | operating (verdict : Verdict)
  | forbidden (verdict : Verdict) (err : PublicError)
  | returned (verdict : Verdict) (executed : Bool) (err : Option PublicError)
  deriving DecidableEq, Repr

structure Service where
  now : Nat
  cache : Key → Option Verdict
  inflight : FlightKey → Option Nat
  globalRevision : Nat
  generationRevisions : String → Nat
  keyRevisions : Key → Nat
  call : Nat → Phase
  result : Nat → Option Verdict
  canceled : Nat → Bool

/-! ## Programs -/

def Program.bypassCache : Program → Bool
  | .Check => false
  | .Refresh => true
  | .Revalidate kind => kind != .OperationRead
  | .Guard kind => kind != .OperationRead

def revalidateError (kind : OperationKind) (verdict : Verdict) : Option PublicError :=
  if verdict.decision = .DecisionDenied then some forbiddenError
  else if verdict.decision = .DecisionUnknown ∧ kind ≠ .OperationRead then
    some (ReviewFailure ⟨verdict.decision, some verdict.reasonCode⟩)
  else none

def Program.settle (program : Program) (verdict : Verdict) : Phase :=
  match program with
  | .Check => .returned verdict false none
  | .Refresh => .returned verdict false none
  | .Revalidate kind => .returned verdict false (revalidateError kind verdict)
  | .Guard kind =>
    match revalidateError kind verdict with
    | some err => .returned verdict false (some err)
    | none => .operating verdict

def Program.reject (program : Program) (now : Nat) : Phase :=
  .returned ⟨.DecisionUnknown, .ReasonSARUnavailable, now, none, false⟩ false
    (match program with
      | .Check => none
      | .Refresh => none
      | .Revalidate _ => some validationError
      | .Guard _ => some validationError)

/-- The rest of `Guard` behind the operation. -/
def afterOperation (verdict : Verdict) (now : Nat) : Option PublicError → Phase
  | none =>
    if verdict.decision = .DecisionUnknown then
      .returned { verdict with
        decision := .DecisionAllowed, reasonCode := .ReasonOperationAllowed, expiresAt := now }
        true none
    else
      .returned verdict true none
  | some err =>
    if err.code = .CodeForbidden then .forbidden { verdict with expiresAt := now } err
    else
      .returned { verdict with
        decision := .DecisionUnknown, reasonCode := .ReasonOperationUnavailable,
        expiresAt := now } true (some err)

namespace Service

variable (service : Service)

def setCall (id : Nat) (phase : Phase) : Service :=
  { service with call := update service.call id phase }

@[simp] theorem setCall_self (id : Nat) (phase : Phase) :
    (service.setCall id phase).call id = phase :=
  update_self ..

def revisionLocked (key : Key) : RevisionStamp :=
  ⟨service.globalRevision, service.generationRevisions key.generation, service.keyRevisions key⟩

/-! ## The critical sections -/

def cached (request : Request) (now : Nat) : Option Verdict :=
  if request.program.bypassCache then none
  else (service.cache request.key).filter fun verdict => now < verdict.expiresAt

def dropCached (key : Key) : Service :=
  { service with cache := update service.cache key none }

@[simp] theorem revisionLocked_dropCached (key other : Key) :
    (service.dropCached key).revisionLocked other = service.revisionLocked other :=
  rfl

@[simp] theorem inflight_dropCached (key : Key) :
    (service.dropCached key).inflight = service.inflight :=
  rfl

def lead (id : Nat) (flight : FlightKey) : Service :=
  { service with
    inflight := update service.inflight flight (some id)
    call := update service.call id (.leading flight.revision) }

/-- The first critical section of `check`. -/
def enter (id : Nat) (request : Request) (now : Nat) : Service :=
  match service.cached request now with
  | some verdict => service.setCall id (.checked verdict)
  | none =>
    let service := service.dropCached request.key
    let flight := ⟨request.key, service.revisionLocked request.key⟩
    match service.inflight flight with
    | some leader => service.setCall id (.waiting leader)
    | none => service.lead id flight

def errorsCanceled (id : Nat) (response : Response) : Bool :=
  service.canceled id || response == .failed .CodeClientCanceled

/-- The second critical section of `check`. -/
def publish (id : Nat) (key : Key) (revision : RevisionStamp) (response : Response)
    (verdict : Verdict) : Service :=
  { service with
    result := update service.result id (some verdict)
    inflight := update service.inflight ⟨key, revision⟩ none
    cache :=
      if revision = service.revisionLocked key ∧ service.errorsCanceled id response = false then
        update service.cache key (some verdict)
      else service.cache
    call := update service.call id (.checked verdict) }

def InvalidateGeneration (generation : String) : Service :=
  { service with
    generationRevisions := update service.generationRevisions generation
      (service.generationRevisions generation + 1)
    cache := fun key => if key.generation = generation then none else service.cache key }

def InvalidateAll : Service :=
  { service with
    globalRevision := service.globalRevision + 1
    cache := fun _ => none
    generationRevisions := fun _ => 0
    keyRevisions := fun _ => 0 }

def invalidateKey (key : Key) : Service :=
  { service with
    keyRevisions := update service.keyRevisions key (service.keyRevisions key + 1)
    cache := update service.cache key none }

def verdictOf (ttl : Nat) (id : Nat) (response : Response) (interrupted : Bool) : Verdict :=
  let (decision, reason) := classifyReview response
  ⟨decision, reason,
    service.now + (if decision = .DecisionUnknown then UnknownTTL else ttl), some id, interrupted⟩

end Service

/-! ## Interleavings -/

inductive Action where
  | advance (duration : Nat)
  | cancel (id : Nat)
  | start (id : Nat)
  | enter (id : Nat)
  | review (id : Nat)
  | respond (id : Nat) (response : Response)
  | interrupt (id : Nat) (code : ErrorCode)
  | publish (id : Nat)
  | wake (id : Nat)
  | giveUp (id : Nat)
  | settle (id : Nat)
  | operate (id : Nat) (err : Option PublicError)
  | invalidateKey (id : Nat)
  | invalidateGeneration (generation : String)
  | invalidateAll
  deriving DecidableEq, Repr

/-- One step.  A review whose leader's context is done may end with the error of that context, as
the code of a cancellation or of a deadline. -/
inductive Step (validation : Validation) (ttl : Nat) (request : Nat → Request) :
    Service → Action → Service → Prop where
  | advance {service : Service} (duration : Nat) :
    Step validation ttl request service (.advance duration)
      { service with now := service.now + duration }
  | cancel {service : Service} (id : Nat) :
    Step validation ttl request service (.cancel id)
      { service with canceled := update service.canceled id true }
  | start {service : Service} {id : Nat} (h : service.call id = .idle) :
    Step validation ttl request service (.start id)
      (service.setCall id (if ValidateKey validation (request id).key then .started service.now
        else (request id).program.reject service.now))
  | enter {service : Service} {id now : Nat} (h : service.call id = .started now) :
    Step validation ttl request service (.enter id) (service.enter id (request id) now)
  | review {service : Service} {id : Nat} {revision : RevisionStamp}
    (h : service.call id = .leading revision) :
    Step validation ttl request service (.review id) (service.setCall id (.reviewing revision))
  | respond {service : Service} {id : Nat} {revision : RevisionStamp} (response : Response)
    (h : service.call id = .reviewing revision) :
    Step validation ttl request service (.respond id response)
      (service.setCall id
        (.responded revision response (service.verdictOf ttl id response false)))
  | interrupt {service : Service} {id : Nat} {revision : RevisionStamp} {code : ErrorCode}
    (h : service.call id = .reviewing revision) (hcanceled : service.canceled id = true)
    (hcode : code = .CodeClientCanceled ∨ code = .CodeUpstreamTimeout) :
    Step validation ttl request service (.interrupt id code)
      (service.setCall id
        (.responded revision (.failed code) (service.verdictOf ttl id (.failed code) true)))
  | publish {service : Service} {id : Nat} {revision : RevisionStamp} {response : Response}
    {verdict : Verdict} (h : service.call id = .responded revision response verdict) :
    Step validation ttl request service (.publish id)
      (service.publish id (request id).key revision response verdict)
  | wake {service : Service} {id leader : Nat} {verdict : Verdict}
    (h : service.call id = .waiting leader) (hresult : service.result leader = some verdict) :
    Step validation ttl request service (.wake id) (service.setCall id (.checked verdict))
  | giveUp {service : Service} {id leader : Nat} (h : service.call id = .waiting leader)
    (hcanceled : service.canceled id = true) :
    Step validation ttl request service (.giveUp id)
      (service.setCall id
        (.checked ⟨.DecisionUnknown, .ReasonRequestCanceled, service.now, none, false⟩))
  | settle {service : Service} {id : Nat} {verdict : Verdict}
    (h : service.call id = .checked verdict) :
    Step validation ttl request service (.settle id)
      (service.setCall id ((request id).program.settle verdict))
  | operate {service : Service} {id : Nat} {verdict : Verdict} (err : Option PublicError)
    (h : service.call id = .operating verdict) :
    Step validation ttl request service (.operate id err)
      (service.setCall id (afterOperation verdict service.now err))
  | invalidateKey {service : Service} {id : Nat} {verdict : Verdict} {err : PublicError}
    (h : service.call id = .forbidden verdict err) :
    Step validation ttl request service (.invalidateKey id)
      ((service.invalidateKey (request id).key).setCall id
        (.returned { verdict with
          decision := .DecisionDenied, reasonCode := .ReasonOperationDenied } true (some err)))
  | invalidateGeneration {service : Service} (generation : String) :
    Step validation ttl request service (.invalidateGeneration generation)
      (service.InvalidateGeneration generation)
  | invalidateAll {service : Service} :
    Step validation ttl request service .invalidateAll service.InvalidateAll

structure Service.New (service : Service) : Prop where
  cache : ∀ key, service.cache key = none
  inflight : ∀ flight, service.inflight flight = none
  call : ∀ id, service.call id = .idle
  result : ∀ id, service.result id = none

end Kubepeep.Authorization
