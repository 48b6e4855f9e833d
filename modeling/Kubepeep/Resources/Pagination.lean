import Kubepeep.Lib.Effect
import Kubepeep.Resources.Cursor

/-!
# Pagination strategies

`internal/services/resources/pagination.go` and `retry.go`.  The authorizer, the lister, the request
context and the scheduler of the worker pool are an environment with its own state, so every
sequence of answers, failures, timeouts and completion orders is one environment.
-/

open Kubepeep.Authorization

namespace Kubepeep.Resources

/-- What a collection asks for.  The jobs of a worker pool come back in completion order; a job that
was not started before the context ended does not come back. -/
structure Cluster (σ T : Type) where
  check : Key → StateM σ Capability
  listPage : PageRequest → StateM σ (OriginPage T × Option ReadError)
  contextErr : StateM σ (Option ReadError)
  jitter : Int → StateM σ Int
  wait : Int → StateM σ (Option ReadError)
  schedule : (indices : List Nat) → StateM σ { order : List Nat // order.Subperm indices }
  /-- The adapters answer for the origin they were asked for, or leave the origin empty. -/
  listPage_origin : ∀ request s, ((listPage request).run s).1.1.origin = request.origin ∨
    ((listPage request).run s).1.1.origin = Origin.zero

/-- A run ends early with an error, or because its iteration budget is spent. -/
inductive Halt where
  | failed (err : ReadError)
  | unfinished
  deriving DecidableEq, Repr

structure RetryPolicy where
  attempts : Int
  base : Int
  maximum : Int
  deriving DecidableEq, Repr

inductive SortOrder where
  | OrderAscending
  | OrderDescending
  deriving DecidableEq, Repr

/-- The options that the collection itself looks at. -/
structure ListOptions where
  limit : Int
  sort : String
  order : SortOrder
  labelSelector : String
  fieldSelector : String
  deriving DecidableEq, Repr

structure Selection where
  generation : String
  context : String
  scope : String
  deriving DecidableEq, Repr

structure CollectionRequest (T : Type) where
  selection : Selection
  options : ListOptions
  origins : List Origin
  cursor : Option (CompositeCursor T)
  less : T → T → Bool
  requestedNamespaces : Int
  fanout : Int
  retry : RetryPolicy
  preferredNamespace : String
  nativeIdentityOrder : Bool
  globalGrantFastPath : Bool
  readThroughUnknown : Bool
  globalListGrant : Option Capability

/-- `failedAttempts` is not in the source, which keeps only the last error: the errors of all LIST
attempts that were made for the outcome. -/
structure OriginOutcome (T : Type) where
  page : OriginPage T
  capability : Capability
  err : Option ReadError
  queried : Bool
  authoritative : Bool
  failedAttempts : List ReadError
  deriving DecidableEq, Repr

variable {σ T : Type}

/-! ## Retries -/

def DefaultListAttempts : Int := 3

/-- Durations in nanoseconds. -/
def DefaultRetryBase : Int := 200000000

def MaximumRetryDelay : Int := 5000000000

def normalizeRetryPolicy (policy : RetryPolicy) : RetryPolicy where
  attempts := if policy.attempts ≤ 0 then DefaultListAttempts else policy.attempts
  base := if policy.base ≤ 0 then DefaultRetryBase else policy.base
  maximum :=
    if policy.maximum ≤ 0 ∨ policy.maximum > MaximumRetryDelay then MaximumRetryDelay
    else policy.maximum

/-- The delay before the jitter: the backoff, raised to the server's minimum, capped. -/
def retryDelay (policy : RetryPolicy) (attempt : Nat) (retryAfter : Int) : Int :=
  min (max (policy.base * 2 ^ attempt) retryAfter) policy.maximum

def boundedDelay (policy : RetryPolicy) (retryAfter delay : Int) : Int :=
  max (min (max delay 0) policy.maximum) retryAfter

def emptyPage (origin : Origin) : OriginPage T :=
  ⟨origin, [], "", ""⟩

/-- The loop over the attempts that are left; `failed` holds the errors of those before. -/
def retryLoop (cluster : Cluster σ T) (request : PageRequest) (policy : RetryPolicy) :
    Nat → Nat → List ReadError → StateM σ (OriginPage T × Option ReadError × List ReadError)
  | 0, _, failed => pure (emptyPage request.origin, failed.getLast?, failed)
  | left + 1, attempt, failed => do
    match ← cluster.contextErr with
    | some err => return (emptyPage request.origin, some err, failed)
    | none =>
      match ← cluster.listPage request with
      | (page, none) => return (page, none, failed)
      | (page, some err) =>
        let failed := failed ++ [err]
        if !retryableRead err || left = 0 then
          return (page, some err, failed)
        let retryAfter := err.retryAfter.getD 0
        if retryAfter > policy.maximum then
          return (page, some err, failed)
        let delay ← cluster.jitter (retryDelay policy attempt retryAfter)
        match ← cluster.wait (boundedDelay policy retryAfter delay) with
        | some err => return (emptyPage request.origin, some err, failed)
        | none => retryLoop cluster request policy left (attempt + 1) failed

variable (cluster : Cluster σ T)

def retryListPage (request : PageRequest) (policy : RetryPolicy) :
    StateM σ (OriginPage T × Option ReadError × List ReadError) :=
  let policy := normalizeRetryPolicy policy
  retryLoop cluster request policy policy.attempts.toNat 0 []

/-! ## One origin -/

def listKey (generation : String) (origin : Origin) : Key where
  generation := generation
  namespaceName := origin.namespaceName
  apiGroup := origin.apiGroup
  resource := origin.resource
  verb := "list"

variable (request : CollectionRequest T)

def authorizeOrigin (origin : Origin) :
    StateM σ (OriginOutcome T) := do
  match request.globalListGrant with
  | some grant => return ⟨emptyPage origin, grant, none, false, false, []⟩
  | none =>
    let capability ← cluster.check (listKey request.selection.generation origin)
    let outcome : OriginOutcome T := ⟨emptyPage origin, capability, none, false, false, []⟩
    if capability.decision ≠ .DecisionUnknown ∨ request.readThroughUnknown = false then
      return outcome
    -- The probe's rows are discarded; only its verdict counts.
    match ← retryListPage cluster ⟨origin, 1, "", request.options.labelSelector,
        request.options.fieldSelector⟩ request.retry with
    | (_, none, failedAttempts) =>
      return { outcome with
        capability := ⟨.DecisionAllowed, some .ReasonOperationAllowed⟩, failedAttempts }
    | (_, some err, failedAttempts) =>
      let outcome := { outcome with err := some err, failedAttempts }
      if ErrorCodeOf err = .CodeForbidden then
        return { outcome with capability := ⟨.DecisionDenied, some .ReasonOperationDenied⟩ }
      else
        return outcome

/-- `probed` are the failed attempts of the probe that allowed the fetch. -/
def fetchOrigin (state : OriginCursor T)
    (limit : Int) (capability : Capability) (probed : List ReadError) :
    StateM σ (OriginOutcome T) := do
  let (page, err, failed) ← retryListPage cluster ⟨state.origin, limit, state.continueToken,
    request.options.labelSelector, request.options.fieldSelector⟩ request.retry
  let page := if page.origin.Key = "///" then { page with origin := state.origin } else page
  let capability :=
    if err.any fun err => ErrorCodeOf err = .CodeForbidden then
      ⟨.DecisionDenied, some .ReasonOperationDenied⟩
    else capability
  return ⟨page, capability, err, true, err.isNone, probed ++ failed⟩

def OriginCursor.absorb (state : OriginCursor T) (page : OriginPage T) (less : T → T → Bool) :
    OriginCursor T :=
  (state.addPage page).sorted less

def applyOriginPage (state : OriginCursor T) (page : OriginPage T) (less : T → T → Bool) :
    Except ReadError (OriginCursor T) :=
  if state.origin.Key ≠ page.origin.Key then
    .error (validationError "origin page does not match cursor state")
  else if page.continueToken ≠ "" ∧ page.continueToken = state.continueToken then
    .error (validationError "upstream pagination made no progress")
  else
    .ok (state.absorb page less)

def originChunkLimit (origins : Nat) (pageLimit : Int) : Int :=
  if origins ≤ 1 then pageLimit
  else min (min DefaultOriginChunkSize MaxOriginChunkSize) pageLimit

def NormalizeFanout (value : Int) : Nat :=
  if value ≤ 0 then DefaultFanout
  else if value > MaximumConfigurableFanout then MaximumConfigurableFanout
  else value.toNat

/-! ## The worker pool -/

/-- One job: the review, and the LIST if it is wanted and the review allows it. -/
def originJob (origins : Nat)
    (fetch : Bool) (known : String → Option Bool) (state : OriginCursor T) :
    StateM σ (OriginOutcome T) := do
  let outcome ← authorizeOrigin cluster request state.origin
  let outcome :=
    { outcome with authoritative := state.exhausted || !state.buffered.isEmpty }
  if known state.origin.Key = some false then
    return outcome
  if fetch = true ∧ outcome.capability.decision = .DecisionAllowed then
    fetchOrigin cluster request state (originChunkLimit origins request.options.limit)
      outcome.capability outcome.failedAttempts
  else
    return outcome

def runJobs (cluster : Cluster σ T) (request : CollectionRequest T)
    (origins : List (OriginCursor T)) (fetch : Bool) (known : String → Option Bool) :
    List Nat → StateM σ (List (Nat × OriginOutcome T))
  | [] => pure []
  | index :: rest => do
    match origins[index]? with
    | none => runJobs cluster request origins fetch known rest
    | some state =>
      let outcome ← originJob cluster request origins.length fetch known state
      let results ← runJobs cluster request origins fetch known rest
      return (index, outcome) :: results

variable (origins : List (OriginCursor T))

def runOriginWorkers (indices : List Nat) (fetch : Bool)
    (known : String → Option Bool) : StateM σ (List (Nat × OriginOutcome T)) := do
  if indices.isEmpty then
    return []
  let order ← cluster.schedule indices
  let results ← runJobs cluster request origins fetch known order.val
  return indices.filterMap fun index => results.find? fun result => result.1 == index

def authorizeBatch (indices : List Nat) : StateM σ (List (OriginOutcome T)) := do
  let indexed ← runOriginWorkers cluster request origins indices false fun _ => none
  return indexed.map (·.2)

def fetchBatch (indices : List Nat) (known : String → Option Bool) :
    StateM σ (List (Nat × OriginOutcome T)) :=
  runOriginWorkers cluster request origins indices true known

/-! ## Strategies -/

structure Window (T : Type) where
  origins : List (OriginCursor T)
  outcomes : List (OriginOutcome T)

/-- `outcome.err == nil && outcome.queried` -/
def OriginOutcome.succeeded (outcome : OriginOutcome T) : Bool :=
  outcome.err.isNone && outcome.queried

def Window.record (window : Window T) (outcome : OriginOutcome T) : Window T :=
  { window with outcomes := window.outcomes ++ [outcome] }

def Window.advance (window : Window T) (index : Nat) (state : OriginCursor T)
    (outcome : OriginOutcome T) : Window T where
  origins := window.origins.set index state
  outcomes := window.outcomes ++ [outcome]

/-- Record a fetch outcome and, if the LIST succeeded, apply its page to origin `index`. -/
def Window.absorb (window : Window T) (less : T → T → Bool) (index : Nat)
    (outcome : OriginOutcome T) : Effect σ Halt (Window T) :=
  if outcome.succeeded then
    match window.origins[index]? with
    | none => pure (window.record outcome)
    | some state =>
      match applyOriginPage state outcome.page less with
      | .error err => throw (.failed err)
      | .ok state => pure (window.advance index state outcome)
  else
    pure (window.record outcome)

def Window.absorbAll (less : T → T → Bool) :
    List (Nat × OriginOutcome T) → Window T → Effect σ Halt (Window T)
  | [], window => pure window
  | (index, outcome) :: rest, window => do
    let window ← window.absorb less index outcome
    window.absorbAll less rest

def authorizedBufferedCount (allowed : String → Option Bool) :
    Int :=
  (origins.map fun state =>
    if allowed state.origin.Key = some true then (state.buffered.length : Int) else 0).sum

def cursorSourcesExhausted : Bool :=
  origins.all fun state => state.exhausted

/-- `if err := ctx.Err(); err != nil { return err }` -/
def checkContext : Effect σ Halt Unit := do
  match ← cluster.contextErr with
  | some err => throw (.failed err)
  | none => pure ()

def globalNative : Effect σ Halt (Window T) :=
  match origins with
  | [state] => do
    let outcome ← authorizeOrigin cluster request state.origin
    let window : Window T := ⟨origins, []⟩
    if outcome.capability.decision ≠ .DecisionAllowed ∨ state.exhausted = true ∨
        (state.buffered.length : Int) ≥ request.options.limit then
      return window.record
        { outcome with authoritative := state.exhausted || !state.buffered.isEmpty }
    let fetched ← fetchOrigin cluster request state request.options.limit outcome.capability []
    (window.record outcome).absorb request.less 0 fetched
  | _ => throw (.failed (validationError "global pagination requires exactly one origin"))

/-! ### Namespace sequential -/

def untouchedFrom (fanout : Nat) (index : Nat) : List Nat :=
  (((origins.zipIdx.drop index).takeWhile fun (state, _) =>
    state.buffered.isEmpty && state.continueToken == "").filterMap fun (state, index) =>
      if state.exhausted then none else some index).take fanout

structure SequentialState (T : Type) extends Window T where
  prefetched : List (Nat × OriginOutcome T)
  available : Int

/-- `for available < limit && !originState.Exhausted`, with a bound on its iterations. -/
def refill (cluster : Cluster σ T) (request : CollectionRequest T) (capability : Capability)
    (index : Nat) : Nat → SequentialState T → Effect σ Halt (SequentialState T)
  | 0, _ => throw .unfinished
  | fuel + 1, state => do
    match state.origins[index]? with
    | none => return state
    | some origin =>
      if state.available < request.options.limit ∧ origin.exhausted = false then
        let fetched ← fetchOrigin cluster request origin
          (originChunkLimit state.origins.length request.options.limit) capability []
        let window ← state.toWindow.absorb request.less index fetched
        if fetched.err.isSome then
          return { state with toWindow := window }
        -- A LIST that succeeded only adds rows to this origin.
        let added := (fetched.page.items.length : Int)
        refill cluster request capability index fuel
          { state with toWindow := window, available := state.available + added }
      else
        return state

/-- Fetch a bounded run of untouched origins concurrently, except for the first origin. -/
def prefetch (index : Nat)
    (origin : OriginCursor T) (state : SequentialState T) : Effect σ Halt (SequentialState T) :=
  if index > 0 ∧ origin.buffered = [] ∧ origin.continueToken = "" ∧
      state.prefetched.lookup index = none then do
    let indices := untouchedFrom state.origins (NormalizeFanout request.fanout) index
    let fetched ← fetchBatch cluster request state.origins indices fun _ => none
    let window ← state.toWindow.absorbAll request.less fetched
    return { state with toWindow := window, prefetched := fetched ++ state.prefetched }
  else
    pure state

/-- The verdict on an origin: the one of its prefetch, or of a review of its own. -/
def authorizeSequential (index : Nat) (origin : OriginCursor T) (state : SequentialState T) :
    Effect σ Halt (OriginOutcome T × SequentialState T) :=
  match state.prefetched.lookup index with
  | some outcome => pure (outcome, state)
  | none => do
    let outcome ← authorizeOrigin cluster request origin.origin
    let outcome := { outcome with authoritative := origin.exhausted || !origin.buffered.isEmpty }
    return (outcome, { state with toWindow := state.toWindow.record outcome })

/-- One origin in sequence; the flag says that the page can be filled. -/
def sequentialOrigin (fuel index : Nat)
    (state : SequentialState T) : Effect σ Halt (SequentialState T × Bool) := do
  checkContext cluster
  match state.origins[index]? with
  | none => return (state, false)
  | some origin =>
    if origin.exhausted = true ∧ origin.buffered = [] then
      return (state, false)
    let state ← prefetch cluster request index origin state
    match state.origins[index]? with
    | none => return (state, false)
    | some origin =>
      let (authorized, state) ← authorizeSequential cluster request index origin state
      if authorized.capability.decision ≠ .DecisionAllowed then
        return (state, false)
      if (state.prefetched.lookup index).isSome ∧ authorized.err.isSome then
        return (state, false)
      let state ← refill cluster request authorized.capability index fuel
        { state with available := state.available + origin.buffered.length }
      return (state, decide (state.available ≥ request.options.limit))

def sequentialLoop (cluster : Cluster σ T) (request : CollectionRequest T) (fuel : Nat) :
    List Nat → SequentialState T → Effect σ Halt (Window T)
  | [], state => pure state.toWindow
  | index :: rest, state => do
    let (state, full) ← sequentialOrigin cluster request fuel index state
    if full then return state.toWindow
    sequentialLoop cluster request fuel rest state

variable (fuel : Nat) (origins : List (OriginCursor T))

def namespaceSequential : Effect σ Halt (Window T) :=
  sequentialLoop cluster request fuel (List.range origins.length) ⟨⟨origins, []⟩, [], 0⟩

/-! ### Lazy merge -/

structure LazyState (T : Type) extends Window T where
  allowed : String → Option Bool
  progress : Bool

/-- `allowed[key] = outcome.capability.Decision == authorization.DecisionAllowed` -/
def noteDecision (allowed : String → Option Bool) (outcome : OriginOutcome T) :
    String → Option Bool :=
  fun key =>
    if key = outcome.page.origin.Key then
      some (decide (outcome.capability.decision = .DecisionAllowed))
    else
      allowed key

def batches (size : Nat) : Nat → List Nat → List (List Nat)
  | 0, _ => []
  | fuel + 1, indices =>
    if indices.isEmpty then [] else indices.take size :: batches size fuel (indices.drop size)

/-- The batches of one pass; the flag says that the page can be filled. -/
def lazyBatches (cluster : Cluster σ T) (request : CollectionRequest T) :
    List (List Nat) → LazyState T → Effect σ Halt (LazyState T × Bool)
  | [], state => pure (state, false)
  | indices :: rest, state => do
    checkContext cluster
    let fetched ← fetchBatch cluster request state.origins indices state.allowed
    let window ← state.toWindow.absorbAll request.less fetched
    let state : LazyState T :=
      { toWindow := window
        allowed := (fetched.map (·.2)).foldl noteDecision state.allowed
        progress := state.progress || fetched.any fun result => result.2.succeeded }
    if authorizedBufferedCount state.origins state.allowed ≥ request.options.limit then
      return (state, true)
    lazyBatches cluster request rest state

def passIndices (preferEmpty : Bool) : List Nat :=
  origins.zipIdx.filterMap fun (state, index) =>
    if state.exhausted || state.buffered.isEmpty != preferEmpty then none else some index

def lazyPass (preferEmpty : Bool) (state : LazyState T) : Effect σ Halt (LazyState T × Bool) :=
  let indices := passIndices state.origins preferEmpty
  lazyBatches cluster request
    (batches (NormalizeFanout request.fanout) indices.length indices) state

/-- `for { .. }`, with a bound on its rounds. -/
def lazyLoop (cluster : Cluster σ T) (request : CollectionRequest T) :
    Nat → LazyState T → Effect σ Halt (Window T)
  | 0, _ => throw .unfinished
  | fuel + 1, state => do
    let (state, full) ← lazyPass cluster request true { state with progress := false }
    if full then return state.toWindow
    let (state, full) ← lazyPass cluster request false state
    if full then return state.toWindow
    if state.progress = false ∨ cursorSourcesExhausted state.origins = true then
      return state.toWindow
    lazyLoop cluster request fuel state

def bufferedIndices : List Nat :=
  origins.zipIdx.filterMap fun (state, index) =>
    if state.buffered.isEmpty then none else some index

def lazyMerge : Effect σ Halt (Window T) := do
  let reviewed ← authorizeBatch cluster request origins (bufferedIndices origins)
  let state : LazyState T :=
    ⟨⟨origins, reviewed⟩, reviewed.foldl noteDecision fun _ => none, false⟩
  if authorizedBufferedCount state.origins state.allowed ≥ request.options.limit then
    return state.toWindow
  lazyLoop cluster request fuel state

/-! ### Selection and priority -/

def globalOrigins (origins : List Origin) : Bool :=
  !origins.isEmpty && origins.all fun origin => origin.namespaceName == ""

def singleGVR : List Origin → Bool
  | [] => false
  | first :: rest => rest.all fun origin =>
    origin.apiGroup == first.apiGroup && origin.version == first.version &&
      origin.resource == first.resource

/-- `selectPaginationStrategy(request, selected).Next` without a preferred namespace. -/
def paginatePlain (selected : List Origin) (origins : List (OriginCursor T)) :
    Effect σ Halt (Window T) :=
  if globalOrigins selected then
    globalNative cluster request origins
  else if request.nativeIdentityOrder = true ∧ request.options.sort = "identity" ∧
      request.options.order = .OrderAscending ∧ singleGVR selected = true then
    namespaceSequential cluster request fuel origins
  else
    lazyMerge cluster request fuel origins

def restore (inPhase : OriginCursor T → Bool) :
    List (OriginCursor T) → List (OriginCursor T) → List (OriginCursor T)
  | [], _ => []
  | state :: rest, phase =>
    if inPhase state then
      match phase with
      | next :: phase => next :: restore inPhase rest phase
      | [] => state :: restore inPhase rest []
    else
      state :: restore inPhase rest phase

def preferredPhase (preferred : Bool) (state : OriginCursor T) :
    Bool :=
  (state.origin.namespaceName == request.preferredNamespace) == preferred

structure PriorityState (T : Type) extends Window T where
  available : Int

def phaseRequest (available : Int) : CollectionRequest T :=
  { request with
    preferredNamespace := ""
    options := { request.options with limit := request.options.limit - available } }

/-- One phase of `NamespacePriority.Next`. -/
def priorityPhase (preferred : Bool) (state : PriorityState T) :
    Effect σ Halt (PriorityState T) := do
  let phase := state.origins.filter (preferredPhase request preferred)
  if phase.isEmpty then
    return state
  let window ← paginatePlain cluster (phaseRequest request state.available) fuel
    (phase.map (·.origin)) phase
  let allowed := window.outcomes.foldl noteDecision fun _ => none
  return { origins := restore (preferredPhase request preferred) state.origins window.origins
           outcomes := state.outcomes ++ window.outcomes
           available := state.available + authorizedBufferedCount window.origins allowed }

def namespacePriority : Effect σ Halt (Window T) := do
  let state ← priorityPhase cluster request fuel true ⟨⟨origins, []⟩, 0⟩
  -- An empty phase is skipped before the tests that end the loop, which are false at zero rows.
  if (request.cursor.isNone ∧ state.available > 0) ∨ state.available ≥ request.options.limit then
    return state.toWindow
  let state ← priorityPhase cluster request fuel false state
  return state.toWindow

/-- `selectPaginationStrategy(request, selected).Next` -/
def paginate (selected : List Origin) (origins : List (OriginCursor T)) :
    Effect σ Halt (Window T) :=
  if request.preferredNamespace ≠ "" ∧ globalOrigins selected = false then
    namespacePriority cluster request fuel origins
  else
    paginatePlain cluster request fuel selected origins

end Kubepeep.Resources
