import Kubepeep.Resources.Pagination

/-!
# One collection window

`Collect` (`internal/services/resources/list.go`): run a pagination strategy, classify its outcomes
per origin, and merge the rows of the admitted origins into a page and a next cursor.
-/

open Kubepeep.Authorization

namespace Kubepeep.Resources

variable {σ T : Type}

/-! ## Classification -/

structure Aggregate where
  origin : Origin
  capability : Capability
  authoritative : Bool
  failure : Option PartialErrorDTO
  deriving DecidableEq, Repr

/-- The entry of an origin after one more outcome: the last capability, the first failure. -/
def Aggregate.update (current : Option Aggregate) (outcome : OriginOutcome T) : Aggregate where
  origin := (current.map (·.origin)).getD outcome.page.origin
  capability := outcome.capability
  authoritative :=
    (current.map (·.authoritative)).getD false || (outcome.err.isNone && outcome.authoritative)
  failure :=
    match current.bind (·.failure) with
    | some failure => some failure
    | none => outcome.err.map fun err =>
      ⟨outcome.page.origin.namespaceName, (classifyReadError err).1, (classifyReadError err).2⟩

def aggregates (outcomes : List (OriginOutcome T)) : String → Option Aggregate :=
  outcomes.foldl
    (fun known outcome key =>
      if key = outcome.page.origin.Key then some (.update (known key) outcome) else known key)
    fun _ => none

def isExpired (outcome : OriginOutcome T) : Bool :=
  outcome.err.any fun err => err.expired

/-- A namespace name is a DNS label, for which `%q` only adds the quotes. -/
def quoted (s : String) : String :=
  "\"" ++ s ++ "\""

def denialMessage (origin : Origin) : String :=
  if origin.namespaceName = "" then
    "Kubernetes permission review denied cluster-wide LIST on " ++ origin.resource ++
      ". Check the current identity's ClusterRole bindings."
  else
    "Kubernetes permission review denied LIST on " ++ origin.resource ++ " in namespace " ++
      quoted origin.namespaceName ++ ". Check the current identity's Role or ClusterRole bindings."

structure Summary where
  allowed : Nat
  known : Nat
  unknown : Nat
  authoritativeSuccesses : Nat
  allowedOrigins : String → Bool
  failed : List PartialErrorDTO
  firstReadFailure : Option PartialErrorDTO
  firstDenialMessage : String
  deniedNamespaces : List String
  completedNamespaces : List String

def Summary.empty : Summary :=
  ⟨0, 0, 0, 0, fun _ => false, [], none, "", [], []⟩

/-- A real 403 or 401 overrides an allowed review. -/
def rejects (failure : PartialErrorDTO) : Bool :=
  failure.code = .CodeForbidden ∨ failure.code = .CodeAuthenticationUnavailable

def Summary.denied (summary : Summary) (current : Aggregate) : Summary :=
  let message := (current.failure.map (·.message)).getD (denialMessage current.origin)
  { summary with
    known := summary.known + 1
    deniedNamespaces := current.origin.namespaceName :: summary.deniedNamespaces
    firstDenialMessage :=
      if summary.firstDenialMessage = "" then message else summary.firstDenialMessage
    failed := summary.failed ++ [⟨current.origin.namespaceName, .CodeForbidden, message⟩] }

def Summary.undecided (summary : Summary) (current : Aggregate) : Summary :=
  let review := ReviewFailure current.capability
  let failure := current.failure.getD ⟨current.origin.namespaceName, review.code, review.message⟩
  { summary with
    unknown := summary.unknown + 1
    failed := summary.failed ++ [failure]
    firstReadFailure := summary.firstReadFailure.or (some failure) }

def Summary.admitted (summary : Summary) (key : String) (current : Aggregate) : Summary :=
  { summary with
    known := summary.known + 1
    allowed := summary.allowed + 1
    allowedOrigins := fun other =>
      if other = key then !current.failure.any rejects else summary.allowedOrigins other
    failed := summary.failed ++ current.failure.toList
    firstReadFailure := summary.firstReadFailure.or current.failure
    authoritativeSuccesses :=
      if current.authoritative then summary.authoritativeSuccesses + 1
      else summary.authoritativeSuccesses
    completedNamespaces :=
      if current.authoritative then current.origin.namespaceName :: summary.completedNamespaces
      else summary.completedNamespaces }

variable (known : String → Option Aggregate)

/-- One iteration of `for _, origin := range origins`. -/
def Summary.step (summary : Summary) (origin : Origin) :
    Summary :=
  match known origin.Key with
  | none => summary
  | some current =>
    match current.capability.decision with
    | .DecisionDenied => summary.denied current
    | .DecisionUnknown => summary.undecided current
    | .DecisionAllowed => summary.admitted origin.Key current

def summarize (origins : List Origin) : Summary :=
  origins.foldl (Summary.step known) .empty

/-- The error of a window without an allowed origin or without a successful read. -/
def Summary.verdict (summary : Summary) : Except ReadError Unit :=
  if summary.allowed = 0 then
    if summary.known > 0 ∧ summary.deniedNamespaces ≠ [] ∧ summary.unknown = 0 then
      .error (domainError .CodeForbidden summary.firstDenialMessage)
    else
      match summary.firstReadFailure with
      | some failure => .error (domainError failure.code failure.message)
      | none => .error (domainError .CodeAuthorizationUnavailable
          (ReviewFailure ⟨.DecisionUnknown, none⟩).message)
  else if summary.authoritativeSuccesses = 0 then
    match summary.firstReadFailure with
    | some failure => .error (domainError failure.code failure.message)
    | none => .error (domainError .CodeClusterUnavailable
        "The Kubernetes API could not complete the request.")
  else
    .ok ()

/-! ## The window -/

structure ListResult (T : Type) where
  items : List T
  cursor : Option (CompositeCursor T)
  page : PageDTO
  coverage : CoverageDTO
  deriving DecidableEq, Repr

/-- The steps of a window that returned: the cursor it started from, the outcomes, the emitted rows
with the index of their origin, and the cursor state after the merge. -/
structure Trace (T : Type) where
  start : CompositeCursor T
  outcomes : List (OriginOutcome T)
  emitted : List (Nat × T)
  next : CompositeCursor T
  deriving DecidableEq, Repr

def mergePreferredNamespace (cursor : CompositeCursor T) (request : CollectionRequest T)
    (allowed : String → Bool) : Except ReadError (List (Nat × T) × CompositeCursor T) :=
  if request.preferredNamespace = "" then
    mergeAuthorizedOriginPages cursor [] request.options.limit request.less (some allowed)
  else do
    let preferred := fun key => cursor.origins.any fun state =>
      state.origin.namespaceName == request.preferredNamespace && allowed state.origin.Key &&
        state.origin.Key == key
    let (items, next) ←
      mergeAuthorizedOriginPages cursor [] request.options.limit request.less (some preferred)
    if (items.length : Int) = request.options.limit then
      return (items, next)
    let (rest, next) ← mergeAuthorizedOriginPages next []
      (request.options.limit - items.length) request.less (some allowed)
    return (items ++ rest, next)

def countNamespaces (origins : List Origin) : Nat :=
  (origins.map (·.namespaceName)).dedup.length

def advertised (next : CompositeCursor T) : Bool :=
  next.Complete || next.origins.any fun state =>
    !(state.exhausted && state.buffered.isEmpty) &&
      match known state.origin.Key with
      | none => true
      | some current => current.capability.decision = .DecisionAllowed ∧
          (current.failure = none ∨ state.buffered ≠ [])

def orFail {α : Type} : Except ReadError α → Effect σ Halt α
  | .ok a => pure a
  | .error err => throw (.failed err)

variable (cluster : Cluster σ T) (request : CollectionRequest T) (origins : List Origin)

/-- The cluster-wide grant that stands for the namespace reviews. -/
def globalGrant :
    StateM σ (CollectionRequest T) := do
  match origins with
  | first :: _ :: _ =>
    if request.globalGrantFastPath = true ∧ singleGVR origins = true then
      let capability ← cluster.check
        (listKey request.selection.generation { first with namespaceName := "" })
      if capability.decision = .DecisionAllowed then
        return { request with globalListGrant := some capability }
    return request
  | _ => return request

def recheckCompleted (window : Window T) : StateM σ (List (OriginOutcome T)) := do
  if request.cursor.isSome ∧
      window.outcomes.all (fun outcome => outcome.capability.decision ≠ .DecisionAllowed) then
    let completed := window.origins.zipIdx.filterMap fun (state, index) =>
      if state.exhausted && state.buffered.isEmpty &&
          !(window.outcomes.any fun outcome => outcome.page.origin.Key == state.origin.Key) then
        some index
      else none
    let reviewed ← authorizeBatch cluster request window.origins completed
    return window.outcomes ++ reviewed
  else
    return window.outcomes

def startCursor :
    Except ReadError (CompositeCursor T) :=
  match request.cursor with
  | none => .ok (NewCompositeCursor T origins)
  | some cursor => do
    cursor.Validate origins
    return cursor

def coverageOf (summary : Summary) :
    CoverageDTO where
  requestedNamespaces :=
    if request.requestedNamespaces > 0 then request.requestedNamespaces
    else countNamespaces origins
  completedNamespaces :=
    if globalOrigins origins = true ∧ summary.authoritativeSuccesses > 0 ∧
        request.requestedNamespaces > 0 then
      request.requestedNamespaces
    else summary.completedNamespaces.dedup.length
  deniedNamespaces := summary.deniedNamespaces.dedup.insertionSort (· ≤ ·)
  failed := summary.failed

/-- The part of `Collect` after the strategy: classification, merge, page and cursor. -/
def publish (start : CompositeCursor T)
    (cursor : CompositeCursor T) (outcomes : List (OriginOutcome T)) :
    Except ReadError (ListResult T × Trace T) :=
  if outcomes.any isExpired then
    .error { domainError .CodeCursorExpired
      "The Kubernetes list snapshot expired; start a new list." with expired := true }
  else do
    let known := aggregates outcomes
    let summary := summarize known origins
    summary.verdict
    let (items, next) ← mergePreferredNamespace cursor request summary.allowedOrigins
    next.Validate origins
    return (
      { items := items.map (·.2)
        cursor := if advertised known next then some next else none
        page :=
          { limit := request.options.limit
            complete := next.Complete && summary.failed.isEmpty
            truncated := !next.Complete || !summary.failed.isEmpty
            filterScope := .FilterScopePage }
        coverage := coverageOf request origins summary },
      ⟨start, outcomes, items, next⟩)

/-- `Collect` with its trace; an empty collection is complete at once. -/
def collectTraced (fuel : Nat) :
    Effect σ Halt (ListResult T × Trace T) :=
  if request.selection.generation = "" ∨ request.selection.context = "" ∨
      request.selection.scope = "" then
    throw (.failed (validationError "selection binding is incomplete"))
  else if request.options.limit < 1 ∨ request.options.limit > MaximumListLimit then
    throw (.failed (validationError "list options must be normalized before collection"))
  else do
    let origins := canonicalOrigins request.origins
    let request ← globalGrant cluster request origins
    if origins.isEmpty then
      return (
        { items := []
          cursor := none
          page :=
            { limit := request.options.limit, complete := true, truncated := false
              filterScope := .FilterScopePage }
          coverage := ⟨0, 0, [], []⟩ },
        ⟨⟨0, []⟩, [], [], ⟨0, []⟩⟩)
    else
      let start ← orFail (startCursor request origins)
      let window ← paginate cluster request fuel origins start.origins
      let outcomes ← recheckCompleted cluster request window
      orFail (publish request origins start { start with origins := window.origins } outcomes)

def Collect (fuel : Nat) :
    Effect σ Halt (ListResult T) := do
  let (result, _) ← collectTraced cluster request fuel
  return result

end Kubepeep.Resources
