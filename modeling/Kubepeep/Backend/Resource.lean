import Kubepeep.Backend.GlobalPods
import Kubepeep.Resources.Collect
import Kubepeep.Resources.Origins
import Kubepeep.Watch.Types

/-!
# The two ways to read a collection

`collectResource` and `collectFromWatchSnapshots`
(`internal/integration/kubernetesruntime/resources_backend.go`).  The first LISTs: cluster-wide when
that is granted, else one origin per namespace.  The second answers a first page from the snapshots
of the running watches, if these cover the collection and the page is small enough.
-/

open Kubepeep.Authorization Kubepeep.Effect Kubepeep.Resources Kubepeep.Watch

namespace Kubepeep.Backend

structure SelectionBinding where
  generation : String
  context : String
  deriving DecidableEq, Repr

structure ScopeResolution where
  scopeName : String
  scopeSource : String
  namespaces : List String
  preferGlobal : Bool
  defaultNamespace : Option String
  deriving DecidableEq, Repr

/-- The options of a request; what only the local filter reads is part of that filter. -/
structure RequestOptions extends ListOptions where
  namespaces : List String
  kinds : List String
  deriving DecidableEq, Repr

variable {σ O T : Type}

/-- What a backend works with.  `O` is the type of the watched objects and `T` that of the rows. -/
structure ResourceBackend (σ O T : Type) where
  cluster : Cluster σ T
  /-- `manager.SnapshotsFor`, with the namespaces of the selection; no manager gives `none`. -/
  snapshotsFor : Selection → List String → Topic → List Origin → Option (String → WatchSnapshot O)
  /-- `object.(T)` -/
  object : O → Option T
  /-- `any(item).(resources.PodDTO)`, with the namespace of the Pod. -/
  pod : T → Option String
  /-- The length of `json.Marshal(snapshot.Items)`. -/
  encodedSize : List O → Option Nat
  less : T → T → Bool
  filterSort : List T → RequestOptions → List T
  listFanout : Int
  listRetryPolicy : RetryPolicy

def resourceSelection (binding : SelectionBinding) (resolution : ScopeResolution) : Selection where
  generation := binding.generation
  context := binding.context
  scope := if resolution.scopeName = "" then resolution.scopeSource else resolution.scopeName

/-- A request can never expand the active scope. -/
def ResolveNamespaces (active requested : List String) : Except ReadError (List String) :=
  if requested.isEmpty then
    canonicalStrings active MaximumNamespaces none "active namespace"
  else do
    let requestedCanonical ← canonicalStrings requested MaximumNamespaces none "namespace"
    let activeCanonical ← canonicalStrings active (max MaximumNamespaces active.length) none
      "active namespace"
    if requestedCanonical.all fun name => activeCanonical.contains name then
      return requestedCanonical
    else
      .error (validationError "namespace is outside the active scope")

def GlobalOriginsFor (collection : String) (kinds : List String) : Except ReadError (List Origin) :=
  originsFor collection [""] kinds

/-! ## The direct LIST -/

def listCursorMode (cursor : Option (CompositeCursor T)) : Except ReadError (Bool × Bool) :=
  match cursor with
  | none => .ok (false, false)
  | some cursor =>
    let isGlobal := cursor.origins.any fun state => state.origin.namespaceName == ""
    let isNamespaced := cursor.origins.any fun state => state.origin.namespaceName != ""
    if isGlobal && isNamespaced then
      .error (domainError .CodeValidationFailed
        "The cursor mixes global and namespace list strategies.")
    else
      .ok (isGlobal, isNamespaced)

def preferredListNamespace (resolution : ScopeResolution) (options : RequestOptions) : String :=
  match resolution.defaultNamespace with
  | none => ""
  | some name =>
    if !resolution.namespaces.contains name then ""
    else if !options.namespaces.isEmpty && !options.namespaces.contains name then ""
    else name

/-- `decision` is the one of the origins before. -/
def globalListLoop (cluster : Cluster σ T) (generation : String) :
    List Origin → Decision → StateM σ Decision
  | [], decision => pure decision
  | origin :: rest, decision => do
    let capability ← cluster.check (listKey generation { origin with namespaceName := "" })
    match capability.decision with
    | .DecisionAllowed => globalListLoop cluster generation rest decision
    | .DecisionDenied => globalListLoop cluster generation rest .DecisionDenied
    | .DecisionUnknown => return .DecisionUnknown

def globalListDecision (cluster : Cluster σ T) (generation : String) (origins : List Origin) :
    StateM σ Decision :=
  globalListLoop cluster generation origins .DecisionAllowed

theorem scopeLoop_origin (contextErr : StateM σ (Option ReadError)) (list : Lister σ T)
    (pod : T → Option String) (allowed : List String) (pageLimit : Int) (left : Nat) :
    ∀ next (result : OriginPage T),
      Always (scopeLoop contextErr list pod allowed pageLimit left next result) fun (out, _) =>
        out.origin = result.origin := by
  induction left with
  | zero => exact fun _ _ => always_pure rfl
  | succ left ih =>
    intro next result
    unfold scopeLoop
    refine always_bind (always_run _) fun err _ => ?_
    cases err with
    | some err => exact always_pure rfl
    | none =>
      refine always_bind (always_run _) fun answer _ => ?_
      rcases answer with ⟨fetched, _ | err⟩
      · dsimp only
        split
        · exact always_pure rfl
        · split
          · exact always_pure rfl
          · split
            · exact always_pure rfl
            · exact ih _ _
      · exact always_pure rfl

def inScopeCluster (backend : ResourceBackend σ O T) (allowed : List String) : Cluster σ T :=
  { backend.cluster with
    listPage := listGlobalPodPageInScope backend.cluster.contextErr backend.cluster.listPage
      backend.pod allowed
    listPage_origin := fun _ s => .inl (scopeLoop_origin _ _ _ _ _ _ _ _ s) }

variable (backend : ResourceBackend σ O T) (binding : SelectionBinding)
  (resolution : ScopeResolution) (collection : String) (options : RequestOptions)
  (cursor : Option (CompositeCursor T)) (fuel : Nat)

def collectionRequest (origins : List Origin) (requestedNamespaces : Nat)
    (globalGrantFastPath : Bool) (preferredNamespace : String) : CollectionRequest T where
  selection := resourceSelection binding resolution
  options := options.toListOptions
  origins := origins
  cursor := cursor
  less := backend.less
  requestedNamespaces := requestedNamespaces
  fanout := backend.listFanout
  retry := backend.listRetryPolicy
  preferredNamespace := preferredNamespace
  nativeIdentityOrder := true
  globalGrantFastPath := globalGrantFastPath
  readThroughUnknown := true
  globalListGrant := none

/-- The cluster-wide LIST, if it is granted; `none` falls through to the namespaces. -/
def globalStrategy (cluster : Cluster σ T) (requestedNamespaces : Nat) (cursorGlobal : Bool)
    (denied : String) : Effect σ Halt (Option (ListResult T)) :=
  match GlobalOriginsFor collection options.kinds with
  | .error err => throw (.failed err)
  | .ok origins => do
    let decision ← globalListDecision backend.cluster binding.generation origins
    if decision = .DecisionAllowed ∨ decision = .DecisionUnknown ∧ cursorGlobal = true then
      let result ← Collect cluster (collectionRequest backend binding resolution options cursor
        origins requestedNamespaces false "") fuel
      return some result
    else if cursorGlobal = true then
      if decision = .DecisionDenied then
        throw (.failed (domainError .CodeForbidden denied))
      else
        throw (.failed (domainError .CodeAuthorizationUnavailable
          "Authorization could not be confirmed."))
    else
      return none

def namespaceStrategy (preferredNamespace : String) : Effect σ Halt (ListResult T) :=
  if options.namespaces = [] ∧ resolution.namespaces.length > MaximumNamespaces then
    throw (.failed (domainError .CodeLimitExceeded ("The selected scope is too large for " ++
      "namespace list fan-out; narrow the namespace filter.")))
  else do
    let names ← orFail (ResolveNamespaces resolution.namespaces options.namespaces)
    let origins ← orFail (OriginsFor collection names options.kinds)
    Collect backend.cluster (collectionRequest backend binding resolution options cursor
      origins names.length true preferredNamespace) fuel

/-- The scoped scan of all Pods, if the cluster-wide LIST is granted. -/
def podStrategy (cursorGlobal : Bool) : Effect σ Halt (Option (ListResult T)) := do
  let names ← orFail (ResolveNamespaces resolution.namespaces options.namespaces)
  globalStrategy backend binding resolution collection options cursor fuel
    (inScopeCluster backend names) names.length cursorGlobal
    "The global list grant required by this cursor is unavailable."

def collectResource : Effect σ Halt (ListResult T) := do
  let (cursorGlobal, cursorNamespaced) ← orFail (listCursorMode cursor)
  let preferredNamespace := preferredListNamespace resolution options
  let answered ←
    if preferredNamespace = "" ∧ resolution.preferGlobal = true ∧ options.namespaces = [] ∧
        cursorNamespaced = false then
      globalStrategy backend binding resolution collection options cursor fuel backend.cluster
        resolution.namespaces.length cursorGlobal "Access to this resource was denied."
    else if preferredNamespace = "" ∧ collection = "pods" ∧ resolution.preferGlobal = false ∧
        cursorNamespaced = false ∧ resolution.namespaces.length > 1 ∧
        (options.namespaces.length ≠ 1 ∨ cursorGlobal = true) then
      podStrategy backend binding resolution collection options cursor fuel cursorGlobal
    else
      pure none
  match answered with
  | some result => return result
  | none =>
    namespaceStrategy backend binding resolution collection options cursor fuel preferredNamespace

def markCollectionScope (result : ListResult T) (firstPage : Bool) : ListResult T :=
  if firstPage = true ∧ result.page.complete = true ∧ result.page.truncated = false ∧
      result.coverage.failed = [] then
    { result with page := { result.page with filterScope := .FilterScopeCollection } }
  else
    result

/-- The part of `collectFilteredResource` that LISTs; an expired first page is read once more. -/
def collectDirect : Effect σ Halt (ListResult T) := do
  let result ← tryCatch
    (collectResource backend binding resolution collection options cursor fuel) fun
    | .failed err => do
      let contextErr ← backend.cluster.contextErr
      if cursor.isNone = true ∧ ErrorCodeOf err = .CodeCursorExpired ∧ contextErr.isNone then
        collectResource backend binding resolution collection options none fuel
      else
        throw (.failed err)
    | .unfinished => throw .unfinished
  return markCollectionScope { result with items := backend.filterSort result.items options }
    cursor.isNone

/-! ## The watch snapshots -/

def watchCoverageNamespaces (origins : List Origin) : List String :=
  if !resolution.preferGlobal || origins.isEmpty then
    resolution.namespaces
  else if origins.any fun origin => origin.namespaceName != "" then
    resolution.namespaces
  else
    [""]

def snapshotOrigins : Except ReadError (List Origin) :=
  if resolution.preferGlobal = true ∧ options.namespaces = [] then
    GlobalOriginsFor collection options.kinds
  else do
    let names ← ResolveNamespaces resolution.namespaces options.namespaces
    OriginsFor collection names options.kinds

/-- The loop over the origins of the cursor, with the rows and the encoded bytes so far. -/
def snapshotLoop (snapshots : String → WatchSnapshot O) :
    List (OriginCursor T) → List T → Nat → StateM σ (Option (List T × List (OriginCursor T)))
  | [], items, _ => pure (some (items, []))
  | state :: rest, items, snapshotBytes => do
    let capability ← backend.cluster.check (listKey binding.generation state.origin)
    if capability.decision ≠ .DecisionAllowed then
      return none
    else
      let snapshot := snapshots state.origin.Key
      if items.length + snapshot.items.length > MaximumSnapshotItems then
        return none
      else
        match backend.encodedSize snapshot.items, snapshot.items.mapM backend.object with
        | some size, some rows =>
          if snapshotBytes + size > MaximumSnapshotBytes then
            return none
          else
            let result ← snapshotLoop snapshots rest (items ++ rows) (snapshotBytes + size)
            return result.map fun (items, states) => (items,
              { state with resourceVersion := snapshot.resourceVersion, exhausted := true } ::
                states)
        | _, _ => return none

/-- `none` is `false` in the second result: the page has to be LISTed. -/
def collectFromWatchSnapshots (topic : Topic) : StateM σ (Option (ListResult T)) :=
  match snapshotOrigins resolution collection options with
  | .error _ => pure none
  | .ok origins =>
    if origins.isEmpty then
      pure none
    else
      match backend.snapshotsFor (resourceSelection binding resolution)
          (watchCoverageNamespaces resolution origins) topic origins with
      | none => pure none
      | some snapshots => do
        let cursor := NewCompositeCursor T origins
        match ← snapshotLoop backend binding snapshots cursor.origins [] 0 with
        | none => return none
        | some (items, states) =>
          let items := backend.filterSort items options
          if (items.length : Int) > options.limit then
            return none
          else
            let completed :=
              if options.namespaces = [] then resolution.namespaces.length
              else options.namespaces.length
            return some
              { items := items
                cursor := some { cursor with origins := states }
                page :=
                  { limit := options.limit, complete := true, truncated := false
                    filterScope := .FilterScopeCollection }
                coverage := ⟨completed, completed, [], []⟩ }

end Kubepeep.Backend
