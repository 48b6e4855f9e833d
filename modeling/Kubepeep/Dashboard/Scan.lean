import Kubepeep.Dashboard.Budgets
import Kubepeep.Dashboard.Redaction
import Kubepeep.Dashboard.ScanLines
import Kubepeep.Lib.Pool

/-!
# A log scan

`LogService.Scan` (`internal/services/dashboard/logs.go`): the requested targets are limited and
authorized, a pool of workers reads the logs of the allowed ones, and the results are put together
in the order of the targets.

The timing of a scan is not determined: which worker takes which target, when the context ends, when
the shared byte budget is used up and how much of a log was delivered until then.  `Scans` relates a
request to every block that some timing leads to.
-/

open Function Kubepeep.Go.Bufio Kubepeep.Logs Kubepeep.System

namespace Kubepeep.Dashboard

/-! ## Requests -/

structure LogScanRequest where
  window : Option String
  tailLines : Option Int
  maxPods : Option Int
  maxConcurrentContainers : Option Int

/-- The window is in minutes. -/
structure ResolvedLogScanRequest where
  window : Int
  tailLines : Int
  maxPods : Int
  maxConcurrentContainers : Int

def resolveField (value : Option Int) (default maximum : Int) (message : String) :
    Except Failure Int :=
  match value with
  | none => .ok default
  | some value =>
    if value < 1 ∨ value > maximum then .error (validationError message) else .ok value

def resolveWindow : Option String → Except Failure Int
  | none => .ok 15
  | some "15m" => .ok 15
  | some "30m" => .ok 30
  | some "1h" => .ok 60
  | some "4h" => .ok 240
  | some _ => .error (validationError "window must be one of 15m, 30m, 1h, or 4h")

def ResolveLogScanRequest (request : LogScanRequest) : Except Failure ResolvedLogScanRequest := do
  let window ← resolveWindow request.window
  let tailLines ← resolveField request.tailLines 200 2000 "tailLines must be between 1 and 2000"
  let maxPods ← resolveField request.maxPods 20 50 "maxPods must be between 1 and 50"
  let maxConcurrentContainers ← resolveField request.maxConcurrentContainers 4 8
    "maxConcurrentContainers must be between 1 and 8"
  return ⟨window, tailLines, maxPods, maxConcurrentContainers⟩

/-! ## Targets -/

inductive ContainerType where
  | regular
  | init
  | ephemeral
  | other
  deriving DecidableEq, Repr

def typeRank : ContainerType → Nat
  | .regular => 0
  | .init => 1
  | .ephemeral => 2
  | .other => 3

/-- `LogTarget` with the fields that `Scan` reads. -/
structure ScanTarget where
  namespaceName : String
  pod : String
  container : String
  containerType : ContainerType
  workload : Option ResourceRef
  previous : Bool
  priority : Int
  restarts : Int
  deriving DecidableEq, Repr

/-- `logTargetKey`: what makes two targets the same. -/
structure TargetKey where
  namespaceName : String
  pod : String
  container : String
  previous : Bool
  deriving DecidableEq, Repr

def ScanTarget.key (target : ScanTarget) : TargetKey :=
  ⟨target.namespaceName, target.pod, target.container, target.previous⟩

/-- The key of a pod: the namespace and the name with a NUL between them. -/
def ScanTarget.podKey (target : ScanTarget) : String :=
  target.namespaceName ++ "\x00" ++ target.pod

def lessLogTarget (left right : ScanTarget) : Bool :=
  if left.priority ≠ right.priority then left.priority < right.priority
  else if left.restarts ≠ right.restarts then left.restarts > right.restarts
  else if left.namespaceName ≠ right.namespaceName then left.namespaceName < right.namespaceName
  else if left.pod ≠ right.pod then left.pod < right.pod
  else if typeRank left.containerType ≠ typeRank right.containerType then
    typeRank left.containerType < typeRank right.containerType
  else if left.container ≠ right.container then left.container < right.container
  else if left.previous ≠ right.previous then !left.previous
  else false

/-- The loop of `limitExplicitTargets` over the sorted targets. -/
def selectTargets (maximumPods maximumContainers : Int) :
    List ScanTarget → List ScanTarget → List String → List TargetKey → Bool →
      List ScanTarget × Bool
  | [], selected, _, _, truncated => (selected, truncated)
  | target :: rest, selected, pods, seen, truncated =>
    if target.namespaceName = "" ∨ target.pod = "" ∨ target.container = "" then
      selectTargets maximumPods maximumContainers rest selected pods seen true
    else if target.key ∈ seen then
      selectTargets maximumPods maximumContainers rest selected pods seen truncated
    else if target.podKey ∉ pods ∧ (pods.length : Int) ≥ maximumPods then
      selectTargets maximumPods maximumContainers rest selected pods seen true
    else if (selected.length : Int) ≥ maximumContainers then
      (selected, true)
    else
      selectTargets maximumPods maximumContainers rest (selected ++ [target])
        (appendUnique pods target.podKey) (target.key :: seen) truncated

def limitExplicitTargets (targets : List ScanTarget) (maximumPods maximumContainers : Int) :
    List ScanTarget × Bool :=
  selectTargets maximumPods maximumContainers
    (targets.mergeSort fun left right => !lessLogTarget right left) [] [] [] false

def targetNamespaces (targets : List ScanTarget) : List String :=
  canonicalNamespaces (targets.map (·.namespaceName))

/-! ## Authorization -/

inductive PermissionDecision where
  | allowed
  | denied
  | unknown
  | other
  deriving DecidableEq, Repr

/-- What a scan asks of the port for a target.  `SinceTime` is the captured time less the window. -/
structure LogReadRequest where
  target : TargetKey
  window : Int
  tailLines : Int
  deriving DecidableEq, Repr

/-- What a scan gets from elsewhere: the ports, the log that answers a request (the port cuts it to
the window and to the last lines), the detector, the text of raw bytes and the encoded size of a
match. -/
structure ScanService where
  available : Bool
  canReadPodLogs : String → String → Except Failure PermissionDecision
  log : LogReadRequest → List UInt8
  budget : LogBudget
  detect : List Char → Bool → Option DetectedLogMatch
  text : List UInt8 → List Char
  encodedSize : LogMatchDTO → Option Nat

abbrev Block := DashboardBlockDTO (List LogMatchDTO)

structure Reviewed where
  block : Block
  allowed : List ScanTarget
  decisions : String → Option PermissionDecision
  failed : String → Bool

def settleTarget (state : Reviewed) (target : ScanTarget) (decision : PermissionDecision) :
    Reviewed :=
  if state.failed target.podKey then state
  else
    match decision with
    | .allowed => { state with allowed := state.allowed ++ [target] }
    | .denied =>
      { state with block := addUniqueBlockError state.block target.namespaceName NewDeniedError }
    | _ =>
      { state with
        block := addUniqueBlockError state.block target.namespaceName
          NewAuthorizationUnavailableError }

variable (service : ScanService)

def reviewTarget (state : Reviewed) (target : ScanTarget) : Reviewed :=
  match state.decisions target.podKey with
  | some decision => settleTarget state target decision
  | none =>
    match service.canReadPodLogs target.namespaceName target.pod with
    | .error err =>
      { state with
        block := addUniqueBlockError state.block target.namespaceName err
        decisions := update state.decisions target.podKey (some .unknown)
        failed := update state.failed target.podKey true }
    | .ok decision =>
      settleTarget { state with
        decisions := update state.decisions target.podKey (some decision) }
        target decision

/-- The loop; `ctxErr` answers `requestContext.Err()` before each target. -/
def authorizeTargets (service : ScanService) (ctxErr : Nat → Option Failure) :
    Nat → List ScanTarget → Reviewed → Reviewed
  | _, [], state => state
  | index, target :: rest, state =>
    match ctxErr index with
    | some err =>
      { state with block := addUniqueBlockError state.block target.namespaceName err }
    | none => authorizeTargets service ctxErr (index + 1) rest (reviewTarget service state target)

/-! ## One target -/

structure TargetScanResult where
  matched : List LogMatchDTO
  truncated : Bool
  err : Option Failure
  deriving DecidableEq

/-- The surroundings of one `scanTarget`: whether the budget was exhausted before, the stream it
opened and what its reads met. -/
structure TargetRun where
  exhausted : Bool
  opened : Except Failure (Source ReadEnd)
  env : ReadEnv

variable (request : ResolvedLogScanRequest) (target : ScanTarget)

def readRequest : LogReadRequest :=
  ⟨target.key, request.window, request.tailLines⟩

def examine (lines : List ScannedLine) :
    List LogMatchDTO :=
  scanTarget service.detect
    ⟨target.namespaceName, target.pod, target.container, target.workload⟩
    (lines.map fun line => ⟨service.text line.value, line.truncated⟩)

def scanOne (run : TargetRun) : Option TargetScanResult :=
  if run.exhausted then some ⟨[], true, none⟩
  else
    match run.opened with
    | .error err => some ⟨[], false, some err⟩
    | .ok source => do
      let result ← readBoundedLogLines run.env source service.budget.maxLineBytes.toNat
        service.budget.maxContainerBytes.toNat request.tailLines.toNat
      match result.err with
      | some err => return ⟨[], result.truncated, some err⟩
      | none => return ⟨examine service target result.lines, result.truncated, none⟩

/-- The stream delivers a first part of the log, and all of it before it ends as a log does. -/
def TargetRun.Delivers (run : TargetRun) (log : List UInt8) : Prop :=
  ∀ source, run.opened = .ok source →
    source.content <+: log ∧ (source.err = .eof → source.content = log)

def Outcome (result : TargetScanResult) : Prop :=
  ∃ run : TargetRun, run.Delivers (service.log (readRequest request target)) ∧
    scanOne service request target run = some result

/-! ## The whole scan -/

inductive ScanSignal where
  | canceled
  | exhausted
  deriving DecidableEq

variable (allowed : List ScanTarget)

def scanRules : Pool.Rules TargetScanResult ScanSignal where
  jobs := allowed.length
  outcome index result := ∃ target, allowed[index]? = some target ∧
    Outcome service request target result
  after _ := none
  external _ := True
  drops := False

def workerCount : Nat :=
  min request.maxConcurrentContainers.toNat allowed.length

abbrev PoolState (workers : Nat) := Pool.State (Fin workers) TargetScanResult ScanSignal

/-- One iteration over the ordered results; the second part counts the completed targets. -/
def addResult (state : Block × (String → Nat))
    (entry : Nat × TargetScanResult) : Block × (String → Nat) :=
  let (block, completed) := state
  let namespaceName := ((allowed[entry.1]?).map (·.namespaceName)).getD ""
  match entry.2.err with
  | some err => (addUniqueBlockError block namespaceName err, completed)
  | none =>
    if entry.2.truncated then
      ({ block.cut with value := block.value ++ entry.2.matched }, completed)
    else
      ({ block with value := block.value ++ entry.2.matched },
        update completed namespaceName (completed namespaceName + 1))

/-- The loop of `capSerializedMatches`. -/
def capMatches (service : ScanService) (maximum : Int) :
    List LogMatchDTO → List LogMatchDTO → Int → List LogMatchDTO × Bool
  | [], result, _ => (result, false)
  | value :: rest, result, used =>
    let separator := if result.length > 0 then 1 else 0
    match service.encodedSize value with
    | none => (result, true)
    | some size =>
      if size + separator > maximum - used then (result, true)
      else capMatches service maximum rest (result ++ [value]) (used + size + separator)

def capSerializedMatches (values : List LogMatchDTO) (maximum : Int) :
    List LogMatchDTO × Bool :=
  capMatches service maximum values [] 2

/-- An ended context is an error if results are missing. -/
def noteContext (missing : Bool) (ctxErr : Option Failure) (block : Block) : Block :=
  match ctxErr with
  | some err => if missing then addUniqueBlockError block "" err else block
  | none => block

/-- So is an exhausted budget, and a result that is missing for no other reason. -/
def noteBudget (exhausted missing : Bool) (ctxErr : Option Failure) (block : Block) : Block :=
  if exhausted || (missing && ctxErr.isNone) then block.cut else block

def addCoverage (namespaces : List String) (selectionTruncated : Bool) (allowed : List ScanTarget)
    (completed : String → Nat) (block : Block) : Block :=
  let expected := fun namespaceName =>
    (allowed.filter fun target => target.namespaceName = namespaceName).length
  let finished := namespaces.filter fun namespaceName =>
    !selectionTruncated && decide (expected namespaceName > 0) &&
      decide (completed namespaceName = expected namespaceName) &&
      !containsNamespaceError block.errors namespaceName
  { block with
    coverage := { block.coverage with
      completedNamespaces := block.coverage.completedNamespaces + finished.length } }

def capOutput (block : Block) : Block :=
  let (value, outputTruncated) :=
    capSerializedMatches service block.value service.budget.maxScanBytes
  let block := { block with value }
  if outputTruncated then block.cut else block

/-- What follows the pool.  `requestContext.Err()` is asked twice. -/
def finishScan (namespaces : List String) (selectionTruncated : Bool)
    (allowed : List ScanTarget) (block : Block) (ordered : List (Nat × TargetScanResult))
    (exhausted : Bool) (ctxErr laterCtxErr : Option Failure) : Block :=
  let (block, completed) := ordered.foldl (addResult allowed) (block, fun _ => 0)
  let missing := decide (ordered.length < allowed.length)
  let block := noteContext missing ctxErr block
  let block := noteBudget exhausted missing laterCtxErr block
  let block := addCoverage namespaces selectionTruncated allowed completed block
  capOutput service block

def emptyBlock (targets : List ScanTarget) : Block :=
  blockWithValue [] (emptyCoverage (targetNamespaces targets).length)

def reviewed (targets : List ScanTarget) (ctxErr : Nat → Option Failure) : Reviewed :=
  let (limited, selectionTruncated) :=
    limitExplicitTargets targets request.maxPods service.budget.maxContainers
  let block := if selectionTruncated then (emptyBlock targets).cut else emptyBlock targets
  authorizeTargets service ctxErr 0 limited ⟨block, [], fun _ => none, fun _ => false⟩

inductive Scans (service : ScanService) (request : LogScanRequest) (targets : List ScanTarget) :
    Block → Prop
  | invalid {err : Failure} (hrequest : ResolveLogScanRequest request = .error err) :
      Scans service request targets (addBlockError (emptyBlock targets) "" err)
  | unavailable {resolved : ResolvedLogScanRequest}
      (hrequest : ResolveLogScanRequest request = .ok resolved)
      (hservice : service.available = false) :
      Scans service request targets
        (addBlockError (emptyBlock targets) "" NewFeatureUnavailableError)
  | scanned {resolved : ResolvedLogScanRequest}
      (hrequest : ResolveLogScanRequest request = .ok resolved)
      (hservice : service.available = true) (reviewCtx : Nat → Option Failure)
      {allowed : List ScanTarget}
      (hallowed : allowed = (reviewed service resolved targets reviewCtx).allowed)
      {actions : List (Pool.Action (Fin (workerCount resolved allowed)) TargetScanResult
        ScanSignal)}
      {pool : PoolState (workerCount resolved allowed)}
      (hpool : Runs (Pool.Step (scanRules service resolved allowed)) Pool.start actions pool)
      (hstopped : ∀ w, pool.workers w = .stopped) {ctxErr laterCtxErr : Option Failure}
      -- A context that has ended stays so.
      (hctx : pool.signals .canceled = true → ctxErr ≠ none)
      (hlater : ctxErr ≠ none → laterCtxErr ≠ none) :
      Scans service request targets
        (finishScan service (targetNamespaces targets)
          (limitExplicitTargets targets resolved.maxPods service.budget.maxContainers).2 allowed
          (reviewed service resolved targets reviewCtx).block
          (pool.finished.mergeSort fun left right => left.1 ≤ right.1)
          (pool.signals .exhausted) ctxErr laterCtxErr)

end Kubepeep.Dashboard
