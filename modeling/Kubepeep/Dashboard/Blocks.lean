import Mathlib

/-!
# Dashboard blocks

The payload that the independent parts of the dashboard share, with its partial errors and its
namespace coverage (`internal/services/dashboard/dto.go`, `errors.go`, `helpers.go`).
-/

namespace Kubepeep.Dashboard

inductive Code where
  | ValidationFailed
  | Forbidden
  | FeatureUnavailable
  | AuthorizationUnavailable
  | AuthenticationUnavailable
  | UpstreamTimeout
  | ClusterUnavailable
  | ClientCanceled
  deriving DecidableEq, Repr

structure PublicError where
  code : Code
  message : String
  denied : Bool := false
  deriving DecidableEq, Repr

/-- An `error` as `classifyPartialError` tells it apart. -/
inductive Failure where
  | visible (err : PublicError)
  | deadlineExceeded
  | canceled
  | other
  deriving DecidableEq, Repr

def validationError (message : String) : Failure :=
  .visible { code := .ValidationFailed, message }

def NewDeniedError : Failure :=
  .visible ⟨.Forbidden, "Access to the requested resource was denied.", true⟩

def NewFeatureUnavailableError : Failure :=
  .visible { code := .FeatureUnavailable, message := "The optional feature is unavailable." }

def NewAuthorizationUnavailableError : Failure :=
  .visible { code := .AuthorizationUnavailable, message := "Authorization could not be confirmed." }

structure PartialError where
  namespaceName : String
  code : Code
  message : String
  deriving DecidableEq, Repr

structure CoverageDTO where
  requestedNamespaces : Nat
  completedNamespaces : Nat := 0
  deniedNamespaces : List String := []
  failed : List PartialError := []
  deriving DecidableEq, Repr

/-- The coverage is a pointer that only blocks without a fan-out leave nil; they are not here. -/
structure DashboardBlockDTO (T : Type) where
  value : T
  complete : Bool
  truncated : Bool
  coverage : CoverageDTO
  errors : List PartialError

/-- The partial error, and whether it is a denial. -/
def classifyPartialError (namespaceName : String) : Failure → PartialError × Bool
  | .visible err => (⟨namespaceName, err.code, err.message⟩, err.denied)
  | .deadlineExceeded => (⟨namespaceName, .UpstreamTimeout, "Collection timed out."⟩, false)
  | .canceled => (⟨namespaceName, .ClientCanceled, "Collection was canceled."⟩, false)
  | .other =>
    (⟨namespaceName, .ClusterUnavailable, "The Kubernetes API is temporarily unavailable."⟩, false)

def emptyCoverage (requested : Nat) : CoverageDTO :=
  { requestedNamespaces := requested }

def appendUnique (values : List String) (value : String) : List String :=
  if value ∈ values then values else values ++ [value]

/-- Distinct and sorted; which of two equal names is dropped makes no difference. -/
def canonicalNamespaces (values : List String) : List String :=
  (values.filter (· ≠ "")).dedup.mergeSort (· ≤ ·)

variable {T : Type}

def blockWithValue (value : T) (coverage : CoverageDTO) : DashboardBlockDTO T :=
  ⟨value, true, false, coverage, []⟩

def addBlockError (block : DashboardBlockDTO T) (namespaceName : String) (err : Failure) :
    DashboardBlockDTO T :=
  let (partialError, denied) := classifyPartialError namespaceName err
  { block with
    complete := false
    errors := block.errors ++ [partialError]
    coverage :=
      if denied then
        { block.coverage with
          deniedNamespaces := appendUnique block.coverage.deniedNamespaces namespaceName }
      else
        { block.coverage with failed := block.coverage.failed ++ [partialError] } }

def addUniqueBlockError (block : DashboardBlockDTO T) (namespaceName : String) (err : Failure) :
    DashboardBlockDTO T :=
  let partialError := (classifyPartialError namespaceName err).1
  if block.errors.any fun existing =>
      existing.namespaceName = partialError.namespaceName ∧ existing.code = partialError.code then
    { block with complete := false }
  else
    addBlockError block namespaceName err

def containsNamespaceError (errors : List PartialError) (namespaceName : String) : Bool :=
  errors.any fun item => item.namespaceName = namespaceName ∨ item.namespaceName = ""

def DashboardBlockDTO.cut (block : DashboardBlockDTO T) : DashboardBlockDTO T :=
  { block with truncated := true, complete := false }

variable (block : DashboardBlockDTO T) (namespaceName : String) (err : Failure)

@[simp] theorem addUniqueBlockError_complete :
    (addUniqueBlockError block namespaceName err).complete = false := by
  unfold addUniqueBlockError
  dsimp only
  split <;> rfl

@[simp] theorem addUniqueBlockError_value :
    (addUniqueBlockError block namespaceName err).value = block.value := by
  unfold addUniqueBlockError
  dsimp only
  split <;> rfl

end Kubepeep.Dashboard
