import Kubepeep.Authorization.Types

/-!
# Origins, pages and read errors

The shared vocabulary of `internal/services/resources`: one LIST source, one page of it, and what a
Kubernetes read may fail with.
-/

open Kubepeep.Authorization

namespace Kubepeep.Resources

def MaximumListLimit : Int := 500

def MaximumNamespaces : Nat := 100

def MaximumCursorBytes : Nat := 16 * 2 ^ 10

def DefaultFanout : Nat := 4

def MaximumConfigurableFanout : Nat := 8

def DefaultOriginChunkSize : Int := 10

def MaxOriginChunkSize : Int := 50

/-- One Kubernetes LIST source; the namespace is empty only for a cluster-wide list. -/
structure Origin where
  namespaceName : String
  apiGroup : String
  version : String
  resource : String
  deriving DecidableEq, Repr

def Origin.zero : Origin := ⟨"", "", "", ""⟩

def Origin.Key (origin : Origin) : String :=
  origin.apiGroup ++ "/" ++ origin.version ++ "/" ++ origin.resource ++ "/" ++ origin.namespaceName

structure PageRequest where
  origin : Origin
  limit : Int
  continueToken : String
  labelSelector : String
  fieldSelector : String
  deriving DecidableEq, Repr

structure OriginPage (T : Type) where
  origin : Origin
  items : List T
  continueToken : String
  resourceVersion : String
  deriving DecidableEq, Repr

/-! ## Read errors -/

/-- An `error` as the readers can tell it apart: the wrapped `DomainError` with its suggested
delay, the three sentinels that `errors.Is` finds, and whether `TranslateOperationError` calls it
retryable. -/
structure ReadError where
  domain : Option (ErrorCode × String) := none
  expired : Bool := false
  deadline : Bool := false
  canceled : Bool := false
  retryAfter : Option Int := none
  retryable : Bool := false
  deriving DecidableEq, Repr

def domainError (code : ErrorCode) (message : String) : ReadError :=
  { domain := some (code, message) }

def validationError (message : String) : ReadError :=
  domainError .CodeValidationFailed message

def ErrorCodeOf (err : ReadError) : ErrorCode :=
  match err.domain with
  | some (code, _) => code
  | none => .CodeClusterUnavailable

def classifyReadError (err : ReadError) : ErrorCode × String :=
  if err.deadline then
    (.CodeUpstreamTimeout, "Collection timed out.")
  else if err.canceled then
    (.CodeGenerationChanged, "The active selection changed.")
  else
    match err.domain with
    | some domain => domain
    | none => (.CodeClusterUnavailable, "The Kubernetes API could not complete the request.")

def retryableRead (err : ReadError) : Bool :=
  if err.canceled then
    false
  else
    match err.domain with
    | none => err.retryable
    | some (.CodeRateLimited, _) => true
    | some (.CodeClusterUnavailable, _) => true
    | some (.CodeUpstreamTimeout, _) => true
    | some (.CodeAuthenticationUnavailable, _) => true
    | some _ => false

structure PartialErrorDTO where
  namespaceName : String
  code : ErrorCode
  message : String
  deriving DecidableEq, Repr

structure CoverageDTO where
  requestedNamespaces : Int
  completedNamespaces : Int
  deniedNamespaces : List String
  failed : List PartialErrorDTO
  deriving DecidableEq, Repr

inductive FilterScope where
  | FilterScopePage
  | FilterScopeCollection
  deriving DecidableEq, Repr

structure PageDTO where
  limit : Int
  complete : Bool
  truncated : Bool
  filterScope : FilterScope
  deriving DecidableEq, Repr

end Kubepeep.Resources
