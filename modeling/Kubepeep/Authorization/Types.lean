import Mathlib

/-!
# Authorization decisions

The data of `internal/services/authorization` that the readers use: the tri-state decision, the
review key, and the public description of a review that gave no decision.
-/

namespace Kubepeep.Authorization

/-- Unknown is distinct from a denial. -/
inductive Decision where
  | DecisionAllowed
  | DecisionDenied
  | DecisionUnknown
  deriving DecidableEq, Repr

inductive ReasonCode where
  | ReasonSARAllowed
  | ReasonSARDenied
  | ReasonSARIncomplete
  | ReasonSARUnavailable
  | ReasonSARTimeout
  | ReasonSARForbidden
  | ReasonSARAuthenticationUnavailable
  | ReasonRequestCanceled
  | ReasonOperationAllowed
  | ReasonOperationDenied
  | ReasonOperationUnavailable
  | ReasonSSRRSummaryAvailable
  | ReasonSSRRIncomplete
  | ReasonSSRRUnavailable
  deriving DecidableEq, Repr

structure Key where
  generation : String
  namespaceName : String := ""
  apiGroup : String
  resource : String
  subresource : String := ""
  verb : String
  resourceName : String := ""
  deriving DecidableEq, Repr

/-- The part of a `Capability` that a reader looks at.  `none` is the empty reason of a zero
value. -/
structure Capability where
  decision : Decision
  reasonCode : Option ReasonCode
  deriving DecidableEq, Repr

/-- The codes of `authorization` and of `resources`.  The two packages spell the shared ones alike,
so the conversion between them is the identity. -/
inductive ErrorCode where
  | CodeValidationFailed
  | CodeForbidden
  | CodeAuthorizationUnavailable
  | CodeAuthenticationUnavailable
  | CodeFeatureUnavailable
  | CodeClusterUnavailable
  | CodeUpstreamTimeout
  | CodeNotFound
  | CodeCursorExpired
  | CodeGenerationChanged
  | CodeLimitExceeded
  | CodeRateLimited
  | CodePreferenceSensitive
  | CodeClientCanceled
  deriving DecidableEq, Repr

structure PublicError where
  code : ErrorCode
  message : String
  deriving DecidableEq, Repr

/-- The review mechanism's failure, never a denial of the target operation. -/
def ReviewFailure (capability : Capability) : PublicError :=
  match capability.reasonCode with
  | some .ReasonSARTimeout =>
    ⟨.CodeUpstreamTimeout, "The Kubernetes permission review timed out. Resource access has not " ++
      "been denied; the review can be retried."⟩
  | some .ReasonSARAuthenticationUnavailable =>
    ⟨.CodeAuthenticationUnavailable, "Kubernetes rejected the current credentials (HTTP 401). " ++
      "Refresh the login or credential provider for this context."⟩
  | some .ReasonSARForbidden =>
    ⟨.CodeAuthorizationUnavailable, "Kubernetes denied the permission-review request " ++
      "(SelfSubjectAccessReview). This does not mean the resource itself is forbidden; reads " ++
      "are checked by the actual Kubernetes request."⟩
  | some .ReasonSARIncomplete =>
    ⟨.CodeAuthorizationUnavailable, "Kubernetes returned an incomplete permission review " ++
      "without an allow or deny decision. The review will be checked again."⟩
  | some .ReasonRequestCanceled =>
    ⟨.CodeAuthorizationUnavailable, "The Kubernetes permission review was canceled before it " ++
      "returned a decision. The review can be retried."⟩
  | some .ReasonSARUnavailable =>
    ⟨.CodeAuthorizationUnavailable, "The Kubernetes permission-review endpoint could not be " ++
      "reached or returned an error. Resource access has not been denied; the review can be " ++
      "retried."⟩
  | _ =>
    ⟨.CodeAuthorizationUnavailable, "The Kubernetes permission review did not return a " ++
      "decision. This does not establish that resource access was denied."⟩

end Kubepeep.Authorization
