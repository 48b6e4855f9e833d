import Kubepeep.Authorization.Allowlist
import Kubepeep.Authorization.Types
import Kubepeep.Go.Unicode
import Kubepeep.Lib.Effect

/-!
# Permission requests

`internal/services/authorization/matrix.go`: a request for permissions is checked and turned into
at most a hundred review keys, and the reviews are collected in a matrix.  The definitions are over
an arbitrary allowlist; the service has `capabilityAllowlist`.
-/

open List

namespace Kubepeep.Authorization

open Kubepeep.Go

def maxQueryNamespaces : Nat := 20

def maxQueryCapabilities : Nat := 100

def maxQueryResourceNames : Nat := 20

def maxExpandedDecisions : Nat := 100

def maxGenerationLength : Nat := 256

def validationError : PublicError :=
  ⟨.CodeValidationFailed, "The authorization request is invalid."⟩

/-! ## Names -/

def lowerAlphanumeric (c : Char) : Bool :=
  ('a' ≤ c && c ≤ 'z') || ('0' ≤ c && c ≤ '9')

/-- No message of `validation.IsDNS1123Label` and of `validation.IsDNS1123Subdomain`, which are not
part of the repository.  A label is not empty and consists of lower case alphanumeric characters and
hyphens. -/
structure Validation where
  IsDNS1123Label : String → Bool
  IsDNS1123Subdomain : String → Bool
  label_chars : ∀ {value}, IsDNS1123Label value = true →
    value ≠ "" ∧ ∀ c ∈ value.toList, lowerAlphanumeric c = true ∨ c = '-'

/-- `[a-z0-9]([-a-z0-9]*[a-z0-9])?` -/
def dns1123Label (label : List Char) : Bool :=
  label.all (fun c => lowerAlphanumeric c || c == '-') &&
    label.head?.any lowerAlphanumeric && label.getLast?.any lowerAlphanumeric

/-- The checks as their patterns and limits are documented. -/
def documentedValidation : Validation where
  IsDNS1123Label value := value.utf8ByteSize ≤ 63 && dns1123Label value.toList
  IsDNS1123Subdomain value :=
    value.utf8ByteSize ≤ 253 && (value.toList.splitOn '.').all dns1123Label
  label_chars h := by
    simp only [dns1123Label, Bool.and_eq_true, all_eq_true] at h
    refine ⟨?_, fun c hc => by simpa using h.2.1.1 c hc⟩
    rintro rfl
    exact absurd h.2.1.2 (by decide)

def safeOpaque (value : String) (maximum : Nat) : Bool :=
  value != "" && value.utf8ByteSize ≤ maximum && value == TrimSpace value &&
    value.toList.all fun character => !IsControl character && !IsSpace character

/-- `resourcecatalog.ValidName` -/
def ValidName (name : String) : Bool :=
  name != "" && name.utf8ByteSize ≤ 253 && name != "." && name != ".." &&
    (name.toList.all fun r => r != '/' && r != '%' && r != '\\') &&
    name.toList.all fun r => !(IsSpace r || IsControl r)

/-- The loop of both `validate` functions, with the values seen so far. -/
def validateUnique (valid : String → Bool) : List String → List String → Except PublicError Unit
  | [], _ => .ok ()
  | value :: rest, seen =>
    if valid value = false ∨ value ∈ seen then .error validationError
    else validateUnique valid rest (value :: seen)

/-- `active` is `none` for the nil map. -/
def validateUniqueNamespaces (validation : Validation) (namespaces : List String)
    (active : Option (List String)) : Except PublicError Unit :=
  validateUnique (fun name => validation.IsDNS1123Label name && active.all (·.contains name))
    namespaces []

def validateResourceNames (resourceNames : List String) : Except PublicError Unit :=
  validateUnique ValidName resourceNames []

/-! ## Keys -/

/-- A missing group, subresource, namespace or resource name is the empty string. -/
def ValidateKey (validation : Validation) (key : Key) : Bool :=
  safeOpaque key.generation maxGenerationLength && key.resource != "" && key.verb != "" &&
    (key.namespaceName == "" || validation.IsDNS1123Label key.namespaceName) &&
    (key.apiGroup == "" || validation.IsDNS1123Subdomain key.apiGroup) &&
    validation.IsDNS1123Label key.resource &&
    (key.subresource == "" || validation.IsDNS1123Label key.subresource) &&
    validation.IsDNS1123Label key.verb &&
    (key.resourceName == "" || ValidName key.resourceName)

def CapabilitySpec.key (specification : CapabilitySpec)
    (generation namespaceName resourceName : String) : Key :=
  { generation, namespaceName, resourceName, apiGroup := specification.apiGroup
    resource := specification.resource, subresource := specification.subresource
    verb := specification.verb }

section

variable (validation : Validation) (allowlist : List CapabilitySpec)

/-- `capabilityByID` keeps the last entry of an ID. -/
def LookupCapability (id : String) : Option CapabilitySpec :=
  (allowlist.filter fun specification => specification.ID = id).getLast?

def KeyForCapability (generation namespaceName id resourceName : String) :
    Except PublicError Key :=
  match LookupCapability allowlist id with
  | none => .error validationError
  | some specification =>
    let key := specification.key generation namespaceName resourceName
    if (if specification.scope = .ScopeCluster then namespaceName ≠ "" else namespaceName = "") then
      .error validationError
    else if specification.resourceNamePolicy = .ResourceNameEmpty ∧ resourceName ≠ "" then
      .error validationError
    else if ValidateKey validation key = false then
      .error validationError
    else
      .ok key

/-! ## Expansion -/

structure PermissionsRequest where
  generation : String
  activeNamespaces : List String
  namespaces : List String := []
  capabilityIDs : List String := []
  resourceNames : List String := []
  refresh : Bool := false
  deriving DecidableEq, Repr

structure ExpandedCapability where
  capabilityID : String
  key : Key
  deriving DecidableEq, Repr

/-- The loop over the requested IDs, with those seen so far. -/
def selectIDs : List String → List String → Except PublicError (List CapabilitySpec)
  | [], _ => .ok []
  | id :: rest, seen =>
    match if id ∈ seen then none else LookupCapability allowlist id with
    | none => .error validationError
    | some specification => (specification :: ·) <$> selectIDs rest (id :: seen)

def selectedSpecifications (ids : List String) : Except PublicError (List CapabilitySpec) :=
  if ids = [] then .ok allowlist else selectIDs allowlist ids []

def appendDecision (generation id : String) (expanded : List ExpandedCapability)
    (target : String × String) : Except PublicError (List ExpandedCapability) :=
  if expanded.length = maxExpandedDecisions then
    .error validationError
  else do
    let key ← KeyForCapability validation allowlist generation target.1 id target.2
    .ok (expanded ++ [⟨id, key⟩])

def targets (resourceNames namespaces : List String) (specification : CapabilitySpec) :
    List (String × String) :=
  let names :=
    if specification.resourceNamePolicy = .ResourceNameTarget ∧ resourceNames ≠ [] then
      resourceNames
    else [""]
  if specification.scope = .ScopeCluster then names.map fun name => ("", name)
  else namespaces.flatMap fun namespaceName => names.map fun name => (namespaceName, name)

def appendSpecification (generation : String) (resourceNames namespaces : List String)
    (expanded : List ExpandedCapability) (specification : CapabilitySpec) :
    Except PublicError (List ExpandedCapability) :=
  if specification.scope ≠ .ScopeCluster ∧ namespaces = [] then
    .error validationError
  else
    (targets resourceNames namespaces specification).foldlM
      (appendDecision validation allowlist generation specification.ID) expanded

/-- The second component tells whether the active namespaces were cut. -/
def ExpandPermissions (request : PermissionsRequest) :
    Except PublicError (List ExpandedCapability × Bool) :=
  if safeOpaque request.generation maxGenerationLength = false ∨
      request.namespaces.length > maxQueryNamespaces ∨
      request.capabilityIDs.length > maxQueryCapabilities ∨
      request.resourceNames.length > maxQueryResourceNames then
    .error validationError
  else do
    validateUniqueNamespaces validation request.activeNamespaces none
    let namespaces :=
      if request.namespaces = [] then request.activeNamespaces.take maxQueryNamespaces
      else request.namespaces
    let truncated :=
      request.namespaces == [] && decide (request.activeNamespaces.length > maxQueryNamespaces)
    validateUniqueNamespaces validation namespaces (some request.activeNamespaces)
    validateResourceNames request.resourceNames
    let specifications ← selectedSpecifications allowlist request.capabilityIDs
    if request.resourceNames ≠ [] ∧ ∀ specification ∈ specifications,
        specification.resourceNamePolicy ≠ .ResourceNameTarget then
      .error validationError
    else do
      let expanded ← specifications.foldlM
        (appendSpecification validation allowlist request.generation request.resourceNames
          namespaces) []
      if expanded = [] then .error validationError else .ok (expanded, truncated)

/-! ## The matrix -/

/-- The reason of a row: that of the review, or the one that the user interface sets. -/
inductive MatrixReason where
  | reviewed (reason : Option ReasonCode)
  | BATCH_INCONSISTENT
  deriving DecidableEq, Repr

/-- A `Capability` with all its fields.  `expiresAt` is `none` for the null of the user
interface. -/
structure MatrixCapability where
  capabilityID : String
  namespaceName : String
  apiGroup : String
  resource : String
  subresource : String
  verb : String
  resourceName : String
  decision : Decision
  reasonCode : MatrixReason
  expiresAt : Option Nat
  deriving DecidableEq, Repr

/-- The missing namespace is the empty string. -/
structure PartialError where
  namespaceName : String
  code : ErrorCode
  message : String
  deriving DecidableEq, Repr

structure CapabilityMatrix where
  generation : String
  decisions : List MatrixCapability
  complete : Bool
  truncated : Bool
  errors : List PartialError
  deriving DecidableEq, Repr

/-- The row of an expanded capability; `check` is `Check` or `Refresh`, with the expiry. -/
def matrixRow (check : ExpandedCapability → Capability × Nat) (item : ExpandedCapability) :
    MatrixCapability where
  capabilityID := item.capabilityID
  namespaceName := item.key.namespaceName
  apiGroup := item.key.apiGroup
  resource := item.key.resource
  subresource := item.key.subresource
  verb := item.key.verb
  resourceName := item.key.resourceName
  decision := (check item).1.decision
  reasonCode := .reviewed (check item).1.reasonCode
  expiresAt := some (check item).2

def matrixError (check : ExpandedCapability → Capability × Nat) (item : ExpandedCapability) :
    Option PartialError :=
  let capability := (check item).1
  if capability.decision = .DecisionUnknown then
    some ⟨item.key.namespaceName, (ReviewFailure capability).code,
      (ReviewFailure capability).message⟩
  else none

def Matrix (check : ExpandedCapability → Capability × Nat) (request : PermissionsRequest) :
    Except PublicError CapabilityMatrix := do
  let (expanded, truncated) ← ExpandPermissions validation allowlist request
  let errors := expanded.filterMap (matrixError check)
  if errors.length = expanded.length then
    .error <| match expanded.head? with
      | some item => ReviewFailure (check item).1
      | none => ReviewFailure ⟨.DecisionUnknown, none⟩
  else
    .ok
      { generation := request.generation, decisions := expanded.map (matrixRow check)
        complete := errors = [], truncated, errors }

end

/-! ## Which requests are accepted -/

theorem validateUnique_eq_ok_iff {valid : String → Bool} {values seen : List String} :
    validateUnique valid values seen = .ok () ↔
      (∀ value ∈ values, valid value = true ∧ value ∉ seen) ∧ values.Nodup := by
  induction values generalizing seen with
  | nil => simp [validateUnique]
  | cons value rest ih =>
    unfold validateUnique
    split
    · next h =>
      refine iff_of_false nofun fun hall => ?_
      have hvalue := hall.1 value mem_cons_self
      rcases h with h | h
      · exact absurd hvalue.1 (by simp [h])
      · exact hvalue.2 h
    · next h =>
      simp only [not_or, Bool.not_eq_false] at h
      rw [ih]
      constructor
      · intro hrest
        refine ⟨?_, nodup_cons.mpr ⟨fun hmem => ?_, hrest.2⟩⟩
        · intro other hother
          rcases mem_cons.mp hother with rfl | hother
          · exact h
          · have hfresh := hrest.1 other hother
            exact ⟨hfresh.1, fun hseen => hfresh.2 (mem_cons_of_mem _ hseen)⟩
        · exact (hrest.1 value hmem).2 mem_cons_self
      · intro hall
        have hnodup := nodup_cons.mp hall.2
        refine ⟨fun other hother => ?_, hnodup.2⟩
        have hfresh := hall.1 other (mem_cons_of_mem _ hother)
        refine ⟨hfresh.1, fun hmem => ?_⟩
        rcases mem_cons.mp hmem with rfl | hmem
        · exact hnodup.1 hother
        · exact hfresh.2 hmem

section

variable {validation : Validation} {allowlist : List CapabilitySpec} {generation id : String}
  {expanded result : List ExpandedCapability}

theorem appendDecision_eq_ok {target : String × String}
    (h : appendDecision validation allowlist generation id expanded target = .ok result) :
    expanded.length ≠ maxExpandedDecisions ∧ result.length = expanded.length + 1 := by
  unfold appendDecision at h
  split at h
  · cases h
  · next hlength =>
    obtain ⟨key, -, hkey⟩ := except_bind_eq_ok h
    cases hkey
    exact ⟨hlength, by simp⟩

theorem foldlM_appendDecision_length {wanted : List (String × String)}
    (hlength : expanded.length ≤ maxExpandedDecisions)
    (h : wanted.foldlM (appendDecision validation allowlist generation id) expanded = .ok result) :
    result.length = expanded.length + wanted.length ∧ result.length ≤ maxExpandedDecisions := by
  induction wanted generalizing expanded with
  | nil =>
    cases h
    exact ⟨rfl, hlength⟩
  | cons target rest ih =>
    obtain ⟨next, hnext, hrest⟩ := except_bind_eq_ok h
    obtain ⟨hfull, hone⟩ := appendDecision_eq_ok hnext
    obtain ⟨htotal, hbound⟩ := ih (by omega) hrest
    exact ⟨by rw [htotal, hone, length_cons]; omega, hbound⟩

variable {resourceNames namespaces : List String} {specification : CapabilitySpec}

theorem targets_pos (h : specification.scope = .ScopeCluster ∨ namespaces ≠ []) :
    0 < (targets resourceNames namespaces specification).length := by
  unfold targets
  have hnames : (if specification.resourceNamePolicy = .ResourceNameTarget ∧ resourceNames ≠ []
      then resourceNames else [""]) ≠ [] := by
    split
    · next htarget => exact htarget.2
    · exact cons_ne_nil _ _
  generalize (if specification.resourceNamePolicy = .ResourceNameTarget ∧ resourceNames ≠ []
    then resourceNames else [""]) = names at hnames
  split_ifs with hscope
  · rw [length_map]
    exact length_pos_iff.mpr hnames
  · rw [length_pos_iff]
    obtain ⟨first, rest, rfl⟩ := exists_cons_of_ne_nil (h.resolve_left hscope)
    simpa using fun hnil => absurd hnil hnames

theorem appendSpecification_length (hlength : expanded.length ≤ maxExpandedDecisions)
    (h : appendSpecification validation allowlist generation resourceNames namespaces expanded
      specification = .ok result) :
    result.length = expanded.length + (targets resourceNames namespaces specification).length ∧
      0 < (targets resourceNames namespaces specification).length ∧
      result.length ≤ maxExpandedDecisions := by
  unfold appendSpecification at h
  split at h
  · cases h
  · next hscope =>
    have hpos := @targets_pos resourceNames namespaces specification (by tauto)
    obtain ⟨htotal, hbound⟩ := foldlM_appendDecision_length hlength h
    exact ⟨htotal, hpos, hbound⟩

theorem foldlM_appendSpecification_length
    {specifications : List CapabilitySpec} (hlength : expanded.length ≤ maxExpandedDecisions)
    (h : specifications.foldlM
      (appendSpecification validation allowlist generation resourceNames namespaces) expanded =
        .ok result) :
    result.length =
        expanded.length + (specifications.flatMap (targets resourceNames namespaces)).length ∧
      specifications.length ≤ (specifications.flatMap (targets resourceNames namespaces)).length ∧
      result.length ≤ maxExpandedDecisions := by
  induction specifications generalizing expanded with
  | nil =>
    cases h
    exact ⟨rfl, Nat.le_refl _, hlength⟩
  | cons specification rest ih =>
    obtain ⟨next, hnext, hrest⟩ := except_bind_eq_ok h
    obtain ⟨hmore, hpos, hbound⟩ := appendSpecification_length hlength hnext
    obtain ⟨htotal, hcount, hbound⟩ := ih hbound hrest
    rw [flatMap_cons, length_append, length_cons]
    exact ⟨by omega, by omega, hbound⟩

variable {accepted : List ExpandedCapability × Bool} {request : PermissionsRequest}

theorem ExpandPermissions_eq_ok
    (h : ExpandPermissions validation allowlist request = .ok accepted) :
    ∃ specifications,
      selectedSpecifications allowlist request.capabilityIDs = .ok specifications ∧
      specifications.foldlM (appendSpecification validation allowlist request.generation
        request.resourceNames (if request.namespaces = [] then
          request.activeNamespaces.take maxQueryNamespaces else request.namespaces)) [] =
        .ok accepted.1 := by
  unfold ExpandPermissions at h
  split at h
  · cases h
  · obtain ⟨_, -, h⟩ := except_bind_eq_ok h
    obtain ⟨_, -, h⟩ := except_bind_eq_ok h
    obtain ⟨_, -, h⟩ := except_bind_eq_ok h
    obtain ⟨specifications, hspecifications, h⟩ := except_bind_eq_ok h
    split at h
    · cases h
    · obtain ⟨expanded, hexpanded, h⟩ := except_bind_eq_ok h
      split at h
      · cases h
      · cases h
        exact ⟨specifications, hspecifications, hexpanded⟩

theorem ExpandPermissions_length (hids : request.capabilityIDs = [])
    (h : ExpandPermissions validation allowlist request = .ok accepted) :
    allowlist.length ≤ maxExpandedDecisions := by
  obtain ⟨specifications, hselected, hfold⟩ := ExpandPermissions_eq_ok h
  rw [hids] at hselected
  obtain rfl : allowlist = specifications := Except.ok.inj hselected
  obtain ⟨htotal, hcount, hbound⟩ := foldlM_appendSpecification_length (Nat.zero_le _) hfold
  rw [length_nil, Nat.zero_add] at htotal
  omega

end

/-! ## Requests of one batch -/

def CapabilitySpec.Valid (validation : Validation) (specification : CapabilitySpec) : Bool :=
  specification.resource != "" && specification.verb != "" &&
    (specification.apiGroup == "" || validation.IsDNS1123Subdomain specification.apiGroup) &&
    validation.IsDNS1123Label specification.resource &&
    (specification.subresource == "" || validation.IsDNS1123Label specification.subresource) &&
    validation.IsDNS1123Label specification.verb

structure Lawful (validation : Validation) (allowlist : List CapabilitySpec) : Prop where
  ids : (allowlist.map CapabilitySpec.ID).Nodup
  valid : ∀ specification ∈ allowlist, specification.Valid validation = true

def decisionsFor (allowlist : List CapabilitySpec) (generation : String)
    (namespaces : List String) : List ExpandedCapability :=
  allowlist.flatMap fun specification =>
    (targets [] namespaces specification).map fun target =>
      ⟨specification.ID, specification.key generation target.1 target.2⟩

variable {validation : Validation} {allowlist : List CapabilitySpec} {generation : String}
  {namespaces : List String} {specification : CapabilitySpec}

theorem targets_nil_names : targets [] namespaces specification =
    if specification.scope = .ScopeCluster then [("", "")]
    else namespaces.map fun namespaceName => (namespaceName, "") := by
  simp [targets, map_eq_flatMap]

theorem ValidateKey_key {namespaceName : String} :
    ValidateKey validation (specification.key generation namespaceName "") =
      (safeOpaque generation maxGenerationLength &&
        (namespaceName == "" || validation.IsDNS1123Label namespaceName) &&
        specification.Valid validation) := by
  simp only [ValidateKey, CapabilitySpec.key, CapabilitySpec.Valid, BEq.rfl, Bool.true_or,
    Bool.and_true]
  ac_rfl

theorem Lawful.lookup (h : Lawful validation allowlist) (hmem : specification ∈ allowlist) :
    LookupCapability allowlist specification.ID = some specification := by
  have hall : ∀ other ∈ allowlist.filter fun other => other.ID = specification.ID,
      other = specification := by
    intro other hother
    obtain ⟨hlist, hid⟩ := mem_filter.mp hother
    exact inj_on_of_nodup_map h.ids hlist hmem (of_decide_eq_true hid)
  have hne : (allowlist.filter fun other => other.ID = specification.ID) ≠ [] :=
    ne_nil_of_mem (mem_filter.mpr ⟨hmem, by simp⟩)
  rw [LookupCapability, getLast?_eq_some_getLast hne, hall _ (getLast_mem hne)]

theorem Lawful.key (h : Lawful validation allowlist) (hmem : specification ∈ allowlist)
    (hgeneration : safeOpaque generation maxGenerationLength = true)
    (hlabels : ∀ namespaceName ∈ namespaces, validation.IsDNS1123Label namespaceName = true)
    {target : String × String} (htarget : target ∈ targets [] namespaces specification) :
    KeyForCapability validation allowlist generation target.1 specification.ID target.2 =
      .ok (specification.key generation target.1 target.2) := by
  unfold KeyForCapability
  rw [h.lookup hmem]
  rw [targets_nil_names] at htarget
  split at htarget
  next hscope =>
    rw [mem_singleton.mp htarget]
    simp [hscope, ValidateKey_key, hgeneration, h.valid _ hmem]
  next hscope =>
    obtain ⟨namespaceName, hname, rfl⟩ := mem_map.mp htarget
    have hne := (validation.label_chars (hlabels _ hname)).1
    simp [hscope, hne, ValidateKey_key, hgeneration, h.valid _ hmem, hlabels _ hname]

/-- A loop whose steps append, as long as there is room. -/
theorem foldlM_appends {α β ε : Type} {step : List β → α → Except ε (List β)} {out : α → List β}
    {bound : Nat} {as : List α} {acc : List β}
    (h : ∀ acc, ∀ a ∈ as, acc.length + (out a).length ≤ bound → step acc a = .ok (acc ++ out a))
    (hlength : acc.length + (as.flatMap out).length ≤ bound) :
    as.foldlM step acc = .ok (acc ++ as.flatMap out) := by
  induction as generalizing acc with
  | nil => simp; rfl
  | cons a as ih =>
    rw [flatMap_cons, length_append] at hlength
    rw [foldlM_cons, h acc a mem_cons_self (by omega), flatMap_cons, ← append_assoc]
    exact ih (fun acc b hb => h acc b (mem_cons_of_mem _ hb)) (by rw [length_append]; omega)

/-- A batch of active namespaces is accepted when there is a place for each of its decisions. -/
theorem Lawful.ExpandPermissions_batch (h : Lawful validation allowlist)
    (hallowlist : allowlist ≠ [])
    (hgeneration : safeOpaque generation maxGenerationLength = true) {active batch : List String}
    (hlabels : ∀ namespaceName ∈ active, validation.IsDNS1123Label namespaceName = true)
    (hnodup : active.Nodup) (hbatch : batch.Sublist active) (hne : batch ≠ [])
    (hshort : batch.length ≤ maxQueryNamespaces) {refresh : Bool}
    (hlength : (decisionsFor allowlist generation batch).length ≤ maxExpandedDecisions) :
    ExpandPermissions validation allowlist
        { generation, activeNamespaces := active, namespaces := batch, refresh } =
      .ok (decisionsFor allowlist generation batch, false) := by
  have hactive : validateUniqueNamespaces validation active none = .ok () :=
    validateUnique_eq_ok_iff.mpr ⟨fun name hname => ⟨by simp [hlabels name hname], by simp⟩, hnodup⟩
  have hchosen : validateUniqueNamespaces validation batch (some active) = .ok () := by
    refine validateUnique_eq_ok_iff.mpr ⟨fun name hname => ⟨?_, by simp⟩, hnodup.sublist hbatch⟩
    have hmem := hbatch.subset hname
    simp [hlabels name hmem, hmem]
  have hfold : allowlist.foldlM (appendSpecification validation allowlist generation [] batch) [] =
      .ok ([] ++ decisionsFor allowlist generation batch) := by
    refine foldlM_appends (fun acc specification hmem hroom => ?_)
      ((Nat.zero_add _).trans_le hlength)
    rw [appendSpecification, if_neg (fun hnil => hne hnil.2), map_eq_flatMap]
    rw [map_eq_flatMap] at hroom
    refine foldlM_appends (fun acc target htarget hroom => ?_) hroom
    rw [appendDecision, if_neg (Nat.ne_of_lt hroom), h.key hmem hgeneration
      (fun name hname => hlabels name (hbatch.subset hname)) htarget]
    rfl
  rw [nil_append] at hfold
  have hdecisions : decisionsFor allowlist generation batch ≠ [] := by
    obtain ⟨first, rest, rfl⟩ := exists_cons_of_ne_nil hallowlist
    have htargets := length_pos_iff.mp (@targets_pos [] batch first (.inr hne))
    simp [decisionsFor, htargets]
  unfold ExpandPermissions
  rw [if_neg (by simp [hgeneration, hshort]), hactive, if_neg hne]
  dsimp only [bind, Except.bind]
  rw [hchosen]
  show (if ([] : List String) ≠ [] ∧ ∀ specification ∈ allowlist,
    specification.resourceNamePolicy ≠ .ResourceNameTarget then _ else _) = _
  rw [if_neg (fun hnames => hnames.1 rfl), hfold]
  show (if decisionsFor allowlist generation batch = [] then _ else _) = _
  rw [if_neg hdecisions, beq_eq_false_iff_ne.mpr hne, Bool.false_and]

end Kubepeep.Authorization
