import Kubepeep.Authorization.Expand

/-!
# Permissions in batches

`web/src/permissions/batchedPermissions.ts`: the user interface asks for the permissions of two
active namespaces at a time and combines the answers.  A rejected promise is an error.
-/

open List

namespace Kubepeep.Web

open Kubepeep.Authorization

def namespacesPerBatch : Nat := 2

inductive NamespaceScopeMode where
  | single
  | list
  | all
  deriving DecidableEq, Repr

inductive NamespaceScopeSource where
  | saved
  | cli
  | none
  deriving DecidableEq, Repr

structure SelectionSummary where
  scopeId : Option Nat
  scopeMode : Option NamespaceScopeMode
  scopeSource : NamespaceScopeSource
  defaultNamespace : Option String
  generation : String
  deriving DecidableEq, Repr

structure NamespaceScope where
  mode : NamespaceScopeMode
  namespaces : List String
  deriving DecidableEq, Repr

structure Namespace where
  name : String
  selected : Bool
  deriving DecidableEq, Repr

/-- What the backend answers to one user interface: the requests of `api/client.ts`.  An answer to
`getPermissions` is by the number of the batch, since time passes between the batches. -/
structure Client where
  getNamespaceScope : Nat → Except PublicError NamespaceScope
  getNamespaces : Except PublicError (List Namespace)
  getPermissions : Nat → List String → Bool → Except PublicError CapabilityMatrix

def unique (values : List String) : List String :=
  (values.filter (· ≠ "")).eraseDups

variable (selection : SelectionSummary)

/-- `selection.defaultNamespace ? [selection.defaultNamespace] : []` -/
def defaultNamespaces : List String :=
  selection.defaultNamespace.toList.filter (· ≠ "")

def selectedNamespaces (client : Client) : Except PublicError (List String) := do
  let namespaces ← client.getNamespaces
  return unique ((namespaces.filter Namespace.selected).map Namespace.name)

def activeNamespaces (client : Client) (selection : SelectionSummary) :
    Except PublicError (List String) :=
  match selection.scopeSource, selection.scopeId with
  | .cli, _ => .ok (defaultNamespaces selection)
  | .saved, some scopeId => do
    let scope ← client.getNamespaceScope scopeId
    if scope.mode ≠ .all then .ok (unique scope.namespaces) else selectedNamespaces client
  | _, _ =>
    if selection.scopeMode ≠ some .all then .ok (defaultNamespaces selection)
    else selectedNamespaces client

def chunks : List String → List (List String)
  | [] => []
  | first :: rest =>
    (first :: rest.take (namespacesPerBatch - 1)) :: chunks (rest.drop (namespacesPerBatch - 1))
  termination_by values => values.length
  decreasing_by
    rw [length_drop, length_cons]
    omega

def capabilityKey (capability : MatrixCapability) : String :=
  capability.capabilityID ++ "\x00" ++ capability.namespaceName ++ "\x00" ++
    capability.resourceName

/-- `GENERATION_CHANGED` -/
def generationChanged : PublicError :=
  ⟨.CodeGenerationChanged, "The active selection changed while permissions were loading."⟩

def batchInconsistent : PartialError :=
  ⟨"", .CodeAuthorizationUnavailable, "A permission changed while the matrix was loading."⟩

/-- The maps of `combine`, in the order of insertion; the key of an entry is that of its value. -/
structure Combined where
  decisions : List MatrixCapability
  errors : List PartialError
  inconsistent : Bool
  deriving DecidableEq, Repr

/-- The body of the loop over the decisions. -/
def Combined.addDecision (combined : Combined) (decision : MatrixCapability) : Combined :=
  let key := capabilityKey decision
  match combined.decisions.find? fun existing => capabilityKey existing = key with
  | none => { combined with decisions := combined.decisions ++ [decision] }
  | some existing =>
    if existing.decision ≠ decision.decision ∨ existing.reasonCode ≠ decision.reasonCode then
      { combined with
        inconsistent := true
        decisions := combined.decisions.map fun entry =>
          if capabilityKey entry = key then
            { entry with decision := .DecisionUnknown, reasonCode := .BATCH_INCONSISTENT
                         expiresAt := none }
          else entry }
    else combined

/-- The parts of an error determine its key, since none of them holds a null character. -/
def Combined.addError (combined : Combined) (error : PartialError) : Combined :=
  if error ∈ combined.errors then combined
  else { combined with errors := combined.errors ++ [error] }

def Combined.addMatrix (combined : Combined)
    (matrix : CapabilityMatrix) : Except PublicError Combined :=
  if matrix.generation ≠ selection.generation then .error generationChanged
  else .ok (matrix.errors.foldl addError (matrix.decisions.foldl addDecision combined))

def combine (matrices : List CapabilityMatrix) :
    Except PublicError CapabilityMatrix := do
  let combined ← matrices.foldlM (Combined.addMatrix selection) ⟨[], [], false⟩
  let combined := if combined.inconsistent then combined.addError batchInconsistent else combined
  return {
    generation := selection.generation
    decisions := combined.decisions
    complete := matrices.all CapabilityMatrix.complete && combined.errors == []
    truncated := matrices.any CapabilityMatrix.truncated
    errors := combined.errors }

/-- The four workers take the batches one by one and leave each answer at the index of its batch,
so only the answers count, not who asked for them. -/
def getBatchedPermissions (client : Client) (selection : SelectionSummary) (refresh : Bool) :
    Except PublicError CapabilityMatrix := do
  let namespaces ← activeNamespaces client selection
  let batches := chunks namespaces
  if batches = [] then
    .ok { generation := selection.generation, decisions := [], complete := true
          truncated := false, errors := [] }
  else do
    let matrices ← batches.zipIdx.mapM fun batch => client.getPermissions batch.2 batch.1 refresh
    combine selection matrices

/-! ## Batches -/

theorem chunks_cons (first : String) (rest : List String) : chunks (first :: rest) =
    (first :: rest.take 1) :: chunks (rest.drop 1) := by
  rw [chunks]
  rfl

variable {values : List String}

theorem chunks_ne_nil (h : values ≠ []) : chunks values ≠ [] := by
  obtain ⟨first, rest, rfl⟩ := exists_cons_of_ne_nil h
  rw [chunks_cons]
  exact cons_ne_nil _ _

theorem chunks_flatten (values : List String) : (chunks values).flatten = values := by
  fun_induction chunks values with
  | case1 => rfl
  | case2 first rest ih => rw [flatten_cons, ih, cons_append, take_append_drop]

theorem chunks_short :
    ∀ batch ∈ chunks values, batch ≠ [] ∧ batch.length ≤ namespacesPerBatch := by
  fun_induction chunks values with
  | case1 => simp
  | case2 first rest ih =>
    refine forall_mem_cons.mpr ⟨⟨cons_ne_nil _ _, ?_⟩, ih⟩
    rw [length_cons, length_take, namespacesPerBatch]
    omega

/-! ## The combined matrix -/

variable (decision : MatrixCapability)

def identity : String × String × String :=
  (decision.capabilityID, decision.namespaceName, decision.resourceName)

def identityKey (key : String × String × String) : String :=
  key.1 ++ "\x00" ++ key.2.1 ++ "\x00" ++ key.2.2

theorem map_capabilityKey (decisions : List MatrixCapability) :
    decisions.map capabilityKey = (decisions.map identity).map identityKey := by
  rw [map_map]
  rfl

def mark (key : String) (entry : MatrixCapability) : MatrixCapability :=
  if capabilityKey entry = key then
    { entry with decision := .DecisionUnknown, reasonCode := .BATCH_INCONSISTENT
                 expiresAt := none }
  else entry

theorem map_identity_mark (key : String) (decisions : List MatrixCapability) :
    (decisions.map (mark key)).map identity = decisions.map identity := by
  rw [map_map]
  refine map_congr_left fun entry _ => ?_
  unfold Function.comp mark
  split <;> rfl

/-- What is left of a decision: itself, or the mark of a disagreement. -/
def Kept (inconsistent : Prop) (entry decision : MatrixCapability) : Prop :=
  entry.decision = decision.decision ∧ entry.reasonCode = decision.reasonCode ∨
    entry.decision = .DecisionUnknown ∧ entry.reasonCode = .BATCH_INCONSISTENT ∧ inconsistent

theorem Combined.addDecision_cases (combined : Combined) :
    (capabilityKey decision ∉ combined.decisions.map capabilityKey ∧
      combined.addDecision decision =
        { combined with decisions := combined.decisions ++ [decision] }) ∨
    ∃ existing ∈ combined.decisions, capabilityKey existing = capabilityKey decision ∧
      ((existing.decision = decision.decision ∧ existing.reasonCode = decision.reasonCode) ∧
          combined.addDecision decision = combined ∨
        combined.addDecision decision =
          { combined with
            inconsistent := true
            decisions := combined.decisions.map (mark (capabilityKey decision)) }) := by
  unfold addDecision
  cases hfind : combined.decisions.find? fun existing =>
    capabilityKey existing = capabilityKey decision with
  | none =>
    left
    refine ⟨fun hmem => ?_, by simp only [hfind]⟩
    obtain ⟨entry, hentry, hkey⟩ := mem_map.mp hmem
    simpa [hkey] using find?_eq_none.mp hfind entry hentry
  | some existing =>
    right
    have hkey := find?_some hfind
    refine ⟨existing, mem_of_find?_eq_some hfind, of_decide_eq_true hkey, ?_⟩
    simp only [hfind]
    split
    · exact .inr rfl
    next hagree => exact .inl ⟨by simpa [not_or] using hagree, rfl⟩

structure Collected (combined : Combined) (added : List MatrixCapability) : Prop where
  nodup : (combined.decisions.map capabilityKey).Nodup
  origin : combined.decisions.map identity ⊆ added.map identity
  kept : ∀ decision ∈ added, ∃ entry ∈ combined.decisions,
    capabilityKey entry = capabilityKey decision ∧
      Kept (combined.inconsistent = true) entry decision

variable {added : List MatrixCapability} {combined : Combined}

theorem Collected.addDecision (h : Collected combined added) (decision : MatrixCapability) :
    Collected (combined.addDecision decision) (added ++ [decision]) := by
  rcases combined.addDecision_cases decision with
    ⟨hfresh, heq⟩ | ⟨existing, hmem, hkey, ⟨hagree, heq⟩ | heq⟩
  · rw [heq]
    refine ⟨?_, ?_, ?_⟩
    · rw [map_append]
      exact h.nodup.append (nodup_singleton _) (by simpa using hfresh)
    · rw [map_append, map_append]
      exact append_subset.mpr ⟨fun _ hid => mem_append_left _ (h.origin hid),
        subset_append_right _ _⟩
    · refine forall_mem_append.mpr ⟨fun other hother => ?_, forall_mem_singleton.mpr ?_⟩
      · obtain ⟨entry, hentry, hkept⟩ := h.kept other hother
        exact ⟨entry, mem_append_left _ hentry, hkept⟩
      · exact ⟨decision, mem_append_right _ mem_cons_self, rfl, .inl ⟨rfl, rfl⟩⟩
  · rw [heq]
    refine ⟨h.nodup, ?_, ?_⟩
    · rw [map_append]
      exact fun _ hid => mem_append_left _ (h.origin hid)
    · exact forall_mem_append.mpr ⟨h.kept, forall_mem_singleton.mpr
        ⟨existing, hmem, hkey, .inl hagree⟩⟩
  · rw [heq]
    refine ⟨?_, ?_, ?_⟩
    · rw [map_capabilityKey, map_identity_mark, ← map_capabilityKey]
      exact h.nodup
    · rw [map_identity_mark, map_append]
      exact fun _ hid => mem_append_left _ (h.origin hid)
    · -- an entry that is marked now stands for every decision of its key
      have hmarked : ∀ {entry other : MatrixCapability}, entry ∈ combined.decisions →
          capabilityKey entry = capabilityKey other →
          (capabilityKey entry = capabilityKey decision ∨
            Kept (combined.inconsistent = true) entry other) →
          ∃ entry ∈ combined.decisions.map (mark (capabilityKey decision)),
            capabilityKey entry = capabilityKey other ∧ Kept (true = true) entry other := by
        intro entry other hentry hsame hkept
        refine ⟨_, mem_map_of_mem hentry, ?_⟩
        unfold mark
        split
        · exact ⟨hsame, .inr ⟨rfl, rfl, rfl⟩⟩
        next hne =>
          exact ⟨hsame, (hkept.resolve_left hne).imp_right fun h => ⟨h.1, h.2.1, rfl⟩⟩
      refine forall_mem_append.mpr ⟨fun other hother => ?_, forall_mem_singleton.mpr ?_⟩
      · obtain ⟨entry, hentry, hsame, hkept⟩ := h.kept other hother
        exact hmarked hentry hsame (.inr hkept)
      · exact hmarked hmem hkey (.inl hkey)

theorem Collected.addDecisions (h : Collected combined added) (decisions : List MatrixCapability) :
    Collected (decisions.foldl Combined.addDecision combined) (added ++ decisions) := by
  induction decisions generalizing combined added with
  | nil => simpa using h
  | cons decision rest ih => simpa using ih (h.addDecision decision)

theorem Collected.addErrors (h : Collected combined added) (errors : List PartialError) :
    Collected (errors.foldl Combined.addError combined) added := by
  induction errors generalizing combined with
  | nil => exact h
  | cons error rest ih =>
    apply ih
    unfold Combined.addError
    split
    · exact h
    · exact ⟨h.nodup, h.origin, h.kept⟩

theorem Combined.addError_decisions (combined : Combined) (error : PartialError) :
    (combined.addError error).decisions = combined.decisions := by
  unfold addError
  split <;> rfl

theorem Combined.mem_addError (combined : Combined) (error : PartialError) :
    error ∈ (combined.addError error).errors := by
  unfold addError
  split
  · assumption
  · simp

theorem combine_cases (selection : SelectionSummary) (matrices : List CapabilityMatrix) :
    (∃ matrix ∈ matrices, matrix.generation ≠ selection.generation) ∧
      combine selection matrices = .error generationChanged ∨
    (∀ matrix ∈ matrices, matrix.generation = selection.generation) ∧
      ∃ matrix combined, combine selection matrices = .ok matrix ∧
        Collected combined (matrices.flatMap CapabilityMatrix.decisions) ∧
        matrix.decisions = combined.decisions ∧
        (combined.inconsistent = true → matrix.complete = false) := by
  have hfold : ∀ combined added, Collected combined added →
      (∃ matrix ∈ matrices, matrix.generation ≠ selection.generation) ∧
        matrices.foldlM (Combined.addMatrix selection) combined = .error generationChanged ∨
      (∀ matrix ∈ matrices, matrix.generation = selection.generation) ∧
        ∃ next, matrices.foldlM (Combined.addMatrix selection) combined = .ok next ∧
          Collected next (added ++ matrices.flatMap CapabilityMatrix.decisions) := by
    induction matrices with
    | nil => exact fun combined added h => .inr ⟨by simp, combined, rfl, by simpa using h⟩
    | cons matrix rest ih =>
      intro combined added h
      rw [foldlM_cons, exists_mem_cons_iff, forall_mem_cons, flatMap_cons, ← append_assoc]
      unfold Combined.addMatrix
      by_cases hgeneration : matrix.generation = selection.generation
      · rw [if_neg (not_not.mpr hgeneration)]
        rcases ih _ _ ((h.addDecisions matrix.decisions).addErrors matrix.errors) with
          ⟨hother, herror⟩ | ⟨hall, hnext⟩
        · exact .inl ⟨.inr hother, herror⟩
        · exact .inr ⟨⟨hgeneration, hall⟩, hnext⟩
      · rw [if_pos hgeneration]
        exact .inl ⟨.inl hgeneration, rfl⟩
  unfold combine
  rcases hfold ⟨[], [], false⟩ [] ⟨nodup_nil, nil_subset _, by simp⟩ with
    ⟨hother, herror⟩ | ⟨hall, combined, hcombined, hcollected⟩
  · rw [herror]
    exact .inl ⟨hother, rfl⟩
  · rw [hcombined]
    refine .inr ⟨hall, _, combined, rfl, hcollected, ?_, fun hinconsistent => ?_⟩
    · split
      · exact Combined.addError_decisions ..
      · rfl
    · simp [hinconsistent, ne_nil_of_mem (combined.mem_addError batchInconsistent)]

/-- The answers of one generation are combined into distinct entries.  A decision of any of them
stays as it is, or its entry is unknown and the matrix is not complete. -/
theorem combine_honest (selection : SelectionSummary) (matrices : List CapabilityMatrix) :
    (∃ matrix ∈ matrices, matrix.generation ≠ selection.generation) ∧
      combine selection matrices = .error generationChanged ∨
    ∃ combined, combine selection matrices = .ok combined ∧
      (combined.decisions.map capabilityKey).Nodup ∧
      combined.decisions.map identity ⊆
        (matrices.flatMap CapabilityMatrix.decisions).map identity ∧
      ∀ matrix ∈ matrices, matrix.generation = selection.generation ∧
        ∀ decision ∈ matrix.decisions, ∃ entry ∈ combined.decisions,
          capabilityKey entry = capabilityKey decision ∧
            Kept (combined.complete = false) entry decision := by
  refine (combine_cases selection matrices).imp_right ?_
  rintro ⟨hall, matrix, combined, hmatrix, h, hdecisions, hcomplete⟩
  refine ⟨matrix, hmatrix, ?_⟩
  rw [hdecisions]
  refine ⟨h.nodup, h.origin, fun answer hanswer => ⟨hall answer hanswer, ?_⟩⟩
  intro decision hdecision
  obtain ⟨entry, hentry, hkey, hkept⟩ := h.kept decision (mem_flatMap_of_mem hanswer hdecision)
  exact ⟨entry, hentry, hkey, hkept.imp_right fun h => ⟨h.1, h.2.1, hcomplete h.2.2⟩⟩

theorem append_cons_inj {c : Char} {front back xs ys : List Char} (hx : c ∉ xs) (hy : c ∉ ys)
    (h : front ++ c :: xs = back ++ c :: ys) : front = back ∧ xs = ys := by
  rcases append_eq_append_iff.mp h with ⟨later, rfl, hrest⟩ | ⟨later, rfl, hrest⟩ <;>
    cases later <;> simp_all

/-- The names behind the ID hold no null character. -/
theorem identityKey_inj {key other : String × String × String}
    (hkey : '\x00' ∉ key.2.1.toList ∧ '\x00' ∉ key.2.2.toList)
    (hother : '\x00' ∉ other.2.1.toList ∧ '\x00' ∉ other.2.2.toList)
    (h : identityKey key = identityKey other) : key = other := by
  have hlist : (key.1.toList ++ '\x00' :: key.2.1.toList) ++ '\x00' :: key.2.2.toList =
      (other.1.toList ++ '\x00' :: other.2.1.toList) ++ '\x00' :: other.2.2.toList := by
    simpa [identityKey, String.toList_append] using congrArg String.toList h
  obtain ⟨hfront, hresource⟩ := append_cons_inj hkey.2 hother.2 hlist
  obtain ⟨hid, hname⟩ := append_cons_inj hkey.1 hother.1 hfront
  exact Prod.ext (String.toList_injective hid)
    (Prod.ext (String.toList_injective hname) (String.toList_injective hresource))

variable {validation : Validation}

theorem null_not_mem_of_label {namespaceName : String}
    (h : validation.IsDNS1123Label namespaceName = true) : '\x00' ∉ namespaceName.toList :=
  fun hmem => absurd ((validation.label_chars h).2 _ hmem) (by decide)

variable {allowlist : List CapabilitySpec}

/-- The identities of an allowlist: a capability with one of its targets. -/
def Rows (allowlist : List CapabilitySpec) (namespaces : List String)
    (key : String × String × String) : Prop :=
  ∃ specification ∈ allowlist, ∃ target ∈ targets [] namespaces specification,
    (specification.ID, target) = key

/-- One decision for every capability of a namespace in each namespace, one for every capability of
the cluster, and no other. -/
structure Covers (allowlist : List CapabilitySpec) (namespaces : List String)
    (matrix : CapabilityMatrix) : Prop where
  distinct : (matrix.decisions.map identity).Nodup
  exact : ∀ key, key ∈ matrix.decisions.map identity ↔ Rows allowlist namespaces key

theorem Collected.covers {namespaces : List String} {matrix : CapabilityMatrix}
    (h : Collected combined added) (hmatrix : matrix.decisions = combined.decisions)
    (hrows : ∀ key, key ∈ added.map identity ↔ Rows allowlist namespaces key)
    (hlabels : ∀ namespaceName ∈ namespaces, validation.IsDNS1123Label namespaceName = true) :
    Covers allowlist namespaces matrix := by
  have hnull : ∀ {key}, Rows allowlist namespaces key →
      '\x00' ∉ key.2.1.toList ∧ '\x00' ∉ key.2.2.toList := by
    rintro _ ⟨specification, _, target, htarget, rfl⟩
    rw [targets_nil_names] at htarget
    split at htarget
    · simp [mem_singleton.mp htarget]
    · obtain ⟨namespaceName, hname, rfl⟩ := mem_map.mp htarget
      exact ⟨null_not_mem_of_label (hlabels _ hname), by simp⟩
  constructor
  · have hnodup := h.nodup
    rw [map_capabilityKey, ← hmatrix] at hnodup
    exact hnodup.of_map
  · intro key
    rw [hmatrix]
    refine ⟨fun hkey => (hrows key).mp (h.origin hkey), fun hkey => ?_⟩
    obtain ⟨decision, hdecision, rfl⟩ := mem_map.mp ((hrows key).mpr hkey)
    obtain ⟨entry, hentry, hsame, -⟩ := h.kept decision hdecision
    have hrow := (hrows _).mp (h.origin (mem_map_of_mem hentry))
    exact identityKey_inj (hnull hrow) (hnull hkey) hsame ▸ mem_map_of_mem hentry

/-! ## Requests against an allowlist -/

def batchRequest (generation : String) (active batch : List String) (refresh : Bool) :
    PermissionsRequest :=
  { generation, activeNamespaces := active, namespaces := batch, refresh }

/-- The backend has the generation and the active namespaces of the selection while it answers. -/
def Served (validation : Validation) (allowlist : List CapabilitySpec)
    (check : Nat → ExpandedCapability → Capability × Nat) (client : Client) (generation : String)
    (active : List String) : Prop :=
  ∀ index batch refresh, client.getPermissions index batch refresh =
    Matrix validation allowlist (check index) (batchRequest generation active batch refresh)

variable {batches : List (List String × Nat)} {generation : String}

theorem exists_answers {ask : List String × Nat → Except PublicError CapabilityMatrix}
    {rows : List String × Nat → List MatrixCapability}
    (h : ∀ batch ∈ batches, ∃ matrix, ask batch = .ok matrix ∧
      matrix.generation = generation ∧ matrix.decisions = rows batch) :
    ∃ matrices, batches.mapM ask = .ok matrices ∧
      (∀ matrix ∈ matrices, matrix.generation = generation) ∧
      matrices.flatMap CapabilityMatrix.decisions = batches.flatMap rows := by
  induction batches with
  | nil => exact ⟨[], rfl, by simp, rfl⟩
  | cons batch rest ih =>
    obtain ⟨matrix, hmatrix, hgeneration, hrows⟩ := h batch mem_cons_self
    obtain ⟨matrices, hmatrices, hall, hflat⟩ :=
      ih fun other hother => h other (mem_cons_of_mem _ hother)
    refine ⟨matrix :: matrices, ?_, forall_mem_cons.mpr ⟨hgeneration, hall⟩, ?_⟩
    · rw [mapM_cons, hmatrix, hmatrices]
      rfl
    · rw [flatMap_cons, flatMap_cons, hrows, hflat]

theorem rows_decisionsFor (hne : batches ≠ []) (check : Nat → ExpandedCapability → Capability × Nat)
    (key : String × String × String) :
    key ∈ (batches.flatMap fun batch => (decisionsFor allowlist generation batch.1).map
      (matrixRow (check batch.2))).map identity ↔
        Rows allowlist (batches.flatMap Prod.fst) key := by
  have htargets : ∀ {specification target},
      target ∈ targets [] (batches.flatMap Prod.fst) specification ↔
        ∃ batch ∈ batches, target ∈ targets [] batch.1 specification := by
    intro specification target
    simp only [targets_nil_names]
    split
    · obtain ⟨batch, rest, rfl⟩ := exists_cons_of_ne_nil hne
      simp
    · simp only [mem_map, mem_flatMap]
      tauto
  simp only [Rows, decisionsFor, mem_map, mem_flatMap, htargets]
  constructor
  · rintro ⟨_, ⟨batch, hbatch, _, ⟨specification, hmem, target, htarget, rfl⟩, rfl⟩, rfl⟩
    exact ⟨specification, hmem, target, ⟨batch, hbatch, htarget⟩, rfl⟩
  · rintro ⟨specification, hmem, target, ⟨batch, hbatch, htarget⟩, rfl⟩
    exact ⟨_, ⟨batch, hbatch, _, ⟨specification, hmem, target, htarget, rfl⟩, rfl⟩, rfl⟩

section

variable {allowlist : List CapabilitySpec} {check : Nat → ExpandedCapability → Capability × Nat}
  {client : Client} {selection : SelectionSummary} {namespaces : List String} {refresh : Bool}

section

variable (hlawful : Lawful validation allowlist) (hallowlist : allowlist ≠ [])
  (hgeneration : safeOpaque selection.generation maxGenerationLength = true)
  (hlabels : ∀ namespaceName ∈ namespaces, validation.IsDNS1123Label namespaceName = true)
  (hnodup : namespaces.Nodup)

include hlawful hallowlist hgeneration hlabels hnodup

theorem Matrix_batch {batch : List String} (hbatch : batch ∈ chunks namespaces)
    (hlength : (decisionsFor allowlist selection.generation batch).length ≤ maxExpandedDecisions)
    {review : ExpandedCapability → Capability × Nat}
    (hknown : ∃ item ∈ decisionsFor allowlist selection.generation batch,
      (review item).1.decision ≠ .DecisionUnknown) :
    ∃ matrix, Matrix validation allowlist review
        (batchRequest selection.generation namespaces batch refresh) = .ok matrix ∧
      matrix.generation = selection.generation ∧ matrix.decisions =
        (decisionsFor allowlist selection.generation batch).map (matrixRow review) := by
  obtain ⟨hne, hshort⟩ := chunks_short batch hbatch
  have hsublist : batch.Sublist namespaces := by
    have h := sublist_flatten_of_mem hbatch
    rwa [chunks_flatten] at h
  have hexpand : ExpandPermissions validation allowlist
      (batchRequest selection.generation namespaces batch refresh) =
        .ok (decisionsFor allowlist selection.generation batch, false) :=
    hlawful.ExpandPermissions_batch hallowlist hgeneration hlabels hnodup hsublist hne
      (Nat.le_trans hshort (by decide)) hlength
  unfold Authorization.Matrix
  rw [hexpand]
  -- some review is conclusive, so not every item has an error
  have herrors : ¬ ((decisionsFor allowlist selection.generation batch).filterMap
      (matrixError review)).length =
        (decisionsFor allowlist selection.generation batch).length := by
    obtain ⟨item, hitem, hdecision⟩ := hknown
    intro hall
    have hsome := filterMap_length_eq_length.mp hall item hitem
    rw [matrixError, if_neg hdecision] at hsome
    cases hsome
  exact ⟨_, if_neg herrors, rfl, rfl⟩

end

theorem length_capabilityAllowlist : capabilityAllowlist.length = 156 := by
  decide +kernel

/-- The allowlist of the service has more entries than a request may have decisions, so no batch
is accepted. -/
theorem getBatchedPermissions_refused
    (hserved : Served validation capabilityAllowlist check client selection.generation namespaces)
    (hactive : activeNamespaces client selection = .ok namespaces) (hne : namespaces ≠ []) :
    (∀ batch ∈ chunks namespaces, ∀ accepted, ExpandPermissions validation capabilityAllowlist
      (batchRequest selection.generation namespaces batch refresh) ≠ .ok accepted) ∧
    ∀ matrix, getBatchedPermissions client selection refresh ≠ .ok matrix := by
  have hrefused : ∀ batch accepted, ExpandPermissions validation capabilityAllowlist
      (batchRequest selection.generation namespaces batch refresh) ≠ .ok accepted := by
    intro batch accepted haccepted
    have hlength := ExpandPermissions_length rfl haccepted
    rw [length_capabilityAllowlist] at hlength
    exact absurd hlength (by decide)
  refine ⟨fun batch _ => hrefused batch, fun matrix hmatrix => ?_⟩
  unfold getBatchedPermissions at hmatrix
  rw [hactive] at hmatrix
  change (if chunks namespaces = [] then _ else _) = _ at hmatrix
  obtain ⟨batch, rest, hbatches⟩ := List.exists_cons_of_ne_nil (chunks_ne_nil hne)
  rw [if_neg (chunks_ne_nil hne), hbatches, List.zipIdx_cons, List.mapM_cons] at hmatrix
  -- the first answer is already an error
  obtain ⟨matrices, hmatrices, -⟩ := except_bind_eq_ok hmatrix
  obtain ⟨first, hfirst, -⟩ := except_bind_eq_ok hmatrices
  rw [hserved] at hfirst
  obtain ⟨accepted, haccepted, -⟩ := except_bind_eq_ok hfirst
  exact hrefused batch accepted haccepted

end

/-! ## Selections -/

def defaultSelection : SelectionSummary :=
  { scopeId := none, scopeMode := none, scopeSource := .cli, defaultNamespace := some "default"
    generation := "g1" }

def allowedClient : Client where
  getNamespaceScope _ := .error validationError
  getNamespaces := .ok [⟨"default", true⟩]
  getPermissions _ batch refresh :=
    Matrix documentedValidation capabilityAllowlist
      (fun _ => (⟨.DecisionAllowed, some .ReasonSARAllowed⟩, 45))
      (batchRequest "g1" ["default"] batch refresh)

theorem allowedClient_served :
    Served documentedValidation capabilityAllowlist
      (fun _ _ => (⟨.DecisionAllowed, some .ReasonSARAllowed⟩, 45)) allowedClient
      defaultSelection.generation ["default"] :=
  fun _ _ _ => rfl

theorem activeNamespaces_default :
    activeNamespaces allowedClient defaultSelection = .ok ["default"] :=
  rfl

/-- A saved scope of three namespaces. -/
def savedSelection : SelectionSummary :=
  { scopeId := some 1, scopeMode := some .list, scopeSource := .saved, defaultNamespace := none
    generation := "g1" }

def podsAllowlist : List CapabilitySpec := baseCapabilityAllowlist.take 2

/-- The capability of the cluster is allowed when the first batch is reviewed, and denied after. -/
def savedReview (index : Nat) (item : ExpandedCapability) : Capability × Nat :=
  if item.key.namespaceName = "" ∧ index ≠ 0 then
    (⟨.DecisionDenied, some .ReasonSARDenied⟩, 45)
  else (⟨.DecisionAllowed, some .ReasonSARAllowed⟩, 45)

theorem savedReview_known (index : Nat) (item : ExpandedCapability) :
    (savedReview index item).1.decision ≠ .DecisionUnknown := by
  unfold savedReview
  split <;> decide

def savedClient : Client where
  getNamespaceScope _ := .ok ⟨.list, ["bank", "shop", "web"]⟩
  getNamespaces := .ok []
  getPermissions index batch refresh :=
    Matrix documentedValidation podsAllowlist (savedReview index)
      (batchRequest "g1" ["bank", "shop", "web"] batch refresh)

theorem savedClient_served :
    Served documentedValidation podsAllowlist savedReview savedClient savedSelection.generation
      ["bank", "shop", "web"] :=
  fun _ _ _ => rfl

theorem getBatchedPermissions_default :
    activeNamespaces allowedClient defaultSelection = .ok ["default"] ∧
      ∀ matrix, getBatchedPermissions allowedClient defaultSelection false ≠ .ok matrix :=
  ⟨activeNamespaces_default, (getBatchedPermissions_refused allowedClient_served
    activeNamespaces_default (List.cons_ne_nil _ _)).2⟩

/-- The only batch of the valid namespace is refused. -/
theorem default_batch_refused :
    activeNamespaces allowedClient defaultSelection = .ok ["default"] ∧
      documentedValidation.IsDNS1123Label "default" = true ∧ chunks ["default"] = [["default"]] ∧
      ∀ accepted, ExpandPermissions documentedValidation capabilityAllowlist
        (batchRequest defaultSelection.generation ["default"] ["default"] false) ≠
          .ok accepted := by
  refine ⟨activeNamespaces_default, by decide +kernel, by simp [chunks], ?_⟩
  intro accepted haccepted
  exact absurd (ExpandPermissions_length rfl haccepted)
    (by rw [length_capabilityAllowlist]; decide)

end Kubepeep.Web
