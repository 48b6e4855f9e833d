import Kubepeep.Lib.Effect
import Kubepeep.Resources.Cursor

/-!
# The origins of a collection

`OriginsFor` (`internal/services/resources/service.go`) with `canonicalStrings` and
`ParseDynamicCollection`: one LIST source per namespace, and per kind for workloads.
-/

open Except List

namespace Kubepeep.Resources

/-! ## Canonical value lists -/

/-- The loop of `canonicalStrings`, with the values seen so far. -/
def checkStrings (order : Option (List String)) (field : String) :
    List String → List String → Except ReadError Unit
  | _, [] => .ok ()
  | seen, value :: rest =>
    -- A Go string may also be invalid UTF-8, which a `String` cannot be.
    if value = "" then
      .error (validationError (field ++ " must not be empty"))
    else if value ∈ seen then
      .error (validationError (field ++ " must not contain duplicates"))
    else if order.any fun order => !order.contains value then
      .error (validationError (field ++ " has an invalid value"))
    else
      checkStrings order field (value :: seen) rest

variable (values : List String)

def canonicalStrings (maximum : Nat) (order : Option (List String))
    (field : String) : Except ReadError (List String) :=
  if values.length > maximum then
    .error (validationError (field ++ " exceeds its cardinality limit"))
  else do
    checkStrings order field [] values
    match order with
    | none => return values.insertionSort (· ≤ ·)
    | some order => return order.filter values.contains

def canonicalWorkloadKinds : List String :=
  ["deployments", "statefulsets", "daemonsets", "jobs", "cronjobs", "replicasets"]

def canonicalKinds : Except ReadError (List String) :=
  if values.isEmpty then
    .ok canonicalWorkloadKinds
  else
    canonicalStrings values canonicalWorkloadKinds.length (some canonicalWorkloadKinds) "kind"

/-! ## Group, version and resource -/

def collectionGVR : List (String × Origin) :=
  [("pods", ⟨"", "", "v1", "pods"⟩), ("events", ⟨"", "", "v1", "events"⟩),
    ("services", ⟨"", "", "v1", "services"⟩),
    ("ingresses", ⟨"", "networking.k8s.io", "v1", "ingresses"⟩),
    ("endpoint-slices", ⟨"", "discovery.k8s.io", "v1", "endpointslices"⟩),
    ("configmaps", ⟨"", "", "v1", "configmaps"⟩), ("secrets", ⟨"", "", "v1", "secrets"⟩),
    ("leases", ⟨"", "coordination.k8s.io", "v1", "leases"⟩),
    ("persistent-volume-claims", ⟨"", "", "v1", "persistentvolumeclaims"⟩),
    ("roles", ⟨"", "rbac.authorization.k8s.io", "v1", "roles"⟩),
    ("role-bindings", ⟨"", "rbac.authorization.k8s.io", "v1", "rolebindings"⟩),
    ("network-policies", ⟨"", "networking.k8s.io", "v1", "networkpolicies"⟩),
    ("endpoints", ⟨"", "", "v1", "endpoints"⟩),
    ("service-accounts", ⟨"", "", "v1", "serviceaccounts"⟩),
    ("resource-quotas", ⟨"", "", "v1", "resourcequotas"⟩),
    ("limit-ranges", ⟨"", "", "v1", "limitranges"⟩),
    ("horizontalpodautoscalers", ⟨"", "autoscaling", "v2", "horizontalpodautoscalers"⟩),
    ("poddisruptionbudgets", ⟨"", "policy", "v1", "poddisruptionbudgets"⟩)]

def workloadGVR : List (String × Origin) :=
  [("deployments", ⟨"", "apps", "v1", "deployments"⟩),
    ("statefulsets", ⟨"", "apps", "v1", "statefulsets"⟩),
    ("daemonsets", ⟨"", "apps", "v1", "daemonsets"⟩), ("jobs", ⟨"", "batch", "v1", "jobs"⟩),
    ("cronjobs", ⟨"", "batch", "v1", "cronjobs"⟩),
    ("replicasets", ⟨"", "apps", "v1", "replicasets"⟩)]

structure DynamicResource where
  group : String
  version : String
  resource : String
  namespaced : Bool
  deriving DecidableEq, Repr

def isLower (c : Char) : Bool := 'a' ≤ c && c ≤ 'z'

def isDigit (c : Char) : Bool := '0' ≤ c && c ≤ '9'

/-- `^[a-z][a-z0-9-]{0,62}$` -/
def dynamicSegment (s : String) : Bool :=
  match s.toList with
  | [] => false
  | first :: rest =>
    isLower first && rest.length ≤ 62 && rest.all fun c => isLower c || isDigit c || c == '-'

/-- `^[a-z0-9](?:[a-z0-9.-]{0,251}[a-z0-9])?$` -/
def dynamicGroup (s : String) : Bool :=
  match s.toList with
  | [] => false
  | first :: rest =>
    (isLower first || isDigit first) && rest.length ≤ 252 &&
      (rest.all fun c => isLower c || isDigit c || c == '.' || c == '-') &&
      rest.getLast?.all fun c => isLower c || isDigit c

def DynamicResource.Valid (r : DynamicResource) : Bool :=
  (r.group == "" ||
    dynamicGroup r.group && !decide (['.', '.'] <:+: r.group.toList)) &&
    dynamicSegment r.version && dynamicSegment r.resource

variable (collection : String)

/-- `none` is `false` in the second result. -/
def ParseDynamicCollection : Option DynamicResource :=
  match (collection.toList.splitOn ':').map String.ofList with
  | ["dynamic", group, version, resource, scope] =>
    if scope ≠ "n" ∧ scope ≠ "c" then none
    else
      let group := if group = "_" then "" else group
      (some ⟨group, version, resource, scope == "n"⟩).filter DynamicResource.Valid
  | _ => none

/-! ## Origins -/

def inNamespaces (base : Origin) (namespaces : List String) : List Origin :=
  namespaces.map fun name => { base with namespaceName := name }

/-- The source of a collection other than workloads. -/
def baseOrigin : Option Origin :=
  match ParseDynamicCollection collection with
  | some ⟨group, version, resource, true⟩ => some ⟨"", group, version, resource⟩
  | _ => collectionGVR.lookup collection

def originsFor (namespaces kinds : List String) :
    Except ReadError (List Origin) :=
  if collection = "workloads" then do
    let kinds ← canonicalKinds kinds
    return canonicalOrigins (kinds.flatMap fun kind =>
      inNamespaces ((workloadGVR.lookup kind).getD Origin.zero) namespaces)
  else
    match baseOrigin collection with
    | none => .error (validationError "collection is not supported")
    | some base => .ok (canonicalOrigins (inNamespaces base namespaces))

def OriginsFor (namespaces kinds : List String) :
    Except ReadError (List Origin) := do
  let namespaces ← canonicalStrings namespaces MaximumNamespaces none "namespace"
  originsFor collection namespaces kinds

/-! ## Every origin of a collection is complete and has its own key -/

variable {field : String}

theorem checkStrings_ok {order : Option (List String)} :
    ∀ seen, checkStrings order field seen values = .ok () →
      values.Nodup ∧ ∀ value ∈ values, value ≠ "" ∧ value ∉ seen := by
  induction values with
  | nil => simp
  | cons value rest ih =>
    intro seen h
    unfold checkStrings at h
    split at h
    · cases h
    split at h
    · cases h
    split at h
    · cases h
    next hne hseen _ =>
    obtain ⟨hnodup, hrest⟩ := ih _ h
    rw [nodup_cons, forall_mem_cons]
    refine ⟨⟨fun hmem => (hrest value hmem).2 mem_cons_self, hnodup⟩, ⟨hne, hseen⟩, ?_⟩
    intro other hother
    exact ⟨(hrest other hother).1, fun hmem =>
      (hrest other hother).2 (mem_cons_of_mem _ hmem)⟩

theorem checkStrings_mem {order : List String} :
    ∀ seen, checkStrings (some order) field seen values = .ok () →
      ∀ value ∈ values, value ∈ order := by
  induction values with
  | nil => simp
  | cons value rest ih =>
    intro seen h
    unfold checkStrings at h
    split at h
    · cases h
    split at h
    · cases h
    split at h
    · cases h
    next hlisted =>
    rw [forall_mem_cons]
    refine ⟨?_, ih _ h⟩
    simpa using hlisted

structure Namespaced (origins : List Origin) : Prop where
  namespaceName : ∀ origin ∈ origins, origin.namespaceName ≠ ""
  version : ∀ origin ∈ origins, origin.version ≠ ""
  resource : ∀ origin ∈ origins, origin.resource ≠ ""
  nodup : (origins.map Origin.Key).Nodup

theorem Namespaced.perm {origins other : List Origin} (h : Namespaced origins)
    (hperm : other.Perm origins) : Namespaced other where
  namespaceName := fun origin hmem => h.namespaceName origin (hperm.mem_iff.mp hmem)
  version := fun origin hmem => h.version origin (hperm.mem_iff.mp hmem)
  resource := fun origin hmem => h.resource origin (hperm.mem_iff.mp hmem)
  nodup := (hperm.map _).nodup_iff.mpr h.nodup

/-- Origins that one collection can read: those of namespaces, or a single one for all of them. -/
structure Listable (origins : List Origin) : Prop where
  version : ∀ origin ∈ origins, origin.version ≠ ""
  resource : ∀ origin ∈ origins, origin.resource ≠ ""
  nodup : (origins.map Origin.Key).Nodup
  scope : (∀ origin ∈ origins, origin.namespaceName ≠ "") ∨ origins.length = 1

variable {origins : List Origin}

theorem Namespaced.listable (h : Namespaced origins) : Listable origins :=
  ⟨h.version, h.resource, h.nodup, .inl h.namespaceName⟩

def keyPrefix (base : Origin) : String :=
  base.apiGroup ++ "/" ++ base.version ++ "/" ++ base.resource ++ "/"

variable {namespaces : List String}

theorem inNamespaces_namespaced {base : Origin} (hversion : base.version ≠ "")
    (hresource : base.resource ≠ "") (hnodup : namespaces.Nodup)
    (hne : ∀ name ∈ namespaces, name ≠ "") : Namespaced (inNamespaces base namespaces) where
  namespaceName := by simpa [inNamespaces] using hne
  version := by simp [inNamespaces, hversion]
  resource := by simp [inNamespaces, hresource]
  nodup := by
    rw [inNamespaces, map_map]
    apply hnodup.map
    intro a b hab
    exact (String.append_right_inj (keyPrefix base)).mp hab

theorem workloadGVR_complete : ∀ kind ∈ canonicalWorkloadKinds,
    ((workloadGVR.lookup kind).getD Origin.zero).version ≠ "" ∧
    ((workloadGVR.lookup kind).getD Origin.zero).resource ≠ "" := by
  decide

/-- No kind's keys begin like another's, whatever the namespaces are called. -/
theorem workload_keyPrefix : ∀ kind ∈ canonicalWorkloadKinds, ∀ other ∈ canonicalWorkloadKinds,
    kind ≠ other → ¬ (keyPrefix ((workloadGVR.lookup kind).getD Origin.zero)).toList <+:
      (keyPrefix ((workloadGVR.lookup other).getD Origin.zero)).toList := by
  decide +kernel

variable {kinds : List String}

theorem workloads_namespaced (hkinds : kinds.Nodup)
    (hsubset : ∀ kind ∈ kinds, kind ∈ canonicalWorkloadKinds) (hnodup : namespaces.Nodup)
    (hne : ∀ name ∈ namespaces, name ≠ "") :
    Namespaced (kinds.flatMap fun kind =>
      inNamespaces ((workloadGVR.lookup kind).getD Origin.zero) namespaces) := by
  have hkind : ∀ kind ∈ kinds,
      Namespaced (inNamespaces ((workloadGVR.lookup kind).getD Origin.zero) namespaces) := by
    intro kind hmem
    obtain ⟨hversion, hresource⟩ := workloadGVR_complete kind (hsubset kind hmem)
    exact inNamespaces_namespaced hversion hresource hnodup hne
  refine ⟨?_, ?_, ?_, ?_⟩
  · intro origin horigin
    obtain ⟨kind, hmem, horigin⟩ := mem_flatMap.mp horigin
    exact (hkind kind hmem).namespaceName origin horigin
  · intro origin horigin
    obtain ⟨kind, hmem, horigin⟩ := mem_flatMap.mp horigin
    exact (hkind kind hmem).version origin horigin
  · intro origin horigin
    obtain ⟨kind, hmem, horigin⟩ := mem_flatMap.mp horigin
    exact (hkind kind hmem).resource origin horigin
  · rw [map_flatMap, nodup_flatMap]
    refine ⟨fun kind hmem => (hkind kind hmem).nodup, hkinds.imp_of_mem ?_⟩
    intro kind other hmem hother hdiff key hkey hkey'
    simp only [inNamespaces, map_map, mem_map] at hkey hkey'
    obtain ⟨name, _, rfl⟩ := hkey
    obtain ⟨name', _, heq⟩ := hkey'
    -- Equal keys would make one kind's beginning the beginning of the other's.
    have hlists : (keyPrefix ((workloadGVR.lookup other).getD Origin.zero)).toList ++ name'.toList =
        (keyPrefix ((workloadGVR.lookup kind).getD Origin.zero)).toList ++ name.toList := by
      rw [← String.toList_append, ← String.toList_append]
      exact congrArg String.toList heq
    cases prefix_or_prefix_of_prefix (prefix_append _ _)
        (hlists ▸ prefix_append _ _) with
    | inl h => exact workload_keyPrefix _ (hsubset _ hmem) _ (hsubset _ hother) hdiff h
    | inr h => exact workload_keyPrefix _ (hsubset _ hother) _ (hsubset _ hmem) hdiff.symm h

variable {canonical : List String}

section

variable (h : canonicalKinds kinds = .ok canonical)

include h

theorem canonicalKinds_ok :
    canonical.Nodup ∧ ∀ kind ∈ canonical, kind ∈ canonicalWorkloadKinds := by
  have hall : canonicalWorkloadKinds.Nodup := by decide
  unfold canonicalKinds at h
  split at h
  · obtain rfl := ok.inj h
    exact ⟨hall, fun _ h => h⟩
  · unfold canonicalStrings at h
    split at h
    · cases h
    · obtain ⟨_, _, h⟩ := except_bind_eq_ok h
      obtain rfl := ok.inj h
      exact ⟨hall.filter _, fun kind hmem => mem_of_mem_filter hmem⟩

theorem canonicalKinds_perm :
    canonical.Perm (if kinds.isEmpty then canonicalWorkloadKinds else kinds) := by
  have hall : canonicalWorkloadKinds.Nodup := by decide
  unfold canonicalKinds at h
  split at h
  · next hnone =>
    obtain rfl := ok.inj h
    rw [if_pos hnone]
  · next hsome =>
    rw [if_neg hsome]
    unfold canonicalStrings at h
    split at h
    · cases h
    · obtain ⟨_, hcheck, h⟩ := except_bind_eq_ok h
      obtain rfl := ok.inj h
      have hnodup := (checkStrings_ok kinds [] hcheck).1
      have hmem := checkStrings_mem kinds [] hcheck
      rw [perm_ext_iff_of_nodup (hall.filter _) hnodup]
      intro kind
      rw [mem_filter, contains_iff_mem]
      exact ⟨fun h => h.2, fun h => ⟨hmem kind h, h⟩⟩

theorem canonicalKinds_length :
    canonical ≠ [] ∧ (canonical.length = 1 ↔ kinds.length = 1) := by
  have hperm := canonicalKinds_perm h
  cases kinds with
  | nil =>
    rw [← length_pos_iff, hperm.length_eq]
    decide
  | cons kind rest =>
    rw [← length_pos_iff, hperm.length_eq]
    exact ⟨Nat.succ_pos _, Iff.rfl⟩

end

theorem canonicalNamespaces_perm {maximum : Nat}
    (h : canonicalStrings namespaces maximum none field = .ok canonical) :
    checkStrings none field [] namespaces = .ok () ∧ canonical.Perm namespaces := by
  unfold canonicalStrings at h
  split at h
  · cases h
  · obtain ⟨_, hcheck, h⟩ := except_bind_eq_ok h
    obtain rfl := ok.inj h
    exact ⟨hcheck, perm_insertionSort _ _⟩

theorem canonicalNamespaces_ok {maximum : Nat}
    (h : canonicalStrings namespaces maximum none field = .ok canonical) :
    canonical.Nodup ∧ ∀ name ∈ canonical, name ≠ "" := by
  obtain ⟨hcheck, hperm⟩ := canonicalNamespaces_perm h
  obtain ⟨hnodup, hne⟩ := checkStrings_ok namespaces [] hcheck
  exact ⟨hperm.nodup_iff.mpr hnodup, fun name hmem => (hne name (hperm.mem_iff.mp hmem)).1⟩

theorem dynamicSegment_ne_empty {s : String} (h : dynamicSegment s = true) : s ≠ "" := by
  rintro rfl
  exact absurd h (by decide)

theorem collectionGVR_complete : ∀ entry ∈ collectionGVR,
    entry.2.version ≠ "" ∧ entry.2.resource ≠ "" := by
  decide

variable {collection : String}

theorem ParseDynamicCollection_valid {r : DynamicResource}
    (h : ParseDynamicCollection collection = some r) : r.Valid = true := by
  unfold ParseDynamicCollection at h
  split at h
  · split at h
    · cases h
    · exact (Option.filter_eq_some_iff.mp h).2
  · cases h

theorem baseOrigin_complete {base : Origin}
    (h : baseOrigin collection = some base) : base.version ≠ "" ∧ base.resource ≠ "" := by
  unfold baseOrigin at h
  split at h
  · next group version resource hparse =>
    have hvalid := ParseDynamicCollection_valid hparse
    simp only [DynamicResource.Valid, Bool.and_eq_true] at hvalid
    obtain rfl := Option.some.inj h
    exact ⟨dynamicSegment_ne_empty hvalid.1.2, dynamicSegment_ne_empty hvalid.2⟩
  · obtain ⟨before, after, heq, _⟩ := lookup_eq_some_iff.mp h
    exact collectionGVR_complete (collection, base) (by rw [heq]; simp)

theorem OriginsFor_namespaced (h : OriginsFor collection namespaces kinds = .ok origins) :
    Namespaced origins := by
  obtain ⟨canonical, hnamespaces, h⟩ := except_bind_eq_ok h
  obtain ⟨hnodup, hne⟩ := canonicalNamespaces_ok hnamespaces
  unfold originsFor at h
  split at h
  · obtain ⟨canonicalKinds, hkinds, h⟩ := except_bind_eq_ok h
    obtain rfl := ok.inj h
    obtain ⟨hkinds, hsubset⟩ := canonicalKinds_ok hkinds
    exact (workloads_namespaced hkinds hsubset hnodup hne).perm (perm_insertionSort _ _)
  · split at h
    · cases h
    · next base hbase =>
      obtain rfl := ok.inj h
      obtain ⟨hversion, hresource⟩ := baseOrigin_complete hbase
      exact (inNamespaces_namespaced hversion hresource hnodup hne).perm
        (perm_insertionSort _ _)

end Kubepeep.Resources
