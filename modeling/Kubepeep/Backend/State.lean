import Kubepeep.Backend.Resource
import Kubepeep.Resources.Drain

/-!
# The state of a cluster

The objects behind the LISTs: the rows of an origin are those of its namespace, so the rows of a
scope do not depend on whether it is read at once or namespace by namespace.  The scoped Pod scan
serves the rows of its namespaces like any other lister, as long as it stops in time.
-/

open Except List Kubepeep.Authorization Kubepeep.Effect Kubepeep.Resources Kubepeep.Watch

namespace Kubepeep.Backend

variable {σ O T : Type}

/-! ## The state of the cluster -/

structure ClusterState (T : Type) where
  objects : Origin → List T
  namespaceOf : T → String
  selects : String → String → T → Bool

def ClusterState.rows (state : ClusterState T) (origin : Origin) : List T :=
  if origin.namespaceName = "" then
    state.objects origin
  else
    (state.objects { origin with namespaceName := "" }).filter fun item =>
      state.namespaceOf item == origin.namespaceName

variable {names : List String}

theorem flatMap_filter_perm (hnodup : names.Nodup) (namespaceOf : T → String) (items : List T) :
    (names.flatMap fun name => items.filter fun item => namespaceOf item == name) ~
      items.filter fun item => names.contains (namespaceOf item) := by
  induction names with
  | nil => simp
  | cons name rest ih =>
    obtain ⟨hnot, hrest⟩ := nodup_cons.mp hnodup
    rw [flatMap_cons]
    have hboth := filter_append_perm (fun item => namespaceOf item == name)
      (items.filter fun item => (name :: rest).contains (namespaceOf item))
    refine Perm.trans ?_ hboth
    apply Perm.append
    · apply Perm.of_eq
      rw [filter_filter]
      congr 1
      funext item
      by_cases hname : namespaceOf item = name <;> simp [hname]
    · refine (ih hrest).trans (Perm.of_eq ?_)
      rw [filter_filter]
      apply filter_congr
      intro item _
      by_cases hname : namespaceOf item = name
      · simp [hname, hnot]
      · simp [hname]

/-! ## The scoped scan as a lister -/

section

variable {backend : ResourceBackend σ O T} {options : ListOptions} {origins : List Origin}
  (lister : NativeLister backend.cluster options origins) (allowed : List String) (origin : Origin)

/-- No raw page that ends beyond the scope is followed by a Pod in scope. -/
def ScanStopsInTime : Prop :=
  ∀ (request : PageRequest) s, request.origin = origin → 1 ≤ request.limit →
    request.labelSelector = options.labelSelector →
    request.fieldSelector = options.fieldSelector →
    lister.issued origin request.continueToken →
    let page := ((backend.cluster.listPage request).run s).1.1
    passes backend.pod allowed page.items = true → page.continueToken ≠ "" →
    ∀ item ∈ lister.rest origin page.continueToken, inScope backend.pod allowed item = false

structure ScanLeaves (token : String) (items : List T) (next : String) : Prop where
  rest : (lister.rest origin token).filter (inScope backend.pod allowed) =
    items ++ if next = "" then [] else
      (lister.rest origin next).filter (inScope backend.pod allowed)
  issued : next ≠ "" → lister.issued origin next
  rank : next ≠ "" → lister.rank origin next < lister.rank origin token
  token : next ≠ "" → next.utf8ByteSize ≤ MaximumCursorBytes

variable {lister allowed origin} {request : PageRequest}

theorem Scan.leaves (hmem : origin ∈ origins) (hstops : ScanStopsInTime lister allowed origin)
    (horigin : request.origin = origin) (hlimit : 1 ≤ request.limit)
    (hlabel : request.labelSelector = options.labelSelector)
    (hfield : request.fieldSelector = options.fieldSelector) {token next : String}
    {items : List T}
    (h : Scan backend.cluster.listPage backend.pod allowed request token items next) :
    lister.issued origin token → ScanLeaves lister allowed origin token items next := by
  subst horigin
  -- One raw page, as the lister answers it.
  have hanswer : ∀ {token : String} {fetched : OriginPage T},
      Answer backend.cluster.listPage request token fetched → lister.issued request.origin token →
      (if fetched.continueToken = "" then lister.rest request.origin token = fetched.items
      else lister.rest request.origin token =
          fetched.items ++ lister.rest request.origin fetched.continueToken ∧
        lister.issued request.origin fetched.continueToken ∧ fetched.continueToken ≠ token ∧
        fetched.continueToken.utf8ByteSize ≤ MaximumCursorBytes ∧
        lister.rank request.origin fetched.continueToken < lister.rank request.origin token) ∧
      (passes backend.pod allowed fetched.items = true → fetched.continueToken ≠ "" →
        ∀ item ∈ lister.rest request.origin fetched.continueToken,
          inScope backend.pod allowed item = false) := by
    intro token fetched ⟨limit, s, hlimits, hrun⟩ hissued
    have hpos : 1 ≤ limit := by
      rcases hlimits with rfl | rfl
      · exact hlimit
      · exact le_rfl
    have hserved := (lister.answers { request with continueToken := token, limit } s hmem hpos
      hlabel hfield hissued).2
    have hsafe := hstops { request with continueToken := token, limit } s rfl hpos hlabel hfield
      hissued
    rw [hrun] at hserved hsafe
    exact ⟨hserved, hsafe⟩
  induction h with
  | @last token fetched hread =>
    intro hissued
    obtain ⟨hserved, hsafe⟩ := hanswer hread hissued
    by_cases hend : fetched.continueToken = ""
    · rw [if_pos hend] at hserved
      simp only [hend, ite_self]
      exact ⟨by simp [hserved], by simp, by simp, by simp⟩
    rw [if_neg hend] at hserved
    by_cases hpasses : passes backend.pod allowed fetched.items = true
    · -- The scan stops here: what follows is out of scope.
      have hnone : (lister.rest request.origin fetched.continueToken).filter
          (inScope backend.pod allowed) = [] := by
        rw [filter_eq_nil_iff]
        intro item hitem
        rw [hsafe hpasses hend item hitem]
        exact Bool.false_ne_true
      simp only [hpasses, if_true]
      exact ⟨by simp [hserved.1, hnone], by simp, by simp, by simp⟩
    · simp only [hpasses, Bool.false_eq_true, if_false]
      refine ⟨?_, fun _ => hserved.2.1, fun _ => hserved.2.2.2.2, fun _ => hserved.2.2.2.1⟩
      rw [hserved.1, filter_append, if_neg hend]
  | @more token next fetched items hread hpasses hmore _ ih =>
    intro hissued
    obtain ⟨hserved, _⟩ := hanswer hread hissued
    rw [if_neg hmore] at hserved
    have hlater := ih hserved.2.1
    refine ⟨?_, hlater.issued, fun hnext => ?_, hlater.token⟩
    · rw [hserved.1, filter_append, hlater.rest, append_assoc]
    · exact (hlater.rank hnext).trans hserved.2.2.2.2

variable (lister) in
def scopedLister (hmem : origin ∈ origins) (hpods : ∀ item, (backend.pod item).isSome)
    (hcontext : Always backend.cluster.contextErr fun err => err = none)
    (hstops : ScanStopsInTime lister allowed origin) :
    NativeLister (inScopeCluster backend allowed) options [origin] where
  items o := (lister.items o).filter (inScope backend.pod allowed)
  rest o token := (lister.rest o token).filter (inScope backend.pod allowed)
  rank := lister.rank
  issued := lister.issued
  issued_start := lister.issued_start
  rest_start o := by rw [lister.rest_start]
  answers := by
    intro request s horigin hlimit hlabel hfield hissued
    rw [mem_singleton] at horigin
    have hreliable : Reliable backend.cluster.listPage backend.pod request
        (lister.issued request.origin) := by
      intro token limit s hissued hlimits
      have hpos : 1 ≤ limit := by
        rcases hlimits with rfl | rfl
        · exact hlimit
        · exact le_rfl
      obtain ⟨herr, hserved⟩ := lister.answers { request with continueToken := token, limit } s
        (horigin ▸ hmem) hpos hlabel hfield hissued
      refine ⟨_, Prod.ext rfl herr, fun item _ => hpods item, fun hmore => ?_⟩
      rw [if_neg hmore] at hserved
      exact hserved.2.1
    have hspec := listGlobalPodPageInScope_spec allowed hcontext hreliable hissued s
    obtain ⟨herr, _, _, hscan⟩ := hspec
    have hleaves : ScanLeaves lister allowed request.origin request.continueToken
        (((inScopeCluster backend allowed).listPage request).run s).1.1.items
        (((inScopeCluster backend allowed).listPage request).run s).1.1.continueToken :=
      hscan.leaves (horigin ▸ hmem) (horigin ▸ hstops) rfl hlimit hlabel hfield hissued
    refine ⟨herr, ?_⟩
    dsimp only
    split
    · next hend =>
      have hrest := hleaves.rest
      rw [if_pos hend, append_nil] at hrest
      exact hrest
    · next hmore =>
      have hrest := hleaves.rest
      rw [if_neg hmore] at hrest
      refine ⟨hrest, hleaves.issued hmore, fun hsame => ?_, hleaves.token hmore, hleaves.rank hmore⟩
      exact absurd (hsame ▸ hleaves.rank hmore) (lt_irrefl _)

end

/-! ## The rows of a scope -/

def basesFor (collection : String) (kinds : List String) : Except ReadError (List Origin) :=
  if collection = "workloads" then do
    let kinds ← canonicalKinds kinds
    return kinds.map fun kind => (workloadGVR.lookup kind).getD Origin.zero
  else
    match baseOrigin collection with
    | none => .error (validationError "collection is not supported")
    | some base => .ok [base]

variable {collection : String} {kinds : List String} {origins : List Origin}

theorem originsFor_ok_iff : originsFor collection names kinds = .ok origins ↔
      ∃ bases, basesFor collection kinds = .ok bases ∧
        origins = canonicalOrigins (bases.flatMap fun base => inNamespaces base names) := by
  unfold originsFor basesFor
  by_cases hworkloads : collection = "workloads"
  · rw [if_pos hworkloads, if_pos hworkloads]
    cases canonicalKinds kinds with
    | error err => simp [bind, Except.bind]
    | ok kinds =>
      simp [bind, Except.bind, pure, Except.pure, flatMap_map, eq_comm]
  · rw [if_neg hworkloads, if_neg hworkloads]
    cases baseOrigin collection with
    | none => simp
    | some base => simp [eq_comm]

theorem collectionGVR_namespace : ∀ entry ∈ collectionGVR, entry.2.namespaceName = "" := by
  decide

theorem workloadGVR_namespace : ∀ kind ∈ canonicalWorkloadKinds,
    ((workloadGVR.lookup kind).getD Origin.zero).namespaceName = "" := by
  decide

variable {base : Origin}

theorem baseOrigin_namespace (h : baseOrigin collection = some base) : base.namespaceName = "" := by
  unfold baseOrigin at h
  split at h
  · obtain rfl := Option.some.inj h
    rfl
  · obtain ⟨before, after, heq, _⟩ := lookup_eq_some_iff.mp h
    exact collectionGVR_namespace (collection, base) (by rw [heq]; simp)

theorem basesFor_complete {bases : List Origin}
    (h : basesFor collection kinds = .ok bases) : ∀ base ∈ bases,
      base.namespaceName = "" ∧ base.version ≠ "" ∧ base.resource ≠ "" := by
  unfold basesFor at h
  split at h
  · obtain ⟨canonical, hkinds, h⟩ := except_bind_eq_ok h
    obtain rfl := ok.inj h
    intro base hbase
    obtain ⟨kind, hkind, rfl⟩ := mem_map.mp hbase
    have hmem := (canonicalKinds_ok hkinds).2 kind hkind
    exact ⟨workloadGVR_namespace kind hmem, workloadGVR_complete kind hmem⟩
  · split at h
    · cases h
    · next base hbase =>
      obtain rfl := ok.inj h
      intro other hother
      obtain rfl := mem_singleton.mp hother
      exact ⟨baseOrigin_namespace hbase, baseOrigin_complete hbase⟩

theorem OriginsFor_ok (h : OriginsFor collection names kinds = .ok origins) :
    ∃ canonical, canonical.Nodup ∧ (∀ name ∈ canonical, name ≠ "") ∧ canonical ~ names ∧
      originsFor collection canonical kinds = .ok origins := by
  obtain ⟨canonical, hcanonical, horigins⟩ := except_bind_eq_ok h
  obtain ⟨hnodup, hne⟩ := canonicalNamespaces_ok hcanonical
  exact ⟨canonical, hnodup, hne, (canonicalNamespaces_perm hcanonical).2, horigins⟩

variable {origin : Origin}

theorem globalOrigin_listable (h : GlobalOriginsFor collection kinds = .ok [origin]) :
    origin.namespaceName = "" ∧ Listable [origin] := by
  obtain ⟨bases, hbases, heq⟩ := originsFor_ok_iff.mp h
  obtain ⟨base, hbase, hmem⟩ := mem_flatMap.mp
    ((canonicalOrigins_perm _).mem_iff.mp (heq ▸ mem_singleton_self origin))
  obtain rfl : origin = { base with namespaceName := "" } := by simpa [inNamespaces] using hmem
  obtain ⟨_, hversion, hresource⟩ := basesFor_complete hbases base hbase
  exact ⟨rfl, by simpa using hversion, by simpa using hresource, by simp, .inr rfl⟩

theorem withoutNamespace (h : origin.namespaceName = "") :
    { origin with namespaceName := "" } = origin := by
  rw [← h]

namespace ClusterState

variable (state : ClusterState T)

theorem rows_global (hbase : base.namespaceName = "") :
    state.rows base = state.objects base := by
  rw [rows, if_pos hbase]

variable {origins bases : List Origin} {collection : String}

theorem rows_globalOrigins {kinds : List String} (hbases : basesFor collection kinds = .ok bases)
    (h : GlobalOriginsFor collection kinds = .ok origins) :
    origins.flatMap state.rows ~ bases.flatMap state.objects := by
  obtain ⟨other, hother, rfl⟩ := originsFor_ok_iff.mp h
  obtain rfl : bases = other := ok.inj (hbases.symm.trans hother)
  have hcomplete := basesFor_complete hbases
  refine ((canonicalOrigins_perm _).flatMap_right _).trans (Perm.of_eq ?_)
  rw [flatMap_assoc]
  apply flatMap_congr
  intro base hbase
  have heq := withoutNamespace (hcomplete base hbase).1
  simp [inNamespaces, heq, state.rows_global (hcomplete base hbase).1]

theorem rows_namespaceOrigins {names kinds : List String}
    (hbases : basesFor collection kinds = .ok bases)
    (hnodup : names.Nodup) (hne : ∀ name ∈ names, name ≠ "")
    (h : originsFor collection names kinds = .ok origins) :
    origins.flatMap state.rows ~ bases.flatMap fun base =>
      (state.objects base).filter fun item => names.contains (state.namespaceOf item) := by
  obtain ⟨other, hother, rfl⟩ := originsFor_ok_iff.mp h
  obtain rfl : bases = other := ok.inj (hbases.symm.trans hother)
  have hcomplete := basesFor_complete hbases
  apply ((canonicalOrigins_perm _).flatMap_right _).trans
  rw [flatMap_assoc]
  apply Perm.flatMap_left
  intro base hbase
  have hrows : (inNamespaces base names).flatMap state.rows = names.flatMap fun name =>
      (state.objects base).filter fun item => state.namespaceOf item == name := by
    rw [inNamespaces, flatMap_map]
    apply flatMap_congr
    intro name hname
    rw [rows, if_neg (hne name hname), withoutNamespace (hcomplete base hbase).1]
  rw [hrows]
  exact flatMap_filter_perm hnodup state.namespaceOf (state.objects base)

end ClusterState

end Kubepeep.Backend
