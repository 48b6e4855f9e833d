import Mathlib
import Kubepeep.Backend.State

/-!
# One LIST for all namespaces against one LIST per namespace

`collectResource` reads a scope through `GlobalOriginsFor` when a cluster-wide LIST is granted and
through `OriginsFor` otherwise.  A collection with a single source gives the same rows either way.
`GlobalNative` serves one origin only, so several workload kinds are refused once the scope is read
cluster-wide, although their namespaces can be read one by one.
-/

open List Kubepeep.Authorization Kubepeep.Effect Kubepeep.Resources

namespace Kubepeep.Backend

variable {σ T : Type} {cluster : Cluster σ T} {state : ClusterState T}
  {request wide fan : CollectionRequest T} {collection : String} {kinds namespaces : List String}
  {origins global bases : List Origin}

/-! ## Drains -/

/-- With enough calls, following the cursor ends with `rows` in some order. -/
def Drains (cluster : Cluster σ T) (request : CollectionRequest T) (rows : List T) : Prop :=
  ∃ bound, ∀ fuel calls, bound ≤ fuel → bound ≤ calls → ∀ s, ∃ items t,
    (drain cluster fuel calls request).run.run s = (.ok items, t) ∧ items ~ rows

def selected (state : ClusterState T) (options : ListOptions) (origin : Origin) : List T :=
  (state.rows origin).filter (state.selects options.labelSelector options.fieldSelector)

structure Reads (cluster : Cluster σ T) (state : ClusterState T) (request : CollectionRequest T)
    (origins : List Origin) : Prop where
  origins : request.origins = origins
  cursor : request.cursor = none
  normalized : Normalized request
  allowed : Allows cluster request.selection.generation request.origins
  served : ∃ lister : NativeLister cluster request.options request.origins,
    ∀ origin ∈ request.origins, lister.items origin = selected state request.options origin

theorem Drains.perm {rows other : List T} (h : Drains cluster request rows)
    (hperm : rows ~ other) : Drains cluster request other := by
  obtain ⟨bound, hdrain⟩ := h
  refine ⟨bound, fun fuel calls hfuel hcalls s => ?_⟩
  obtain ⟨items, t, hrun, hitems⟩ := hdrain fuel calls hfuel hcalls s
  exact ⟨items, t, hrun, hitems.trans hperm⟩

theorem Reads.drains (hcluster : Faultless cluster) (hreads : Reads cluster state request origins)
    (hlistable : Listable (canonicalOrigins origins)) :
    Drains cluster request (origins.flatMap (selected state request.options)) := by
  obtain ⟨lister, hitems⟩ := hreads.served
  obtain ⟨bound, hdrain⟩ := drain_first hcluster hreads.allowed
    (by rw [hreads.origins]; exact hlistable) hreads.normalized hreads.cursor lister
  refine ⟨bound, fun fuel calls hfuel hcalls s => ?_⟩
  have hrows : request.origins.flatMap lister.items =
      origins.flatMap (selected state request.options) := by
    rw [flatMap_congr hitems, hreads.origins]
  rw [← hrows]
  exact (hdrain fuel calls hfuel hcalls).exists_run s

/-! ## The sources of a collection -/

theorem basesFor_length (h : basesFor collection kinds = .ok bases) :
    bases ≠ [] ∧ (bases.length = 1 ↔ (collection = "workloads" → kinds.length = 1)) := by
  unfold basesFor at h
  split at h
  · next hworkloads =>
    obtain ⟨canonical, hkinds, h⟩ := except_bind_eq_ok h
    obtain rfl := Except.ok.inj h
    obtain ⟨hne, hone⟩ := canonicalKinds_length hkinds
    rw [length_map, hone]
    exact ⟨by simpa using hne, fun hone _ => hone, fun hone => hone hworkloads⟩
  · next hother =>
    split at h
    · cases h
    · obtain rfl := Except.ok.inj h
      exact ⟨cons_ne_nil _ _, fun _ hworkloads => absurd hworkloads hother, fun _ => rfl⟩

theorem flatMap_withoutNamespace (h : basesFor collection kinds = .ok bases) :
    (bases.flatMap fun base => inNamespaces base [""]) = bases := by
  have hcomplete := basesFor_complete h
  have hsingle : ∀ base ∈ bases, inNamespaces base [""] = [base] := by
    intro base hbase
    show [{ base with namespaceName := "" }] = [base]
    rw [withoutNamespace (hcomplete base hbase).1]
  rw [flatMap_congr hsingle]
  exact flatMap_singleton' bases

theorem globalOrigins_perm (h : GlobalOriginsFor collection kinds = .ok global) :
    ∃ bases, basesFor collection kinds = .ok bases ∧ global ~ bases := by
  obtain ⟨bases, hbases, rfl⟩ := originsFor_ok_iff.mp h
  refine ⟨bases, hbases, (canonicalOrigins_perm _).trans ?_⟩
  rw [flatMap_withoutNamespace hbases]

theorem globalOrigins_global (h : GlobalOriginsFor collection kinds = .ok global) :
    Resources.globalOrigins global = true := by
  obtain ⟨bases, hbases, hperm⟩ := globalOrigins_perm h
  unfold Resources.globalOrigins
  rw [Bool.and_eq_true, all_eq_true]
  constructor
  · have hne := (basesFor_length hbases).1
    rw [← length_pos_iff, ← hperm.length_eq, length_pos_iff] at hne
    simpa using hne
  · intro origin hmem
    rw [beq_iff_eq]
    exact (basesFor_complete hbases origin (hperm.mem_iff.mp hmem)).1

theorem selected_perm (options : ListOptions)
    (hglobal : GlobalOriginsFor collection kinds = .ok global)
    (horigins : OriginsFor collection namespaces kinds = .ok origins)
    (hall : ∀ origin ∈ global, ∀ item ∈ state.objects origin,
      state.namespaceOf item ∈ namespaces) :
    global.flatMap (selected state options) ~ origins.flatMap (selected state options) := by
  obtain ⟨bases, hbases, hperm⟩ := globalOrigins_perm hglobal
  obtain ⟨canonical, hnodup, hne, hnames, hfor⟩ := OriginsFor_ok horigins
  have hwide := state.rows_globalOrigins hbases hglobal
  have hfan := state.rows_namespaceOrigins hbases hnodup hne hfor
  -- No row is lost when the sources are cut down to the listed namespaces.
  have hkept : (bases.flatMap fun base => (state.objects base).filter fun item =>
      canonical.contains (state.namespaceOf item)) = bases.flatMap state.objects := by
    apply flatMap_congr
    intro base hbase
    rw [filter_eq_self]
    intro item hitem
    rw [contains_iff_mem, hnames.mem_iff]
    exact hall base (hperm.mem_iff.mpr hbase) item hitem
  rw [hkept] at hfan
  have hselected : ∀ list : List Origin, list.flatMap (selected state options) =
      (list.flatMap state.rows).filter
        (state.selects options.labelSelector options.fieldSelector) := by
    intro list
    rw [filter_flatMap]
    rfl
  rw [hselected, hselected]
  exact (hwide.trans hfan.symm).filter _

/-! ## Several cluster-wide origins -/

theorem Collect_global_fails (hglobal : Resources.globalOrigins request.origins = true)
    (hlength : request.origins.length ≠ 1) (hcursor : request.cursor = none) (fuel : Nat) :
    Sat True (Collect cluster request fuel) fun _ => False := by
  have hperm := canonicalOrigins_perm request.origins
  have hcanonical : Resources.globalOrigins (canonicalOrigins request.origins) = true := by
    unfold Resources.globalOrigins at hglobal ⊢
    simpa [hperm.mem_iff, List.isEmpty_iff, ← List.length_eq_zero_iff, hperm.length_eq]
      using hglobal
  have htraced : Sat True (collectTraced cluster request fuel) fun _ => False := by
    apply collectTraced_sat
    · exact fun _ => trivial
    · exact fun _ => trivial
    · intro hempty
      rw [hempty] at hcanonical
      exact absurd hcanonical (by decide)
    · exact fun _ _ _ => trivial
    · intro _ grant start _ _ _ hstart
      have hstart' : start.origins.length ≠ 1 := by
        rw [startCursor, hcursor] at hstart
        obtain rfl := Except.ok.inj hstart
        simpa [NewCompositeCursor, (canonicalOrigins_perm _).length_eq] using hlength
      refine sat_bind (P := fun _ => False) ?_ fun _ h => h.elim
      rw [paginate, if_neg (by simp [hcanonical]), paginatePlain, if_pos hcanonical]
      unfold globalNative
      split
      · next hone => exact absurd (by rw [hone]; rfl) hstart'
      · exact sat_throw trivial
  exact sat_bind htraced fun _ h => h.elim

theorem drain_global_fails (hglobal : Resources.globalOrigins request.origins = true)
    (hlength : request.origins.length ≠ 1) (hcursor : request.cursor = none) (fuel calls : Nat) :
    Sat True (drain cluster fuel calls request) fun _ => False := by
  cases calls with
  | zero => exact sat_throw trivial
  | succ calls =>
    unfold drain
    exact sat_bind (Collect_global_fails hglobal hlength hcursor fuel) fun _ h => h.elim

theorem Reads.not_drains (hreads : Reads cluster state request global)
    (hglobal : Resources.globalOrigins global = true) (hlength : global.length ≠ 1) [Nonempty σ]
    (rows : List T) : ¬ Drains cluster request rows := by
  rintro ⟨bound, hdrain⟩
  obtain ⟨items, t, hrun, _⟩ := hdrain bound bound le_rfl le_rfl (Classical.arbitrary σ)
  exact (drain_global_fails (hreads.origins ▸ hglobal) (hreads.origins ▸ hlength) hreads.cursor
    bound bound).of_run hrun

/-! ## Both ways agree exactly for a single source -/

def SameSelectors (request other : CollectionRequest T) : Prop :=
  request.options.labelSelector = other.options.labelSelector ∧
    request.options.fieldSelector = other.options.fieldSelector

/-- Draining the cluster-wide LISTs succeeds, with the rows that draining the LISTs of all
namespaces gives, exactly when the collection has one source. -/
theorem global_drain_iff [Nonempty σ] (cluster : Cluster σ T) (hcluster : Faultless cluster)
    (state : ClusterState T) {collection : String} {kinds : List String} {global : List Origin}
    (hglobal : GlobalOriginsFor collection kinds = .ok global) (namespaces : List String)
    (hall : ∀ origin ∈ global, ∀ item ∈ state.objects origin,
      state.namespaceOf item ∈ namespaces)
    (wide : CollectionRequest T) (hwide : Reads cluster state wide global) :
    (∃ rows, Drains cluster wide rows ∧ ∀ origins fan,
      OriginsFor collection namespaces kinds = .ok origins → Reads cluster state fan origins →
      SameSelectors fan wide → Drains cluster fan rows) ↔
      (collection = "workloads" → kinds.length = 1) := by
  obtain ⟨bases, hbases, hperm⟩ := globalOrigins_perm hglobal
  rw [← (basesFor_length hbases).2, ← hperm.length_eq]
  constructor
  · rintro ⟨rows, hdrains, _⟩
    by_contra hlength
    exact hwide.not_drains (globalOrigins_global hglobal) hlength rows hdrains
  · intro hone
    obtain ⟨origin, rfl⟩ := List.length_eq_one_iff.mp hone
    have hlistable : Listable (canonicalOrigins [origin]) := by
      exact (globalOrigin_listable hglobal).2
    refine ⟨_, hwide.drains hcluster hlistable, fun origins fan horigins hfan hsame => ?_⟩
    have hnamespaced := (OriginsFor_namespaced horigins).perm (canonicalOrigins_perm origins)
    have hdrains := hfan.drains hcluster hnamespaced.listable
    have hselected : selected state fan.options = selected state wide.options := by
      funext origin
      unfold selected
      rw [hsame.1, hsame.2]
    rw [hselected] at hdrains
    exact hdrains.perm (selected_perm wide.options hglobal horigins hall).symm

/-! ## One namespace, every way -/

def oneNamespace : ClusterState Nat where
  objects _ := [2, 3, 1]
  namespaceOf _ := "shop"
  selects _ _ _ := true

def firstPage (origins : List Origin) : CollectionRequest Nat :=
  { podRequest [] 2 none with origins }

theorem chunked_faultless : Faultless chunked :=
  ⟨fun _ => rfl, fun _ _ => .refl _⟩

theorem oneNamespace_reads (h : ∀ origin ∈ origins, origin.namespaceName = "" ∨
    origin.namespaceName = "shop") : Reads chunked oneNamespace (firstPage origins) origins where
  origins := rfl
  cursor := rfl
  normalized :=
    have h : Normalized (podRequest [] 2 none) :=
      ⟨by decide, by decide, by decide, by decide, by decide, rfl⟩
    ⟨h.generation, h.context, h.scope, h.limit_pos, h.limit_le, rfl⟩
  allowed _ _ _ := rfl
  served := by
    refine ⟨chunkedLister _ _, fun origin hmem => ?_⟩
    show [2, 3, 1] = (oneNamespace.rows origin).filter fun _ => true
    unfold ClusterState.rows
    rcases h origin hmem with hname | hname
    · rw [if_pos hname]
      rfl
    · rw [hname]
      rfl

def workloadOrigins (name : String) : List Origin :=
  [⟨name, "apps", "v1", "daemonsets"⟩, ⟨name, "apps", "v1", "deployments"⟩,
    ⟨name, "apps", "v1", "replicasets"⟩, ⟨name, "apps", "v1", "statefulsets"⟩,
    ⟨name, "batch", "v1", "cronjobs"⟩, ⟨name, "batch", "v1", "jobs"⟩]

theorem global_drain_pods :
    ∃ rows, Drains chunked (firstPage [⟨"", "", "v1", "pods"⟩]) rows ∧ ∀ origins fan,
      OriginsFor "pods" ["shop"] [] = .ok origins → Reads chunked oneNamespace fan origins →
      SameSelectors fan (firstPage [⟨"", "", "v1", "pods"⟩]) → Drains chunked fan rows :=
  (global_drain_iff chunked chunked_faultless oneNamespace
    (show GlobalOriginsFor "pods" [] = .ok [⟨"", "", "v1", "pods"⟩] by decide +kernel) ["shop"]
    (fun _ _ _ _ => List.mem_singleton_self _) _ (oneNamespace_reads (by simp))).mpr
    fun h => absurd h (by decide)

/-- The workloads of a cluster: refused cluster-wide, listed namespace by namespace. -/
theorem global_workloads_refused :
    GlobalOriginsFor "workloads" [] = .ok (workloadOrigins "") ∧
      OriginsFor "workloads" ["shop"] [] = .ok (workloadOrigins "shop") ∧
      Reads chunked oneNamespace (firstPage (workloadOrigins "")) (workloadOrigins "") ∧
      Reads chunked oneNamespace (firstPage (workloadOrigins "shop")) (workloadOrigins "shop") ∧
      (∀ fuel, (Collect chunked (firstPage (workloadOrigins "")) fuel).run.run () =
        (.error (.failed (validationError "global pagination requires exactly one origin")), ())) ∧
      (∀ rows, ¬ Drains chunked (firstPage (workloadOrigins "")) rows) ∧
      ∃ rows, Drains chunked (firstPage (workloadOrigins "shop")) rows := by
  have hglobal : GlobalOriginsFor "workloads" [] = .ok (workloadOrigins "") := by decide +kernel
  have horigins : OriginsFor "workloads" ["shop"] [] = .ok (workloadOrigins "shop") := by
    decide +kernel
  have hwide := oneNamespace_reads
    (show ∀ origin ∈ workloadOrigins "", _ by simp [workloadOrigins])
  have hfan := oneNamespace_reads
    (show ∀ origin ∈ workloadOrigins "shop", _ by simp [workloadOrigins])
  have hnamespaced := (OriginsFor_namespaced horigins).perm (canonicalOrigins_perm _)
  refine ⟨hglobal, horigins, hwide, hfan, fun fuel => ?_,
    hwide.not_drains (globalOrigins_global hglobal) (by decide),
    _, hfan.drains chunked_faultless hnamespaced.listable⟩
  rfl

end Kubepeep.Backend
