import Kubepeep.Backend.Direct

/-!
# Snapshots and LISTs of one cluster state

A first page from the watch snapshots holds every row of the scope that passes the local filter.
The direct LIST filters page by page, so the same rows arrive when its cursor is followed to the
end, provided that the selectors, which only the LIST applies, select all of them.
-/

open List Kubepeep.Authorization Kubepeep.Effect Kubepeep.Resources Kubepeep.Watch

namespace Kubepeep.Backend

section

variable {σ O T : Type}

/-! ## What the two paths read -/

/-- Every origin that a LIST of the collection may read, for all namespaces or for one. -/
def sources (resolution : ScopeResolution) (collection : String) (options : RequestOptions) :
    List Origin :=
  match basesFor collection options.kinds with
  | .ok bases => bases.flatMap fun base => inNamespaces base ("" :: resolution.namespaces)
  | .error _ => []

variable {names : List String} {origins : List Origin}

theorem originsFor_subset (resolution : ScopeResolution) {collection : String}
    (options : RequestOptions)
    (hnames : ∀ name ∈ names, name ∈ "" :: resolution.namespaces)
    (h : originsFor collection names options.kinds = .ok origins) :
    ∀ origin ∈ origins, origin ∈ sources resolution collection options := by
  obtain ⟨bases, hbases, rfl⟩ := originsFor_ok_iff.mp h
  intro origin hmem
  have hflat := (canonicalOrigins_perm _).mem_iff.mp hmem
  obtain ⟨base, hbase, horigin⟩ := mem_flatMap.mp hflat
  obtain ⟨name, hname, rfl⟩ := mem_map.mp horigin
  unfold sources
  rw [hbases]
  exact mem_flatMap.mpr ⟨base, hbase, mem_map.mpr ⟨name, hnames name hname, rfl⟩⟩

theorem ResolveNamespaces_ok {active requested names : List String}
    (h : ResolveNamespaces active requested = .ok names) :
    names.Nodup ∧ (∀ name ∈ names, name ≠ "") ∧ ∀ name ∈ names, name ∈ active := by
  unfold ResolveNamespaces at h
  split at h
  · obtain ⟨hnodup, hne⟩ := canonicalNamespaces_ok h
    exact ⟨hnodup, hne, fun name => (canonicalNamespaces_perm h).2.mem_iff.mp⟩
  · obtain ⟨canonical, hcanonical, h⟩ := except_bind_eq_ok h
    obtain ⟨all, hall, h⟩ := except_bind_eq_ok h
    split at h
    · next hwithin =>
      obtain rfl := Except.ok.inj h
      obtain ⟨hnodup, hne⟩ := canonicalNamespaces_ok hcanonical
      refine ⟨hnodup, hne, fun name hname => (canonicalNamespaces_perm hall).2.mem_iff.mp ?_⟩
      simpa using all_eq_true.mp hwithin name hname
    · cases h

theorem ResolveNamespaces_length {active names : List String}
    (h : ResolveNamespaces active [] = .ok names) : active.length ≤ MaximumNamespaces := by
  change canonicalStrings active MaximumNamespaces none "active namespace" = _ at h
  unfold canonicalStrings at h
  split at h
  · cases h
  · next hle => omega

section

variable {backend : ResourceBackend σ O T} {binding : SelectionBinding}
  {resolution : ScopeResolution} {collection : String} {options : RequestOptions}
  {state : ClusterState T} {keep : T → Bool} {verdict : Key → Decision}

/-- The snapshots and the lister of a backend are of the same state, and `keep` is what its filter
keeps. -/
structure Views (lister : NativeLister backend.cluster options.toListOptions
    (sources resolution collection options)) (state : ClusterState T) (keep : T → Bool) : Prop where
  snapshots : ∀ selection names topic origins snapshots,
    backend.snapshotsFor selection names topic origins = some snapshots → ∀ origin ∈ origins,
      ∀ rows, (snapshots origin.Key).items.mapM backend.object = some rows →
        rows ~ state.rows origin
  listed : ∀ origin ∈ sources resolution collection options, lister.items origin =
    (state.rows origin).filter (state.selects options.labelSelector options.fieldSelector)
  filters : ∀ items, backend.filterSort items options ~ items.filter keep
  pods : collection = "pods" → ∀ item, backend.pod item = some (state.namespaceOf item)

variable {lister : NativeLister backend.cluster options.toListOptions
    (sources resolution collection options)}

variable {origins : List Origin}

theorem Views.filter_listed (h : Views lister state keep)
    (hselected : ∀ origin ∈ sources resolution collection options, ∀ item ∈ state.rows origin,
      keep item = true → state.selects options.labelSelector options.fieldSelector item = true)
    (hsubset : ∀ origin ∈ origins, origin ∈ sources resolution collection options) :
    (origins.flatMap lister.items).filter keep = (origins.flatMap state.rows).filter keep := by
  rw [filter_flatMap, filter_flatMap]
  apply flatMap_congr
  intro origin hmem
  rw [h.listed origin (hsubset origin hmem), filter_filter]
  apply filter_congr
  intro item hitem
  by_cases hkeep : keep item = true
  · simp [hkeep, hselected origin (hsubset origin hmem) item hitem hkeep]
  · simp [hkeep]

/-! ## The page of the snapshots -/

theorem snapshotLoop_spec (hauth : Authorizes backend.cluster verdict)
    {snapshots : String → WatchSnapshot O} (states : List (OriginCursor T))
    (hrows : ∀ entry ∈ states, ∀ rows,
      (snapshots entry.origin.Key).items.mapM backend.object = some rows →
      rows ~ state.rows entry.origin) :
    ∀ items size, Always (snapshotLoop backend binding snapshots states items size) fun answered =>
      ∀ found, answered = some found →
        (∀ entry ∈ states, verdict (listKey binding.generation entry.origin) = .DecisionAllowed) ∧
        found.1 ~ items ++ states.flatMap fun entry => state.rows entry.origin := by
  induction states with
  | nil =>
    intro items size
    apply always_pure
    intro found hfound
    obtain rfl := Option.some.inj hfound
    simp
  | cons entry rest ih =>
    intro items size
    have hnone : ∀ found, (none : Option (List T × List (OriginCursor T))) = some found →
        (∀ other ∈ entry :: rest,
          verdict (listKey binding.generation other.origin) = .DecisionAllowed) ∧
        found.1 ~ items ++ (entry :: rest).flatMap fun other => state.rows other.origin :=
      fun _ h => absurd h (by simp)
    unfold snapshotLoop
    refine always_bind (hauth.answers _) fun capability hverdict => ?_
    by_cases hallowed : capability.decision = .DecisionAllowed
    · rw [if_neg (by simp [hallowed])]
      dsimp only
      split
      · exact always_pure hnone
      split
      · next added rows hsize hobjects =>
        split
        · exact always_pure hnone
        -- The rows of this snapshot are those of the origin; the rest follows by induction.
        refine always_bind (ih (fun other hother => hrows other (mem_cons_of_mem _ hother))
          (items ++ rows) (size + added)) fun answered hrest => ?_
        apply always_pure
        intro found hfound
        obtain ⟨later, hlater, rfl⟩ := Option.map_eq_some_iff.mp hfound
        obtain ⟨hverdicts, hperm⟩ := hrest later hlater
        refine ⟨forall_mem_cons.mpr ⟨hverdict.symm.trans hallowed, hverdicts⟩, ?_⟩
        apply hperm.trans
        rw [append_assoc, flatMap_cons]
        have hsame := hrows entry mem_cons_self rows hobjects
        exact (hsame.append_right _).append_left _
      · exact always_pure hnone
    · rw [if_pos (by simp [hallowed])]
      exact always_pure hnone

theorem collectFromWatchSnapshots_spec (hauth : Authorizes backend.cluster verdict)
    (hviews : Views lister state keep) (topic : Topic) :
    Always (collectFromWatchSnapshots backend binding resolution collection options topic)
      fun answered => ∀ result, answered = some result →
        ∃ origins, snapshotOrigins resolution collection options = .ok origins ∧ origins ≠ [] ∧
          (∀ origin ∈ origins, verdict (listKey binding.generation origin) = .DecisionAllowed) ∧
          result.items ~ (origins.flatMap state.rows).filter keep := by
  unfold collectFromWatchSnapshots
  split
  · exact always_pure fun _ h => absurd h (by simp)
  next origins horigins =>
  split
  · exact always_pure fun _ h => absurd h (by simp)
  next hne =>
  split
  · exact always_pure fun _ h => absurd h (by simp)
  next snapshots hsnapshots =>
  have hperm := canonicalOrigins_perm origins
  have horigin : ∀ entry ∈ (NewCompositeCursor T origins).origins, entry.origin ∈ origins := by
    intro entry hentry
    obtain ⟨origin, hmem, rfl⟩ := mem_map.mp hentry
    exact hperm.mem_iff.mp hmem
  refine always_bind (snapshotLoop_spec hauth (NewCompositeCursor T origins).origins
    (fun entry hentry => hviews.snapshots _ _ _ _ _ hsnapshots _ (horigin entry hentry)) [] 0)
    fun answered hanswered => ?_
  cases answered with
  | none => exact always_pure fun _ h => absurd h (by simp)
  | some found =>
    obtain ⟨items, states⟩ := found
    obtain ⟨hallowed, hitems⟩ := hanswered _ rfl
    dsimp only
    split
    · exact always_pure fun _ h => absurd h (by simp)
    apply always_pure
    intro result hresult
    obtain rfl := Option.some.inj hresult
    refine ⟨origins, horigins, by simpa using hne, fun origin hmem => ?_, ?_⟩
    · exact hallowed ⟨origin, "", "", false, []⟩
        (mem_map.mpr ⟨origin, hperm.mem_iff.mpr hmem, rfl⟩)
    · refine (hviews.filters items).trans (Perm.filter keep ?_)
      rw [nil_append, NewCompositeCursor, flatMap_map] at hitems
      exact hitems.trans (hperm.flatMap_right _)

/-! ## The pages of the direct LIST -/

structure Bound (binding : SelectionBinding) (resolution : ScopeResolution)
    (options : RequestOptions) : Prop where
  generation : binding.generation ≠ ""
  context : binding.context ≠ ""
  scope : (resourceSelection binding resolution).scope ≠ ""
  limit_pos : 1 ≤ options.limit
  limit_le : options.limit ≤ MaximumListLimit

theorem Bound.normalized (h : Bound binding resolution options)
    {requested : Nat} {fast : Bool} {preferred : String} :
    Normalized (collectionRequest backend binding resolution options none origins requested fast
      preferred) :=
  ⟨h.generation, h.context, h.scope, h.limit_pos, h.limit_le, rfl⟩

section

variable (hcluster : Faultless backend.cluster) (hauth : Authorizes backend.cluster verdict)
  (hviews : Views lister state keep) (hbound : Bound binding resolution options)
  (hselected : ∀ origin ∈ sources resolution collection options, ∀ item ∈ state.rows origin,
    keep item = true → state.selects options.labelSelector options.fieldSelector item = true)
include hcluster hauth hviews hbound hselected

theorem drainDirect_namespaces
    (hscope : ¬ (preferredListNamespace resolution options = "" ∧ resolution.preferGlobal = true ∧
      options.namespaces = []))
    (hpods : preferredListNamespace resolution options = "" → collection = "pods" →
      resolution.preferGlobal = false → resolution.namespaces.length > 1 →
      options.namespaces.length ≠ 1 → ∃ global, GlobalOriginsFor "pods" options.kinds = .ok global ∧
        ¬ GlobalGrant verdict binding.generation global)
    (hnames : ResolveNamespaces resolution.namespaces options.namespaces = .ok names)
    (horigins : OriginsFor collection names options.kinds = .ok origins) (hne : origins ≠ [])
    (hallowed : ∀ origin ∈ origins,
      verdict (listKey binding.generation origin) = .DecisionAllowed) :
    DrainsDirect backend binding resolution collection options fun items =>
      items ~ (origins.flatMap state.rows).filter keep := by
  obtain ⟨canonical, _, _, hperm, hfor⟩ := OriginsFor_ok horigins
  have hcanonical : canonicalOrigins origins = origins := by
    obtain ⟨bases, _, rfl⟩ := originsFor_ok_iff.mp hfor
    exact canonicalOrigins_canonicalOrigins _
  have hnamespaced := OriginsFor_namespaced horigins
  have hsubset := originsFor_subset resolution options
    (fun name hname => mem_cons_of_mem _
      ((ResolveNamespaces_ok hnames).2.2 name (hperm.mem_iff.mp hname))) hfor
  have hsize : ¬ (options.namespaces = [] ∧ resolution.namespaces.length > MaximumNamespaces) := by
    intro ⟨hempty, hmany⟩
    rw [hempty] at hnames
    have := ResolveNamespaces_length hnames
    omega
  let request := collectionRequest backend binding resolution options none origins names.length true
    (preferredListNamespace resolution options)
  have hsame : canonicalOrigins request.origins = origins := hcanonical
  have hdrain := drainDirect_first request hviews.filters
    (lister.restrict fun origin hmem => hsubset origin (hsame ▸ hmem))
    (fun origin hmem => (hauth.answers _).mono fun capability hcapability =>
      hcapability.trans (hallowed origin (hsame ▸ hmem)))
    hbound.normalized (hsame ▸ hnamespaced.listable) (hsame ▸ hne) hcluster
    (fun fuel cursor P hof hcollect => collectResource_namespaces hauth
      (listCursorMode_namespaced (hsame ▸ hof) hne hnamespaced.namespaceName) hscope hpods hsize
      hnames horigins hcollect)
  rw [← hviews.filter_listed hselected hsubset, ← hsame]
  exact hdrain

variable {origin : Origin}

theorem drainDirect_global (hpreferred : preferredListNamespace resolution options = "")
    (hscope : resolution.preferGlobal = true) (hnames : options.namespaces = [])
    (horigins : GlobalOriginsFor collection options.kinds = .ok [origin])
    (hallowed : verdict (listKey binding.generation origin) = .DecisionAllowed) :
    DrainsDirect backend binding resolution collection options fun items =>
      items ~ (state.rows origin).filter keep := by
  have hsubset := originsFor_subset resolution options
    (fun name hname => mem_singleton.mp hname ▸ mem_cons_self) horigins
  obtain ⟨hglobal, hlistable⟩ := globalOrigin_listable horigins
  have hgrant : GlobalGrant verdict binding.generation [origin] := by
    intro other hother
    obtain rfl := mem_singleton.mp hother
    rw [withoutNamespace hglobal]
    exact hallowed
  let request := collectionRequest backend binding resolution options none [origin]
    resolution.namespaces.length false ""
  have hsame : canonicalOrigins request.origins = [origin] := rfl
  have hdrain := drainDirect_first request hviews.filters (lister.restrict hsubset)
    (fun other hmem => (hauth.answers _).mono fun capability hcapability =>
      hcapability.trans (mem_singleton.mp hmem ▸ hallowed))
    hbound.normalized hlistable (by simp [hsame]) hcluster
    (fun fuel cursor P hof hcollect => collectResource_global hauth horigins (by simp)
      (by simpa using hglobal) hgrant hpreferred hscope hnames hof hcollect)
  have hrows := hviews.filter_listed hselected hsubset
  rw [flatMap_singleton, flatMap_singleton] at hrows
  rw [← hrows, ← flatMap_singleton lister.items]
  exact hdrain

theorem drainDirect_pods (hcollection : collection = "pods")
    (hpreferred : preferredListNamespace resolution options = "")
    (hscope : resolution.preferGlobal = false) (hmany : resolution.namespaces.length > 1)
    (hsingle : options.namespaces.length ≠ 1)
    (hnames : ResolveNamespaces resolution.namespaces options.namespaces = .ok names)
    (horigins : GlobalOriginsFor collection options.kinds = .ok [origin])
    (hgrant : GlobalGrant verdict binding.generation [origin])
    (hstops : ScanStopsInTime lister names origin) :
    DrainsDirect backend binding resolution collection options fun items =>
      items ~ ((state.rows origin).filter fun item =>
        names.contains (state.namespaceOf item)).filter keep := by
  have hsubset := originsFor_subset resolution options
    (fun name hname => mem_singleton.mp hname ▸ mem_cons_self) horigins
  have hmem : origin ∈ sources resolution collection options :=
    hsubset origin (mem_singleton_self origin)
  obtain ⟨hglobal, hlistable⟩ := globalOrigin_listable horigins
  have hpods := hviews.pods hcollection
  let scan := scopedLister lister hmem (fun item => by simp [hpods item]) hcluster.context hstops
  let request := collectionRequest backend binding resolution options none [origin] names.length
    false ""
  have hallowed : verdict (listKey binding.generation origin) = .DecisionAllowed := by
    have := hgrant origin (mem_singleton_self origin)
    rwa [withoutNamespace hglobal] at this
  have hscanned : Faultless (inScopeCluster backend names) := ⟨hcluster.context, hcluster.scheduled⟩
  have hdrain := drainDirect_first request hviews.filters scan
    (fun other hother => (hauth.answers _).mono fun capability hcapability =>
      hcapability.trans (mem_singleton.mp hother ▸ hallowed))
    hbound.normalized hlistable (by simp [request, collectionRequest, canonicalOrigins]) hscanned
    (fun fuel cursor P hof hcollect => collectResource_pods hauth hcollection horigins (by simp)
      (by simpa using hglobal) hgrant hpreferred hscope hmany hsingle hnames hof hcollect)
  -- The scan serves the selected rows in scope; selecting makes no difference to what is kept.
  have hrows : ((state.rows origin).filter fun item =>
      names.contains (state.namespaceOf item)).filter keep =
      ([origin].flatMap scan.items).filter keep := by
    rw [flatMap_singleton]
    change _ = ((lister.items origin).filter (inScope backend.pod names)).filter keep
    have hlisted := hviews.filter_listed hselected hsubset
    rw [flatMap_singleton, flatMap_singleton] at hlisted
    rw [filter_comm, ← hlisted, filter_comm]
    congr 1
    apply filter_congr
    intro item _
    simp [inScope, hpods item]
  rw [hrows]
  exact hdrain

end

/-! ## The same rows -/

theorem flatMap_rows {names kinds : List String} {bases : List Origin}
    (state : ClusterState T) (hbases : basesFor collection kinds = .ok bases)
    (h : OriginsFor collection names kinds = .ok origins) :
    origins.flatMap state.rows ~ bases.flatMap fun base =>
      (state.objects base).filter fun item => names.contains (state.namespaceOf item) := by
  obtain ⟨canonical, hnodup, hne, hperm, hfor⟩ := OriginsFor_ok h
  refine (state.rows_namespaceOrigins hbases hnodup hne hfor).trans (Perm.of_eq ?_)
  apply flatMap_congr
  intro base _
  apply filter_congr
  intro item _
  rw [Bool.eq_iff_iff, contains_iff_mem, contains_iff_mem, hperm.mem_iff]

theorem preferredListNamespace_mem (h : preferredListNamespace resolution options ≠ "") :
    preferredListNamespace resolution options ∈ resolution.namespaces := by
  unfold preferredListNamespace at h ⊢
  split at h
  · exact absurd rfl h
  split at h
  · exact absurd rfl h
  next name hdefault hcontains =>
  split at h
  · exact absurd rfl h
  next hrequested =>
  rw [if_neg hcontains, if_neg hrequested]
  simpa using hcontains

theorem fanout_of_global (hauth : Authorizes backend.cluster verdict) {global : List Origin}
    (hglobal : GlobalOriginsFor collection options.kinds = .ok global) (hne : global ≠ [])
    (hallowed : ∀ origin ∈ global, verdict (listKey binding.generation origin) = .DecisionAllowed)
    (hnonempty : names ≠ []) (horigins : OriginsFor collection names options.kinds = .ok origins)
    (hall : ∀ origin ∈ global, ∀ item ∈ state.rows origin, state.namespaceOf item ∈ names) :
    origins ≠ [] ∧
      (∀ origin ∈ origins, verdict (listKey binding.generation origin) = .DecisionAllowed) ∧
      origins.flatMap state.rows ~ global.flatMap state.rows := by
  obtain ⟨bases, hbases, hglobal'⟩ := originsFor_ok_iff.mp hglobal
  have hcomplete := basesFor_complete hbases
  have hsource : ∀ base, base ∈ global ↔ base ∈ bases := by
    intro base
    rw [hglobal', (canonicalOrigins_perm _).mem_iff, mem_flatMap]
    constructor
    · intro ⟨other, hother, hmem⟩
      rw [inNamespaces, map_singleton, mem_singleton,
        withoutNamespace (hcomplete other hother).1] at hmem
      exact hmem ▸ hother
    · intro hbase
      refine ⟨base, hbase, ?_⟩
      rw [inNamespaces, map_singleton, withoutNamespace (hcomplete base hbase).1]
      exact mem_singleton_self base
  obtain ⟨canonical, _, _, hperm, hfor⟩ := OriginsFor_ok horigins
  obtain ⟨other, hother, horigins'⟩ := originsFor_ok_iff.mp hfor
  obtain rfl : bases = other := Except.ok.inj (hbases.symm.trans hother)
  have hmem : ∀ origin, origin ∈ origins ↔
      ∃ base ∈ bases, ∃ name ∈ canonical, { base with namespaceName := name } = origin := by
    intro origin
    rw [horigins', (canonicalOrigins_perm _).mem_iff, mem_flatMap]
    simp [inNamespaces]
  refine ⟨?_, ?_, ?_⟩
  · obtain ⟨base, hbase⟩ := exists_mem_of_ne_nil global hne
    obtain ⟨name, hname⟩ := exists_mem_of_ne_nil names hnonempty
    exact ne_nil_of_mem ((hmem _).mpr
      ⟨base, (hsource base).mp hbase, name, hperm.mem_iff.mpr hname, rfl⟩)
  · intro origin horigin
    obtain ⟨base, hbase, name, _, rfl⟩ := (hmem origin).mp horigin
    apply hauth.includes
    rw [withoutNamespace (hcomplete base hbase).1]
    exact hallowed base ((hsource base).mpr hbase)
  · refine (flatMap_rows state hbases horigins).trans
      (Perm.trans (Perm.of_eq ?_) (state.rows_globalOrigins hbases hglobal).symm)
    apply flatMap_congr
    intro base hbase
    rw [filter_eq_self]
    intro item hitem
    rw [← state.rows_global (hcomplete base hbase).1] at hitem
    simpa using hall base ((hsource base).mpr hbase) item hitem

/-- What the direct path needs to list an unrestricted scope at all: a single source, or, with a
preferred namespace, few enough namespaces. -/
def FitsDirect (resolution : ScopeResolution) (collection : String) (options : RequestOptions) :
    Prop :=
  if preferredListNamespace resolution options = "" then
    ∃ origin, GlobalOriginsFor collection options.kinds = .ok [origin]
  else
    ∃ names origins, ResolveNamespaces resolution.namespaces [] = .ok names ∧
      OriginsFor collection names options.kinds = .ok origins

end

end

/-! ## A filtered page -/

def shopBackend : ResourceBackend Unit Nat Nat where
  cluster := chunked
  snapshotsFor _ _ _ origins :=
    if origins.all (·.namespaceName == "") then some fun _ => ⟨"7", [2, 3, 1]⟩ else none
  object := some
  pod _ := some "shop"
  encodedSize items := some (2 * items.length + 1)
  less a b := decide (a < b)
  filterSort items _ := items.filter (· == 1)
  listFanout := 0
  listRetryPolicy := ⟨0, 0, 0⟩

def shopBinding : SelectionBinding := ⟨"generation", "context"⟩

def shopScope : ScopeResolution := ⟨"all", "saved", ["shop"], true, none⟩

def shopOptions : RequestOptions := ⟨⟨2, "identity", .OrderAscending, "", ""⟩, [], []⟩

def shopState : ClusterState Nat := ⟨fun _ => [2, 3, 1], fun _ => "shop", fun _ _ _ => true⟩

def shopLister : NativeLister shopBackend.cluster shopOptions.toListOptions
    (sources shopScope "pods" shopOptions) :=
  chunkedLister _ _

theorem shop_views : Views shopLister shopState (· == 1) where
  snapshots := by
    intro selection names topic origins snapshots hsnapshots origin hmem rows hrows
    change (if _ then _ else _) = _ at hsnapshots
    split at hsnapshots
    · next hglobal =>
      have horigin := all_eq_true.mp hglobal origin hmem
      obtain rfl := Option.some.inj hsnapshots
      obtain rfl := Option.some.inj hrows
      rw [shopState.rows_global (by simpa using horigin)]
      exact .refl _
    · cases hsnapshots
  listed := by decide +kernel
  filters := fun _ => .refl _
  pods := fun _ _ => rfl

theorem shop_bound : Bound shopBinding shopScope shopOptions := by
  constructor <;> decide

end Kubepeep.Backend
