import Kubepeep.Backend.State

/-!
# The direct LIST of a scope

Each strategy of `collectResource` is one call of `Collect`, and the cursor of a page leads back to
the strategy that made it.  Following the cursor therefore drains the origins of that strategy.
-/

open List Kubepeep.Authorization Kubepeep.Effect Kubepeep.Resources Kubepeep.Watch

namespace Kubepeep.Backend

variable {σ O T : Type}

/-! ## The strategy of the direct LIST -/

/-- The authorizer gives every key the same answer each time, and a grant for all namespaces
includes each of them. -/
structure Authorizes (cluster : Cluster σ T) (verdict : Key → Decision) : Prop where
  answers : ∀ key, Always (cluster.check key) fun capability => capability.decision = verdict key
  includes : ∀ generation origin,
    verdict (listKey generation { origin with namespaceName := "" }) = .DecisionAllowed →
    verdict (listKey generation origin) = .DecisionAllowed

def GlobalGrant (verdict : Key → Decision) (generation : String) (origins : List Origin) : Prop :=
  ∀ origin ∈ origins,
    verdict (listKey generation { origin with namespaceName := "" }) = .DecisionAllowed

theorem globalListLoop_spec {cluster : Cluster σ T} {verdict : Key → Decision}
    (h : Authorizes cluster verdict) (generation : String) (origins : List Origin) :
    ∀ before, Always (globalListLoop cluster generation origins before) fun decision =>
      (decision = .DecisionAllowed ↔
        before = .DecisionAllowed ∧ GlobalGrant verdict generation origins) := by
  induction origins with
  | nil => exact fun before => always_pure (by simp [GlobalGrant])
  | cons origin rest ih =>
    intro before
    unfold globalListLoop
    refine always_bind (h.answers _) fun capability hverdict => ?_
    have hcons : GlobalGrant verdict generation (origin :: rest) ↔
        capability.decision = .DecisionAllowed ∧ GlobalGrant verdict generation rest := by
      rw [hverdict]
      exact forall_mem_cons
    rw [hcons]
    cases capability.decision with
    | DecisionAllowed => simpa using ih before
    | DecisionDenied =>
      refine (ih .DecisionDenied).mono fun decision hdecision => ?_
      simpa using hdecision
    | DecisionUnknown => exact always_pure (by simp)

def OfOrigins (cursor : Option (CompositeCursor T)) (origins : List Origin) : Prop :=
  ∀ c, cursor = some c → c.origins.map (·.origin) = origins

variable {cursor : Option (CompositeCursor T)} {origins : List Origin}

theorem any_namespaceName {c : CompositeCursor T} {p : String → Bool} (answer : Bool)
    (h : OfOrigins (some c) origins) (hne : origins ≠ [])
    (hp : ∀ origin ∈ origins, p origin.namespaceName = answer) :
    c.origins.any (fun state => p state.origin.namespaceName) = answer := by
  obtain rfl := h c rfl
  rw [ne_eq, map_eq_nil_iff] at hne
  rw [forall_mem_map] at hp
  obtain ⟨state, hmem⟩ := exists_mem_of_ne_nil c.origins hne
  cases answer with
  | true => exact any_eq_true.mpr ⟨state, hmem, hp state hmem⟩
  | false => exact any_eq_false.mpr fun state hmem => by simp [hp state hmem]

theorem listCursorMode_global (h : OfOrigins cursor origins) (hne : origins ≠ [])
    (hglobal : ∀ origin ∈ origins, origin.namespaceName = "") :
    listCursorMode cursor = .ok (cursor.isSome, false) := by
  cases cursor with
  | none => rfl
  | some c =>
    have hsome := any_namespaceName (p := (· == "")) true h hne fun o ho => by simp [hglobal o ho]
    have hnone := any_namespaceName (p := (· != "")) false h hne fun o ho => by simp [hglobal o ho]
    simp [listCursorMode, hsome, hnone]

theorem listCursorMode_namespaced (h : OfOrigins cursor origins) (hne : origins ≠ [])
    (hnamespaced : ∀ origin ∈ origins, origin.namespaceName ≠ "") :
    listCursorMode cursor = .ok (false, cursor.isSome) := by
  cases cursor with
  | none => rfl
  | some c =>
    have hsome := any_namespaceName (p := (· != "")) true h hne fun o ho => by
      simp [hnamespaced o ho]
    have hnone := any_namespaceName (p := (· == "")) false h hne fun o ho => by
      simp [hnamespaced o ho]
    simp [listCursorMode, hsome, hnone]

variable {backend : ResourceBackend σ O T} {binding : SelectionBinding}
  {resolution : ScopeResolution} {collection : String} {options : RequestOptions}
  {cursor : Option (CompositeCursor T)} {fuel : Nat} {verdict : Key → Decision}
  {origins : List Origin} {P : ListResult T → Prop}

variable {cluster : Cluster σ T}

section

variable (hauth : Authorizes backend.cluster verdict)

include hauth

section

variable (horigins : GlobalOriginsFor collection options.kinds = .ok origins)

include horigins

variable {requested : Nat}

theorem globalStrategy_granted (hgrant : GlobalGrant verdict binding.generation origins)
    (cursorGlobal : Bool) (denied : String)
    (h : Sat False (Collect cluster (collectionRequest backend binding resolution options cursor
      origins requested false "") fuel) P) :
    Sat False (globalStrategy backend binding resolution collection options cursor fuel cluster
      requested cursorGlobal denied)
      fun answered => ∃ result, answered = some result ∧ P result := by
  unfold globalStrategy
  rw [horigins]
  refine sat_bind (sat_lift (globalListLoop_spec hauth binding.generation origins _))
    fun decision hdecision => ?_
  rw [if_pos (.inl (hdecision.mpr ⟨rfl, hgrant⟩))]
  exact sat_bind h fun result hresult => sat_pure ⟨result, rfl, hresult⟩

theorem globalStrategy_fallsThrough (hgrant : ¬ GlobalGrant verdict binding.generation origins)
    (denied : String) :
    Sat False (globalStrategy backend binding resolution collection options cursor fuel cluster
      requested false denied) fun answered => answered = none := by
  unfold globalStrategy
  rw [horigins]
  refine sat_bind (sat_lift (globalListLoop_spec hauth binding.generation origins _))
    fun decision hdecision => ?_
  have hnot : decision ≠ .DecisionAllowed := fun hallowed => hgrant (hdecision.mp hallowed).2
  rw [if_neg (by simp [hnot]), if_neg (by simp)]
  exact sat_pure rfl

theorem collectResource_global (hne : origins ≠ [])
    (hglobal : ∀ origin ∈ origins, origin.namespaceName = "")
    (hgrant : GlobalGrant verdict binding.generation origins)
    (hpreferred : preferredListNamespace resolution options = "")
    (hscope : resolution.preferGlobal = true) (hnames : options.namespaces = [])
    (hcursor : OfOrigins cursor origins)
    (h : Sat False (Collect backend.cluster (collectionRequest backend binding resolution options
      cursor origins resolution.namespaces.length false "") fuel) P) :
    Sat False (collectResource backend binding resolution collection options cursor fuel) P := by
  unfold collectResource
  rw [listCursorMode_global hcursor hne hglobal]
  apply sat_pure_bind
  dsimp only
  rw [if_pos ⟨hpreferred, hscope, hnames, rfl⟩]
  refine sat_bind (globalStrategy_granted hauth horigins hgrant _ _ h) fun answered hanswered => ?_
  obtain ⟨result, rfl, hresult⟩ := hanswered
  exact sat_pure hresult

end

variable {names : List String}

theorem collectResource_pods (hcollection : collection = "pods")
    (horigins : GlobalOriginsFor collection options.kinds = .ok origins) (hne : origins ≠ [])
    (hglobal : ∀ origin ∈ origins, origin.namespaceName = "")
    (hgrant : GlobalGrant verdict binding.generation origins)
    (hpreferred : preferredListNamespace resolution options = "")
    (hscope : resolution.preferGlobal = false) (hmany : resolution.namespaces.length > 1)
    (hsingle : options.namespaces.length ≠ 1)
    (hnames : ResolveNamespaces resolution.namespaces options.namespaces = .ok names)
    (hcursor : OfOrigins cursor origins)
    (h : Sat False (Collect (inScopeCluster backend names) (collectionRequest backend binding
      resolution options cursor origins names.length false "") fuel) P) :
    Sat False (collectResource backend binding resolution collection options cursor fuel) P := by
  unfold collectResource
  rw [listCursorMode_global hcursor hne hglobal]
  apply sat_pure_bind
  dsimp only
  rw [if_neg (by simp [hscope]), if_pos ⟨hpreferred, hcollection, hscope, rfl, hmany, .inl hsingle⟩]
  unfold podStrategy
  rw [hnames]
  refine sat_bind (globalStrategy_granted hauth horigins hgrant _ _ h) fun answered hanswered => ?_
  obtain ⟨result, rfl, hresult⟩ := hanswered
  exact sat_pure hresult

theorem collectResource_namespaces (hmode : listCursorMode cursor = .ok (false, cursor.isSome))
    (hscope : ¬ (preferredListNamespace resolution options = "" ∧ resolution.preferGlobal = true ∧
      options.namespaces = []))
    (hpods : preferredListNamespace resolution options = "" → collection = "pods" →
      resolution.preferGlobal = false → resolution.namespaces.length > 1 →
      options.namespaces.length ≠ 1 →
      ∃ sources, GlobalOriginsFor "pods" options.kinds = .ok sources ∧
        ¬ GlobalGrant verdict binding.generation sources)
    (hsize : ¬ (options.namespaces = [] ∧ resolution.namespaces.length > MaximumNamespaces))
    (hnames : ResolveNamespaces resolution.namespaces options.namespaces = .ok names)
    (horigins : OriginsFor collection names options.kinds = .ok origins)
    (h : Sat False (Collect backend.cluster (collectionRequest backend binding resolution options
      cursor origins names.length true (preferredListNamespace resolution options)) fuel) P) :
    Sat False (collectResource backend binding resolution collection options cursor fuel) P := by
  have hfanout : Sat False (namespaceStrategy backend binding resolution collection options cursor
      fuel (preferredListNamespace resolution options)) P := by
    unfold namespaceStrategy
    rw [if_neg hsize, hnames]
    apply sat_pure_bind
    rw [horigins]
    exact h
  unfold collectResource
  rw [hmode]
  apply sat_pure_bind
  dsimp only
  rw [if_neg fun hglobal => hscope ⟨hglobal.1, hglobal.2.1, hglobal.2.2.1⟩]
  split
  · next hcase =>
    -- The scoped Pod scan asks for the cluster-wide grant, and does not get it.
    obtain ⟨hpreferred, rfl, hlocal, _, hmany, hsingle⟩ := hcase
    have hsingle := hsingle.resolve_right (by simp)
    obtain ⟨sources, hsources, hdenied⟩ := hpods hpreferred rfl hlocal hmany hsingle
    unfold podStrategy
    rw [hnames]
    refine sat_bind (globalStrategy_fallsThrough hauth hsources hdenied _) fun answered hnone => ?_
    subst hnone
    exact hfanout
  · exact hfanout

end

/-! ## Following the cursor -/

theorem collectDirect_spec
    (h : Sat False (collectResource backend binding resolution collection options cursor fuel) P) :
    Sat False (collectDirect backend binding resolution collection options cursor fuel)
      fun result => ∃ listed, P listed ∧ result.items = backend.filterSort listed.items options ∧
        result.page.complete = listed.page.complete ∧ result.cursor = listed.cursor := by
  unfold collectDirect
  refine sat_bind (sat_tryCatch h) fun listed hlisted => ?_
  apply sat_pure
  refine ⟨listed, hlisted, ?_⟩
  unfold markCollectionScope
  split <;> exact ⟨rfl, rfl, rfl⟩

variable (backend binding resolution collection options fuel) in
/-- Ask for the next page until one is complete; at most `calls` times. -/
def drainDirect : Nat → Option (CompositeCursor T) → Effect σ Halt (List T)
  | 0, _ => throw .unfinished
  | calls + 1, cursor => do
    let result ← collectDirect backend binding resolution collection options cursor fuel
    if result.page.complete then
      return result.items
    else
      match result.cursor with
      | none => throw .unfinished
      | some cursor =>
        let rest ← drainDirect calls (some cursor)
        return result.items ++ rest

variable (backend binding resolution collection options) in
def DrainsDirect (P : List T → Prop) : Prop :=
  ∃ bound, ∀ fuel calls, bound ≤ fuel → bound ≤ calls →
    Sat False (drainDirect backend binding resolution collection options fuel calls none) P

variable (request : CollectionRequest T) {keep : T → Bool}
  (hfilter : ∀ items, backend.filterSort items options ~ items.filter keep)
  (lister : NativeLister cluster request.options (canonicalOrigins request.origins))
  (hallows : Allows cluster request.selection.generation (canonicalOrigins request.origins))
  (hrequest : Normalized request) (hlistable : Listable (canonicalOrigins request.origins))
  (hne : canonicalOrigins request.origins ≠ []) (hcluster : Faultless cluster)

include hfilter lister hallows hrequest hlistable hne hcluster

/-- If every page is made by `Collect`, the pages together hold the filtered rows.  By induction on
the calls that are left, as for `drain`. -/
theorem drainDirect_spec
    (hreduces : ∀ cursor P, OfOrigins cursor (canonicalOrigins request.origins) →
      Sat False (Collect cluster { request with cursor } fuel) P →
      Sat False (collectResource backend binding resolution collection options cursor fuel) P)
    (calls : Nat) :
    ∀ cursor start, OfOrigins cursor (canonicalOrigins request.origins) →
      startCursor { request with cursor } (canonicalOrigins request.origins) = .ok start →
      lister.Resumable start → ¬ Drained start.origins →
      lister.weight start.origins < fuel → lister.weight start.origins < calls →
      Sat False (drainDirect backend binding resolution collection options fuel calls cursor)
        fun items => items ~ (lister.contents start.origins).filter keep := by
  induction calls with
  | zero => exact fun _ _ _ _ _ _ _ h => absurd h (Nat.not_lt_zero _)
  | succ calls ih =>
    intro cursor start hof hcursor hstart hopen hfuel hcalls
    have hnormalized : Normalized { request with cursor } :=
      ⟨hrequest.generation, hrequest.context, hrequest.scope, hrequest.limit_pos, hrequest.limit_le,
        hrequest.grant⟩
    have hpage : Sat False (Collect cluster { request with cursor } fuel) fun result =>
        ∃ next, lister.Advances start result next :=
      @NativeLister.Collect_advances _ _ cluster { request with cursor } lister start hcluster
        hallows
        hnormalized hlistable hne hcursor hstart hopen fuel hfuel
    unfold drainDirect
    refine sat_bind (collectDirect_spec (hreduces cursor _ hof hpage)) fun result hresult => ?_
    obtain ⟨listed, ⟨next, hnext⟩, hitems, hcomplete, hresume⟩ := hresult
    have hrows : result.items ++ (lister.contents next.origins).filter keep ~
        (lister.contents start.origins).filter keep := by
      rw [hitems]
      apply ((hfilter listed.items).append_right _).trans
      rw [← filter_append]
      exact hnext.contents.symm.filter keep
    rw [hcomplete]
    split_ifs with hdone
    · apply sat_pure
      rw [NativeLister.contents_of_drained (hnext.complete.mp hdone), filter_nil,
        append_nil] at hrows
      exact hrows
    · rw [hresume, hnext.cursor]
      have hless := hnext.weight hopen
      have hvalid : startCursor { request with cursor := some next }
          (canonicalOrigins request.origins) = .ok next := by
        simp only [startCursor, hnext.resumable.validate hlistable hne]
        rfl
      have hnextof : OfOrigins (some next) (canonicalOrigins request.origins) := by
        intro c hc
        obtain rfl := Option.some.inj hc
        exact hnext.resumable.identity
      have hrest := ih (some next) next hnextof hvalid hnext.resumable
        (fun hdrained => hdone (hnext.complete.mpr hdrained)) (hless.trans hfuel) (by omega)
      refine sat_bind hrest fun rest hrest => ?_
      apply sat_pure
      exact (hrest.append_left _).trans hrows

theorem drainDirect_first
    (hreduces : ∀ fuel cursor P, OfOrigins cursor (canonicalOrigins request.origins) →
      Sat False (Collect cluster { request with cursor } fuel) P →
      Sat False (collectResource backend binding resolution collection options cursor fuel) P) :
    DrainsDirect backend binding resolution collection options fun items =>
      items ~ ((canonicalOrigins request.origins).flatMap lister.items).filter keep := by
  let start := NewCompositeCursor T (canonicalOrigins request.origins)
  refine ⟨lister.weight start.origins + 1, fun fuel calls hfuel hcalls => ?_⟩
  rw [← lister.new_contents]
  exact drainDirect_spec request hfilter lister hallows hrequest hlistable hne hcluster
    (hreduces fuel) calls none start (fun c hc => absurd hc (by simp)) rfl lister.new_resumable
    (NativeLister.new_not_drained hne) hfuel hcalls

end Kubepeep.Backend
