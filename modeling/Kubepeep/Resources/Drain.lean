import Kubepeep.Resources.Conservation
import Kubepeep.Resources.Origins

/-!
# Draining a collection

In a cluster that allows every LIST and serves every origin chunk by chunk, each window either
fetches a chunk or emits a row.  The rows that are buffered or still to be served never change as a
multiset, so following the cursor ends, with every row exactly once.
-/

open Nat List Kubepeep.Authorization Kubepeep.Effect

namespace Kubepeep.Resources

variable {σ T : Type}

/-! ## A cluster without faults -/

/-- A request as the adapters build it: bound to a selection, with a limit in range. -/
structure Normalized (request : CollectionRequest T) : Prop where
  generation : request.selection.generation ≠ ""
  context : request.selection.context ≠ ""
  scope : request.selection.scope ≠ ""
  limit_pos : 1 ≤ request.options.limit
  limit_le : request.options.limit ≤ MaximumListLimit
  grant : request.globalListGrant = none

variable {request : CollectionRequest T}

theorem Normalized.bound (h : Normalized request) :
    ¬ (request.selection.generation = "" ∨ request.selection.context = "" ∨
      request.selection.scope = "") := by
  simp [h.generation, h.context, h.scope]

theorem Normalized.limited (h : Normalized request) :
    ¬ (request.options.limit < 1 ∨ request.options.limit > MaximumListLimit) := by
  have hpos := h.limit_pos
  have hle := h.limit_le
  omega

def Allows (cluster : Cluster σ T) (generation : String) (origins : List Origin) : Prop :=
  ∀ origin ∈ origins, Always (cluster.check (listKey generation origin)) fun capability =>
    capability.decision = .DecisionAllowed

/-- The context never ends, and every job of the pool is started. -/
structure Faultless (cluster : Cluster σ T) : Prop where
  context : Always cluster.contextErr fun err => err = none
  scheduled : ∀ indices, Always (cluster.schedule indices) fun order => order.val.Perm indices

/-- A lister that serves a finite list per origin in chunks of its own choice.  A continuation
stands for the rest of its origin's list; `rank` bounds the chunks that are left. -/
structure NativeLister (cluster : Cluster σ T) (options : ListOptions) (origins : List Origin) where
  items : Origin → List T
  rest : Origin → String → List T
  rank : Origin → String → Nat
  issued : Origin → String → Prop
  issued_start : ∀ origin, issued origin ""
  rest_start : ∀ origin, rest origin "" = items origin
  answers : ∀ (request : PageRequest) s, request.origin ∈ origins → 1 ≤ request.limit →
    request.labelSelector = options.labelSelector →
    request.fieldSelector = options.fieldSelector →
    issued request.origin request.continueToken →
    ((cluster.listPage request).run s).1.2 = none ∧
    let page := ((cluster.listPage request).run s).1.1
    if page.continueToken = "" then
      rest request.origin request.continueToken = page.items
    else
      rest request.origin request.continueToken =
        page.items ++ rest request.origin page.continueToken ∧
      issued request.origin page.continueToken ∧
      page.continueToken ≠ request.continueToken ∧
      page.continueToken.utf8ByteSize ≤ MaximumCursorBytes ∧
      rank request.origin page.continueToken < rank request.origin request.continueToken

variable {cluster : Cluster σ T} {request : CollectionRequest T} {origins : List Origin}

theorem Allows.authorizeOrigin {origins : List Origin} (request : CollectionRequest T)
    (hallows : Allows cluster request.selection.generation origins)
    (hgrant : ∀ capability, request.globalListGrant = some capability →
      capability.decision = .DecisionAllowed) {origin : Origin} (hmem : origin ∈ origins) :
    Always (authorizeOrigin cluster request origin) fun outcome =>
      outcome.capability.decision = .DecisionAllowed ∧ outcome.err = none := by
  unfold Resources.authorizeOrigin
  split
  · next grant hsome => exact always_pure ⟨hgrant grant hsome, rfl⟩
  · refine always_bind (hallows origin hmem) fun capability hallowed => ?_
    rw [if_pos (.inl (by simp [hallowed]))]
    exact always_pure ⟨hallowed, rfl⟩

theorem Faultless.retryListPage (hcluster : Faultless cluster) {request : PageRequest}
    (hanswer : ∀ s, ((cluster.listPage request).run s).1.2 = none) (policy : RetryPolicy) :
    Always (retryListPage cluster request policy) fun (page, err, _) =>
      ∃ s, (page, err) = ((cluster.listPage request).run s).1 := by
  unfold Resources.retryListPage
  obtain ⟨left, hleft⟩ := Nat.exists_eq_add_of_le' (one_le_attempts policy)
  dsimp only
  rw [hleft]
  unfold retryLoop
  refine always_bind hcluster.context ?_
  rintro _ rfl
  refine always_bind (always_run _) ?_
  rintro ⟨page, err⟩ ⟨s, hs⟩
  have herr : err = none := by
    have := hanswer s
    rwa [← hs] at this
  subst herr
  exact always_pure ⟨s, hs⟩

/-! ## What an origin still stands for -/

namespace NativeLister

variable {options : ListOptions} (lister : NativeLister cluster options origins)

def tail (state : OriginCursor T) : List T :=
  if state.exhausted then [] else lister.rest state.origin state.continueToken

def pending (state : OriginCursor T) : Nat :=
  if state.exhausted then 0 else lister.rank state.origin state.continueToken + 1

def contents (states : List (OriginCursor T)) : List T :=
  states.flatMap fun state => state.buffered ++ lister.tail state

def weight (states : List (OriginCursor T)) : Nat :=
  (lister.contents states).length + (states.map lister.pending).sum

structure Serves (state : OriginCursor T) : Prop where
  issued : state.exhausted = false → lister.issued state.origin state.continueToken
  token : state.continueToken.utf8ByteSize ≤ MaximumCursorBytes
  exhausted : state.exhausted = true → state.continueToken = ""

structure Brings (state : OriginCursor T) (page : OriginPage T) : Prop where
  key : page.origin.Key = state.origin.Key
  progress : page.continueToken ≠ "" → page.continueToken ≠ state.continueToken
  token : page.continueToken.utf8ByteSize ≤ MaximumCursorBytes
  issued : page.continueToken ≠ "" → lister.issued state.origin page.continueToken
  rest : lister.rest state.origin state.continueToken =
    page.items ++
      if page.continueToken = "" then [] else lister.rest state.origin page.continueToken
  rank : page.continueToken ≠ "" →
    lister.rank state.origin page.continueToken < lister.rank state.origin state.continueToken

variable {state : OriginCursor T} {page : OriginPage T}

theorem brings_of_answer (hmem : state.origin ∈ origins)
    (hissued : lister.issued state.origin state.continueToken) {limit : Int} (hlimit : 1 ≤ limit)
    (s : σ) {err : Option ReadError}
    (h : (page, err) = ((cluster.listPage ⟨state.origin, limit, state.continueToken,
      options.labelSelector, options.fieldSelector⟩).run s).1) :
    err = none ∧ lister.Brings state
      (if page.origin.Key = "///" then { page with origin := state.origin } else page) := by
  obtain ⟨herr, hchunk⟩ := lister.answers ⟨state.origin, limit, state.continueToken,
    options.labelSelector, options.fieldSelector⟩ s hmem hlimit rfl rfl hissued
  have horigin := cluster.listPage_origin ⟨state.origin, limit, state.continueToken,
    options.labelSelector, options.fieldSelector⟩ s
  rw [← h] at herr hchunk horigin
  dsimp only at herr hchunk horigin
  refine ⟨herr, ?_⟩
  -- A page without an origin gets the one it was asked for.
  have hpage : ∃ origin, origin.Key = state.origin.Key ∧
      (if page.origin.Key = "///" then { page with origin := state.origin } else page) =
        { page with origin := origin } := by
    split
    · exact ⟨state.origin, rfl, rfl⟩
    · next hnonzero =>
      refine ⟨page.origin, ?_, rfl⟩
      cases horigin with
      | inl heq => rw [heq]
      | inr hzero => exact absurd (by rw [hzero]; decide) hnonzero
  obtain ⟨origin, hkey, heq⟩ := hpage
  rw [heq]
  split at hchunk
  · next hlast =>
    exact ⟨hkey, by simp [hlast], by simp [hlast], by simp [hlast], by simp [hlast, hchunk],
      by simp [hlast]⟩
  · next hmore =>
    exact ⟨hkey, fun _ => hchunk.2.2.1, hchunk.2.2.2.1, fun _ => hchunk.2.1,
      by simpa [hmore] using hchunk.1, fun _ => hchunk.2.2.2.2⟩

variable {outcome : OriginOutcome T} (lister : NativeLister cluster request.options origins)

theorem fetched (hcluster : Faultless cluster)
    (hmem : state.origin ∈ origins) (hissued : lister.issued state.origin state.continueToken)
    (h : Fetched cluster request state outcome) :
    outcome.err = none ∧ outcome.authoritative = true ∧ lister.Brings state outcome.page := by
  obtain ⟨s, limit, capability, probed, hlimit, _, rfl⟩ := h
  have hanswer : ∀ s, ((cluster.listPage ⟨state.origin, limit, state.continueToken,
      request.options.labelSelector, request.options.fieldSelector⟩).run s).1.2 = none := fun s =>
    (lister.answers _ s hmem hlimit rfl rfl hissued).1
  have hfetch : Always (fetchOrigin cluster request state limit capability probed) fun outcome =>
      outcome.err = none ∧ outcome.authoritative = true ∧ lister.Brings state outcome.page := by
    unfold fetchOrigin
    refine always_bind (hcluster.retryListPage hanswer request.retry) ?_
    rintro ⟨page, err, _⟩ ⟨s, hs⟩
    obtain ⟨rfl, hbrings⟩ := lister.brings_of_answer hmem hissued hlimit s hs
    exact always_pure ⟨rfl, rfl, hbrings⟩
  exact hfetch s

theorem applyOriginPage_brings (h : lister.Brings state page) (less : T → T → Bool) :
    applyOriginPage state page less = .ok (state.absorb page less) := by
  unfold applyOriginPage
  rw [if_neg (not_not.mpr h.key.symm), if_neg fun hsame => h.progress hsame.1 hsame.2]

theorem tail_absorb (h : lister.Brings state page)
    (hopen : state.exhausted = false) (less : T → T → Bool) :
    lister.tail state = page.items ++ lister.tail (state.absorb page less) := by
  have hexhausted : (state.absorb page less).exhausted = (page.continueToken == "") := rfl
  unfold tail
  rw [hopen, hexhausted, if_neg (by simp), h.rest]
  simp only [beq_iff_eq]
  rfl

theorem absorb_brings (h : lister.Brings state page)
    (hopen : state.exhausted = false) (less : T → T → Bool) :
    lister.Serves (state.absorb page less) ∧
      ((state.absorb page less).buffered ++ lister.tail (state.absorb page less)) ~
        (state.buffered ++ lister.tail state) ∧
      lister.pending (state.absorb page less) < lister.pending state := by
  have hexhausted : (state.absorb page less).exhausted = (page.continueToken == "") := rfl
  have hbuffered : (state.absorb page less).buffered ~ (state.buffered ++ page.items) :=
    perm_insertionSort _ _
  refine ⟨⟨?_, h.token, ?_⟩, ?_, ?_⟩
  · intro hmore
    exact h.issued (by simpa [hexhausted] using hmore)
  · intro hlast
    exact (by simpa [hexhausted] using hlast : page.continueToken = "")
  · rw [lister.tail_absorb h hopen less, ← append_assoc]
    exact hbuffered.append_right _
  · unfold pending
    rw [hopen, hexhausted]
    by_cases hlast : page.continueToken = ""
    · simp [hlast]
    · have hrank := h.rank hlast
      simp only [hlast, beq_iff_eq, if_false, Bool.false_eq_true]
      exact succ_lt_succ hrank

variable {before after : List (OriginCursor T)}

variable {states : List (OriginCursor T)} {index : Nat}

theorem set_split (hi : states[index]? = some state) (next : OriginCursor T) :
    ∃ l₁ l₂, states = l₁ ++ state :: l₂ ∧ states.set index next = l₁ ++ next :: l₂ := by
  obtain ⟨hlt, hget⟩ := List.getElem?_eq_some_iff.mp hi
  obtain ⟨l₁, l₂, hstates, _, hset⟩ := List.exists_of_set hlt
  exact ⟨l₁, l₂, hget ▸ hstates, hset⟩

theorem set_contents {next : OriginCursor T} (hi : states[index]? = some state)
    (hrows : (next.buffered ++ lister.tail next) ~ (state.buffered ++ lister.tail state))
    (hpending : lister.pending next < lister.pending state) :
    lister.contents (states.set index next) ~ lister.contents states ∧
      lister.weight (states.set index next) < lister.weight states := by
  obtain ⟨l₁, l₂, hstates, hset⟩ := set_split hi next
  have hcontents : lister.contents (states.set index next) ~ lister.contents states := by
    rw [hset, hstates]
    simp only [contents, flatMap_append, flatMap_cons]
    exact (hrows.append_right _).append_left _
  refine ⟨hcontents, ?_⟩
  have hweight := hcontents.length_eq
  unfold weight
  rw [hset, hstates] at hweight ⊢
  simp only [map_append, map_cons, sum_append_nat, sum_cons]
  omega

structure Keeps (start : List (OriginCursor T)) (window : Window T) : Prop where
  identity : window.origins.map (·.origin) = origins
  serves : ∀ state ∈ window.origins, lister.Serves state
  contents : lister.contents window.origins ~ lister.contents start
  weight : lister.weight window.origins ≤ lister.weight start
  clean : ∀ outcome ∈ window.outcomes, outcome.capability.decision = .DecisionAllowed ∧
    outcome.err = none ∧ outcome.page.origin.Key ∈ origins.map Origin.Key

def Live (start : List (OriginCursor T)) (window : Window T) : Prop :=
  ∃ outcome ∈ window.outcomes, outcome.authoritative = true ∧
    (lister.weight window.origins < lister.weight start ∨
      ∃ state ∈ window.origins, state.origin.Key = outcome.page.origin.Key ∧ state.buffered ≠ [])

variable {lister}

variable {start : List (OriginCursor T)} {window : Window T}

theorem Keeps.origin_mem (h : lister.Keeps start window) (hmem : state ∈ window.origins) :
    state.origin ∈ origins :=
  h.identity ▸ mem_map_of_mem hmem

theorem Keeps.record (h : lister.Keeps start window)
    (houtcome : outcome.capability.decision = .DecisionAllowed ∧ outcome.err = none ∧
      outcome.page.origin.Key ∈ origins.map Origin.Key) :
    lister.Keeps start (window.record outcome) where
  identity := h.identity
  serves := h.serves
  contents := h.contents
  weight := h.weight
  clean := by
    simp only [Window.record, forall_mem_append, mem_singleton, forall_eq]
    exact ⟨h.clean, houtcome⟩

theorem Live.record (h : lister.Live start window) (outcome : OriginOutcome T) :
    lister.Live start (window.record outcome) := by
  obtain ⟨earlier, hmem, hauthoritative, hmoved⟩ := h
  exact ⟨earlier, mem_append_left _ hmem, hauthoritative, hmoved⟩

theorem Keeps.advance {lister : NativeLister cluster request.options origins}
    (hcluster : Faultless cluster)
    (h : lister.Keeps start window)
    (hi : window.origins[index]? = some state) (hopen : state.exhausted = false)
    (hf : Fetched cluster request state outcome) :
    lister.Keeps start (window.advance index (state.absorb outcome.page request.less) outcome) ∧
    lister.Live start (window.advance index (state.absorb outcome.page request.less) outcome) ∧
    lister.weight (window.advance index (state.absorb outcome.page request.less) outcome).origins <
      lister.weight window.origins := by
  have hmem := mem_of_getElem? hi
  obtain ⟨herr, hauthoritative, hbrings⟩ := lister.fetched hcluster (h.origin_mem hmem)
    ((h.serves state hmem).issued hopen) hf
  obtain ⟨hserves, hrows, hpending⟩ := lister.absorb_brings hbrings hopen request.less
  obtain ⟨hcontents, hweight⟩ := lister.set_contents hi hrows hpending
  have hlive : lister.Live start
      (window.advance index (state.absorb outcome.page request.less) outcome) :=
    ⟨outcome, by simp [Window.advance], hauthoritative, .inl (hweight.trans_le h.weight)⟩
  refine ⟨⟨?_, ?_, hcontents.trans h.contents, hweight.le.trans h.weight, ?_⟩, hlive, hweight⟩
  · exact (window.advance_map_origin hi (state.absorb _ _) outcome rfl).trans h.identity
  · intro other hother
    cases mem_or_eq_of_mem_set hother with
    | inl hold => exact h.serves other hold
    | inr hnew => exact hnew ▸ hserves
  · simp only [Window.advance, forall_mem_append, mem_singleton, forall_eq]
    refine ⟨h.clean, hf.allowed herr, herr, ?_⟩
    rw [hbrings.key]
    exact mem_map_of_mem (h.origin_mem hmem)

theorem windowRule
    (hcluster : Faultless cluster) (hallows : Allows cluster request.selection.generation origins)
    {grant : Option Capability}
    (hgrant : ∀ capability, grant = some capability → capability.decision = .DecisionAllowed)
    (hscope : (∀ origin ∈ origins, origin.namespaceName ≠ "") ∨ origins.length = 1)
    {fuel : Nat} (hfuel : lister.weight start < fuel) :
    WindowRule cluster { request with globalListGrant := grant } False fuel (lister.Keeps start)
      (lister.Live start) lister.weight where
  review := by
    intro window index state outcome h hi hr
    have hpage := hr.page_eq
    obtain ⟨s, authoritative, rfl, _⟩ := hr
    have hmem := mem_of_getElem? hi
    have hclean := Allows.authorizeOrigin { request with globalListGrant := grant } hallows hgrant
      (h.origin_mem hmem) s
    refine ⟨h.record ⟨hclean.1, hclean.2, ?_⟩, fun hlive => hlive.record _, ?_⟩
    · rw [hpage]
      exact mem_map_of_mem (h.origin_mem hmem)
    · intro hauthoritative hrows
      exact ⟨_, mem_append_right _ (mem_singleton_self _), hauthoritative,
        .inr ⟨state, hmem, by rw [hpage]; rfl, hrows⟩⟩
  failed := by
    intro window index state outcome h hi hopen hf herr
    have hmem := mem_of_getElem? hi
    have hnone := (lister.fetched hcluster (h.origin_mem hmem)
      ((h.serves state hmem).issued hopen) hf).1
    simp [hnone] at herr
  rejected := by
    intro window index state outcome err h hi hopen hf happly _
    have hmem := mem_of_getElem? hi
    have hbrings := (lister.fetched hcluster (h.origin_mem hmem)
      ((h.serves state hmem).issued hopen) hf).2.2
    rw [lister.applyOriginPage_brings hbrings] at happly
    cases happly
  fetched := by
    intro window index state outcome next h hi hopen hf herr happly
    obtain ⟨_, rfl⟩ := applyOriginPage_ok happly
    obtain ⟨hkeeps, hlive, hweight⟩ := h.advance hcluster hi hopen hf
    exact ⟨hkeeps, hlive, fun _ => hweight⟩
  context := by
    intro s hs
    have := hcluster.context s
    simp [this] at hs
  allowed := by
    intro window index state outcome h hi hr
    obtain ⟨s, _, rfl, _⟩ := hr
    exact .inr (Allows.authorizeOrigin { request with globalListGrant := grant } hallows hgrant
      (h.origin_mem (mem_of_getElem? hi)) s).1
  scheduled indices s := .inr (hcluster.scheduled indices s)
  enough h := .inr (h.weight.trans_lt hfuel)
  namespaced := by
    intro window h
    rcases hscope with hall | hsingle
    · exact .inr (.inl fun state hmem => hall _ (h.origin_mem hmem))
    · refine .inr (.inr ?_)
      rw [← hsingle, ← h.identity, length_map]

/-! ## One window -/

/-- A cursor that the next call accepts and the lister can continue. -/
structure Resumable (lister : NativeLister cluster options origins)
    (cursor : CompositeCursor T) : Prop where
  version : cursor.version = 1
  identity : cursor.origins.map (·.origin) = origins
  serves : ∀ state ∈ cursor.origins, lister.Serves state

theorem Serves.of_emitted {rows : List T} {before after : OriginCursor T}
    (h : Emitted rows before after) (hserves : lister.Serves before) : lister.Serves after := by
  refine ⟨?_, ?_, ?_⟩
  · rw [h.exhausted, h.origin, h.continueToken]
    exact hserves.issued
  · rw [h.continueToken]
    exact hserves.token
  · rw [h.exhausted, h.continueToken]
    exact hserves.exhausted

variable {rows : List (Nat × T)}

theorem Resumable.of_emitted {before after : CompositeCursor T}
    (h : lister.Resumable before) (hversion : after.version = before.version)
    (hemitted : EmittedAll rows before.origins after.origins) : lister.Resumable after := by
  refine ⟨hversion.trans h.version, hemitted.map_origin.trans h.identity, fun state hmem => ?_⟩
  obtain ⟨index, hindex⟩ := List.mem_iff_getElem?.mp hmem
  have hlt : index < before.origins.length := hemitted.1 ▸ (List.getElem?_eq_some_iff.mp hindex).1
  obtain ⟨a, ha, hstate⟩ := hemitted.2 index _ (List.getElem?_eq_getElem hlt)
  obtain rfl := Option.some.inj (ha.symm.trans hindex)
  exact Serves.of_emitted hstate (h.serves _ (List.getElem_mem hlt))

theorem weight_of_emitted (lister : NativeLister cluster options origins)
    (h : EmittedAll rows before after) (hvalid : ∀ row ∈ rows, row.1 < before.length) :
    lister.contents before ~ (rows.map (·.2) ++ lister.contents after) ∧
      lister.weight before = rows.length + lister.weight after := by
  have htail : ∀ rows b a, Emitted rows b a → lister.tail a = lister.tail b := by
    intro rows b a hemitted
    rw [tail, hemitted.exhausted, hemitted.origin, hemitted.continueToken, tail]
  have hpending : after.map lister.pending = before.map lister.pending :=
    h.map_eq fun rows b a hemitted => by
      rw [pending, hemitted.exhausted, hemitted.origin, hemitted.continueToken, pending]
  have hcontents := EmittedAll.contents htail before rows after h hvalid
  refine ⟨hcontents, ?_⟩
  have hlength := hcontents.length_eq
  rw [length_append, length_map] at hlength
  unfold weight contents
  rw [hpending]
  omega

structure Advances (lister : NativeLister cluster options origins)
    (start : CompositeCursor T) (result : ListResult T) (next : CompositeCursor T) : Prop where
  resumable : lister.Resumable next
  cursor : result.cursor = some next
  contents : lister.contents start.origins ~ (result.items ++ lister.contents next.origins)
  complete : result.page.complete = true ↔ Drained next.origins
  weight : ¬ Drained start.origins → lister.weight next.origins < lister.weight start.origins

theorem Keeps.aggregates_clean
    (h : lister.Keeps start window) : Clean (aggregates window.outcomes) := by
  intro key current hknown
  have hdescribes := Aggregate.describes_of_eq hknown
  have hvisits : ∀ outcome ∈ visits key window.outcomes,
      outcome.capability.decision = .DecisionAllowed ∧ outcome.err = none := by
    intro outcome houtcome
    have hclean := h.clean outcome (mem_of_mem_filter houtcome)
    exact ⟨hclean.1, hclean.2.1⟩
  refine ⟨?_, ?_⟩
  · obtain ⟨last, hlast, heq⟩ := Option.map_eq_some_iff.mp hdescribes.capability
    rw [← heq]
    exact (hvisits last (mem_of_getLast? hlast)).1
  · rw [hdescribes.failure, findSome?_eq_none_iff]
    intro outcome houtcome
    rw [OriginOutcome.failure, (hvisits outcome houtcome).2, Option.map_none]

theorem Keeps.entry (h : lister.Keeps start window)
    (hmem : outcome ∈ window.outcomes) : ∃ origin ∈ origins,
      origin.Key = outcome.page.origin.Key ∧ ∃ current,
        aggregates window.outcomes origin.Key = some current ∧
        (outcome.authoritative = true → current.authoritative = true) := by
  obtain ⟨_, herr, hkey⟩ := h.clean outcome hmem
  obtain ⟨origin, horigin, hkey⟩ := mem_map.mp hkey
  have hvisit : outcome ∈ visits origin.Key window.outcomes :=
    mem_filter.mpr ⟨hmem, by simp [hkey]⟩
  refine ⟨origin, horigin, hkey, ?_⟩
  cases hknown : aggregates window.outcomes origin.Key with
  | none => exact absurd (aggregates_eq_none_iff.mp hknown) (ne_nil_of_mem hvisit)
  | some current =>
    refine ⟨current, rfl, fun hauthoritative => ?_⟩
    rw [(Aggregate.describes_of_eq hknown).authoritative, any_eq_true]
    exact ⟨outcome, hvisit, by simp [herr, hauthoritative]⟩

variable {cursor : CompositeCursor T}

theorem Resumable.validate
    {lister : NativeLister cluster request.options (canonicalOrigins request.origins)}
    (hlistable : Listable (canonicalOrigins request.origins))
    (hne : canonicalOrigins request.origins ≠ [])
    (h : lister.Resumable cursor) :
    cursor.Validate (canonicalOrigins request.origins) = .ok () := by
  have hlength : cursor.origins.length = (canonicalOrigins request.origins).length := by
    rw [← h.identity, length_map]
  refine validate_eq_ok_iff.mpr ⟨h.version, fun hnil => hne ?_, hlength, ?_, ?_⟩
  · rw [← h.identity, hnil, map_nil]
  · intro index state origin hstate horigin
    have hsame : state.origin = origin := by
      rw [← h.identity, getElem?_map, hstate] at horigin
      exact Option.some.inj horigin
    have hserves := h.serves state (mem_of_getElem? hstate)
    have hmem := mem_of_getElem? horigin
    rw [← hsame] at hmem
    exact ⟨hlistable.version _ hmem, hlistable.resource _ hmem, by rw [hsame], hserves.token,
      hserves.exhausted⟩
  · have hkeys := congrArg (map Origin.Key) h.identity
    rw [map_map] at hkeys
    exact hkeys ▸ hlistable.nodup

theorem complete_iff_drained :
    cursor.Complete = true ↔ Drained cursor.origins := by
  simp [CompositeCursor.Complete, Drained, List.all_eq_true, List.isEmpty_iff]

section

variable {request : CollectionRequest T}
  {lister : NativeLister cluster request.options (canonicalOrigins request.origins)}
  {start : CompositeCursor T}

theorem publish_advances (hlistable : Listable (canonicalOrigins request.origins))
    (hne : canonicalOrigins request.origins ≠ []) (hrequest : Normalized request)
    (grant : Option Capability) (hstart : lister.Resumable start)
    {window : Window T}
    (hkeeps : lister.Keeps start.origins window) (hlive : lister.Live start.origins window) :
    ∃ result trace, publish { request with globalListGrant := grant }
        (canonicalOrigins request.origins) start { start with origins := window.origins }
        window.outcomes = .ok (result, trace) ∧ lister.Advances start result trace.next := by
  obtain ⟨outcome, houtcome, hauthoritative, hmoved⟩ := hlive
  obtain ⟨origin, horigin, hkey, current, hknown, hcurrent⟩ := hkeeps.entry houtcome
  have hclean := hkeeps.aggregates_clean
  have hgrows := foldl_step_grows hclean (canonicalOrigins request.origins) .empty
  obtain ⟨hallowed, hsuccess⟩ := hgrows.counted origin horigin current hknown
  have hadmitted := summarize_of_admits horigin (hclean.admits hknown)
  have hexpired : window.outcomes.any isExpired = false := by
    rw [List.any_eq_false]
    intro other hother
    simp [isExpired, (hkeeps.clean other hother).2.1]
  obtain ⟨items, next, hmerge⟩ := mergePreferredNamespace_ok
    { start with origins := window.origins } { request with globalListGrant := grant }
    hrequest.limit_pos hrequest.limit_le
    (summarize (aggregates window.outcomes) (canonicalOrigins request.origins)).allowedOrigins
  obtain ⟨hversion, hemitted, hfrom⟩ := mergePreferredNamespace_spec hmerge
  have hwindow : lister.Resumable { start with origins := window.origins } :=
    ⟨hstart.version, hkeeps.identity, hkeeps.serves⟩
  have hnext := hwindow.of_emitted hversion hemitted
  obtain ⟨result, trace, hpublish⟩ := publish_eq_ok start hexpired
    (Summary.verdict_ok hallowed (hsuccess (hcurrent hauthoritative))) hmerge
    (hnext.validate hlistable hne)
  have hpublished := publish_ok hpublish
  obtain ⟨rfl, rfl⟩ : items = trace.emitted ∧ next = trace.next := by
    have := hmerge.symm.trans hpublished.merged
    rw [Except.ok.injEq, Prod.mk.injEq] at this
    exact this
  obtain ⟨hcontents, hweight⟩ := lister.weight_of_emitted hemitted fun row hrow => by
    obtain ⟨state, hstate, _⟩ := hfrom row hrow
    exact (List.getElem?_eq_some_iff.mp hstate).1
  refine ⟨result, trace, hpublish, hnext, ?_, ?_, ?_, fun _ => ?_⟩
  · rw [hpublished.cursor_eq, advertised_of_clean hclean, if_pos rfl]
  · rw [hpublished.items_eq]
    exact hkeeps.contents.symm.trans hcontents
  · have hfailed : (summarize (aggregates window.outcomes)
        (canonicalOrigins request.origins)).failed = [] := hgrows.failed
    rw [hpublished.complete_eq, hfailed, List.isEmpty_nil, Bool.and_true, complete_iff_drained]
  · cases hmoved with
    | inl hless =>
      have : lister.weight trace.next.origins ≤ lister.weight window.origins := by
        dsimp only at hweight
        omega
      exact this.trans_lt hless
    | inr hrows =>
      -- The origin with rows is admitted, so the page is not empty.
      obtain ⟨state, hmem, hstate, hbuffered⟩ := hrows
      have hoffers := mergePreferredNamespace_ne_nil hrequest.limit_pos hmerge
        ⟨state, hmem, by rw [hstate, ← hkey]; exact hadmitted, hbuffered⟩
      have := List.length_pos_iff.mpr hoffers
      have := hkeeps.weight
      dsimp only at hweight
      omega

theorem Collect_advances (hcluster : Faultless cluster)
    (hallows : Allows cluster request.selection.generation (canonicalOrigins request.origins))
    (hrequest : Normalized request) (hlistable : Listable (canonicalOrigins request.origins))
    (hne : canonicalOrigins request.origins ≠ [])
    (hcursor : startCursor request (canonicalOrigins request.origins) = .ok start)
    (hstart : lister.Resumable start) (hopen : ¬ Drained start.origins) {fuel : Nat}
    (hfuel : lister.weight start.origins < fuel) :
    Sat False (Collect cluster request fuel) fun result =>
      ∃ next, lister.Advances start result next := by
  have htraced : Sat False (collectTraced cluster request fuel) fun out =>
      ∃ next, lister.Advances start out.1 next := by
    apply collectTraced_sat
    · exact hrequest.bound
    · exact hrequest.limited
    · exact fun hempty => absurd hempty hne
    · intro _ err herr
      rw [hcursor] at herr
      cases herr
    · intro _ grant start' hgranted _ _ hstart'
      obtain rfl : start = start' := Except.ok.inj (hcursor.symm.trans hstart')
      have hallowed : ∀ capability, grant = some capability →
          capability.decision = .DecisionAllowed := fun _ => hgranted.allowed hrequest.grant
      have hselected : globalOrigins (canonicalOrigins request.origins) = false ∨
          start.origins.length = 1 := by
        rcases hlistable.scope with hall | hsingle
        · rw [← hstart.identity]
          exact .inl (WindowRule.globalOrigins_eq_false fun state hmem =>
            hall _ (hstart.identity ▸ mem_map_of_mem hmem))
        · rw [← hstart.identity, length_map] at hsingle
          exact .inr hsingle
      have hkeeps : lister.Keeps start.origins ⟨start.origins, []⟩ :=
        ⟨hstart.identity, hstart.serves, .refl _, le_rfl, by simp⟩
      apply (lister.windowRule hcluster hallows hallowed hlistable.scope hfuel).window_spec
        hrequest.limit_pos (.inr hselected) hkeeps
      · intro window out hafter hlive hpublish
        obtain ⟨result, trace, hok, hadvances⟩ := publish_advances hlistable hne
          hrequest grant hstart hafter.inv ((hlive hopen).resolve_left id)
        obtain rfl := Except.ok.inj (hok.symm.trans hpublish)
        exact ⟨trace.next, hadvances⟩
      · intro window err hafter hlive hpublish
        obtain ⟨result, trace, hok, _⟩ := publish_advances hlistable hne
          hrequest grant hstart hafter.inv ((hlive hopen).resolve_left id)
        exact absurd (hok.symm.trans hpublish) (by simp)
  exact sat_bind htraced fun out hout => sat_pure hout

theorem contents_of_drained (h : Drained states) :
    lister.contents states = [] := by
  unfold contents
  rw [flatMap_eq_nil_iff]
  intro state hmem
  simp [tail, h state hmem]

variable (lister : NativeLister cluster request.options (canonicalOrigins request.origins))

theorem new_resumable :
    lister.Resumable (NewCompositeCursor T (canonicalOrigins request.origins)) := by
  refine ⟨rfl, ?_, ?_⟩
  · simp [NewCompositeCursor, canonicalOrigins_canonicalOrigins, Function.comp_def]
  · intro state hmem
    obtain ⟨origin, _, rfl⟩ := mem_map.mp hmem
    exact ⟨fun _ => lister.issued_start origin, zero_le _, by simp⟩

theorem new_contents :
    lister.contents (NewCompositeCursor T (canonicalOrigins request.origins)).origins =
      (canonicalOrigins request.origins).flatMap lister.items := by
  simp [NewCompositeCursor, canonicalOrigins_canonicalOrigins, contents, tail, lister.rest_start,
    flatMap_map]

theorem new_not_drained (hne : canonicalOrigins request.origins ≠ []) :
    ¬ Drained (NewCompositeCursor T (canonicalOrigins request.origins)).origins := by
  obtain ⟨origin, hmem⟩ := exists_mem_of_ne_nil _ hne
  intro h
  have := h ⟨origin, "", "", false, []⟩ (by
    simpa [NewCompositeCursor, canonicalOrigins_canonicalOrigins] using hmem)
  simp at this

end

end NativeLister

/-! ## Following the cursor -/

/-- Call `Collect` with the cursor it returned until a page is complete; at most `calls` times. -/
def drain (cluster : Cluster σ T) (fuel : Nat) :
    Nat → CollectionRequest T → Effect σ Halt (List T)
  | 0, _ => throw .unfinished
  | calls + 1, request => do
    let result ← Collect cluster request fuel
    if result.page.complete then
      return result.items
    else
      match result.cursor with
      | none => throw .unfinished
      | some cursor =>
        let rest ← drain cluster fuel calls { request with cursor := some cursor }
        return result.items ++ rest

/-- By induction on the calls that are left: every call makes the cursor lighter. -/
theorem drain_spec (hcluster : Faultless cluster) {fuel : Nat} (calls : Nat) :
    ∀ (request : CollectionRequest T)
      (lister : NativeLister cluster request.options (canonicalOrigins request.origins)),
      Allows cluster request.selection.generation (canonicalOrigins request.origins) →
      Normalized request → Listable (canonicalOrigins request.origins) →
      canonicalOrigins request.origins ≠ [] → ∀ start,
      startCursor request (canonicalOrigins request.origins) = .ok start →
      lister.Resumable start → ¬ Drained start.origins →
      lister.weight start.origins < fuel → lister.weight start.origins < calls →
      Sat False (drain cluster fuel calls request) fun items =>
        items ~ lister.contents start.origins := by
  induction calls with
  | zero => exact fun _ _ _ _ _ _ _ _ _ _ _ h => absurd h (not_lt_zero _)
  | succ calls ih =>
    intro request lister hallows hrequest hlistable hne start hcursor hstart hopen hfuel hcalls
    unfold drain
    refine sat_bind (NativeLister.Collect_advances hcluster hallows hrequest hlistable hne hcursor
      hstart hopen hfuel) fun result ⟨next, hnext⟩ => ?_
    have hless := hnext.weight hopen
    split
    · next hcomplete =>
      apply sat_pure
      have hcontents := hnext.contents
      rw [NativeLister.contents_of_drained (hnext.complete.mp hcomplete), append_nil]
        at hcontents
      exact hcontents.symm
    · next hmore =>
      rw [hnext.cursor]
      have hresume : startCursor { request with cursor := some next }
          (canonicalOrigins request.origins) = .ok next := by
        simp only [startCursor, hnext.resumable.validate hlistable hne]
        rfl
      refine sat_bind (ih { request with cursor := some next } lister hallows ⟨hrequest.generation,
        hrequest.context, hrequest.scope, hrequest.limit_pos, hrequest.limit_le, hrequest.grant⟩
        hlistable hne next hresume hnext.resumable (fun h => hmore (hnext.complete.mpr h))
        (hless.trans hfuel) (by omega)) fun rest hrest => ?_
      apply sat_pure
      exact (hrest.append_left _).trans hnext.contents.symm

def NativeLister.restrict {options : ListOptions} {origins other : List Origin}
    (lister : NativeLister cluster options origins) (h : ∀ origin ∈ other, origin ∈ origins) :
    NativeLister cluster options other :=
  { lister with answers := fun request s hmem => lister.answers request s (h _ hmem) }

theorem drain_no_origins (hrequest : Normalized request)
    (hempty : canonicalOrigins request.origins = []) (fuel calls : Nat) :
    Sat False (drain cluster fuel (calls + 1) request) fun items => items = [] := by
  have htraced : Sat False (collectTraced cluster request fuel) fun out =>
      out.1.items = [] ∧ out.1.page.complete = true := by
    apply collectTraced_sat
    · exact hrequest.bound
    · exact hrequest.limited
    · exact fun _ _ hitems _ hcomplete => ⟨hitems, hcomplete⟩
    · exact fun hne => absurd hempty hne
    · exact fun hne => absurd hempty hne
  have hcollect : Sat False (Collect cluster request fuel) fun result =>
      result.items = [] ∧ result.page.complete = true :=
    sat_bind htraced fun out hout => sat_pure hout
  unfold drain
  refine sat_bind hcollect fun result hresult => ?_
  rw [if_pos hresult.2]
  exact sat_pure hresult.1

theorem drain_first (hcluster : Faultless cluster)
    (hallows : Allows cluster request.selection.generation request.origins)
    (hlistable : Listable (canonicalOrigins request.origins)) (hrequest : Normalized request)
    (hcursor : request.cursor = none)
    (lister : NativeLister cluster request.options request.origins) :
    ∃ bound, ∀ fuel calls, bound ≤ fuel → bound ≤ calls →
      Sat False (drain cluster fuel calls request) fun items =>
        items ~ request.origins.flatMap lister.items := by
  have hperm := canonicalOrigins_perm request.origins
  have hallows' : Allows cluster request.selection.generation (canonicalOrigins request.origins) :=
    fun origin hmem => hallows origin (hperm.mem_iff.mp hmem)
  let canonical := lister.restrict fun origin => hperm.mem_iff.mp
  let start := NewCompositeCursor T (canonicalOrigins request.origins)
  have hcontents : canonical.contents start.origins ~ request.origins.flatMap lister.items := by
    rw [canonical.new_contents]
    exact hperm.flatMap_right _
  refine ⟨canonical.weight start.origins + 1, fun fuel calls hfuel hcalls => ?_⟩
  by_cases hempty : canonicalOrigins request.origins = []
  · obtain ⟨left, rfl⟩ := Nat.exists_eq_add_of_le' (Nat.le_of_add_left_le hcalls)
    apply (drain_no_origins hrequest hempty fuel left).mono
    rintro _ rfl
    rw [hempty, nil_perm] at hperm
    simp [hperm]
  · refine (drain_spec hcluster calls request canonical hallows' hrequest hlistable hempty start
      (by rw [startCursor, hcursor]) canonical.new_resumable
      (NativeLister.new_not_drained hempty) hfuel hcalls).mono fun items hitems => ?_
    exact hitems.trans hcontents

/-- Whatever the chunks are and in whichever order the workers answer: following the cursor of a
collection ends, and every row of every origin is emitted exactly once. -/
theorem Collect_drains_every_row (cluster : Cluster σ T) (hcluster : Faultless cluster)
    (request : CollectionRequest T)
    (hallows : Allows cluster request.selection.generation request.origins)
    {collection : String} {namespaces kinds : List String}
    (horigins : OriginsFor collection namespaces kinds = .ok request.origins)
    (hrequest : Normalized request) (hcursor : request.cursor = none)
    (lister : NativeLister cluster request.options request.origins) :
    ∃ bound, ∀ fuel calls, bound ≤ fuel → bound ≤ calls → ∀ s, ∃ items t,
      (drain cluster fuel calls request).run.run s = (.ok items, t) ∧
      items ~ request.origins.flatMap lister.items := by
  have hnamespaced := (OriginsFor_namespaced horigins).perm (canonicalOrigins_perm request.origins)
  obtain ⟨bound, hdrain⟩ :=
    drain_first hcluster hallows hnamespaced.listable hrequest hcursor lister
  exact ⟨bound, fun fuel calls hfuel hcalls s => (hdrain fuel calls hfuel hcalls).exists_run s⟩

/-- Every origin has its rows on two pages. -/
def twoPages (first last : Origin → List T) : Cluster Unit T where
  check _ := pure ⟨.DecisionAllowed, some .ReasonSARAllowed⟩
  listPage request := pure (
    if request.continueToken = "" then ⟨request.origin, first request.origin, "more", ""⟩
    else ⟨request.origin, last request.origin, "", ""⟩, none)
  contextErr := pure none
  jitter delay := pure delay
  wait _ := pure none
  schedule indices := pure ⟨indices, Subperm.refl _⟩
  listPage_origin := by
    intro request s
    change (if request.continueToken = "" then _ else _ : OriginPage T).origin = _ ∨ _
    split <;> exact .inl rfl

def twoPagesLister (first last : Origin → List T) (options : ListOptions) (origins : List Origin) :
    NativeLister (twoPages first last) options origins where
  items origin := first origin ++ last origin
  rest origin token := if token = "" then first origin ++ last origin else last origin
  rank _ token := if token = "" then 1 else 0
  issued _ _ := True
  issued_start _ := trivial
  rest_start _ := rfl
  answers := by
    intro request s _ _ _ _ _
    refine ⟨rfl, ?_⟩
    have hpage : (((twoPages first last).listPage request).run s).1.1 =
        if request.continueToken = "" then ⟨request.origin, first request.origin, "more", ""⟩
        else ⟨request.origin, last request.origin, "", ""⟩ := rfl
    rw [hpage]
    by_cases htoken : request.continueToken = ""
    · simp [htoken, MaximumCursorBytes]
      decide
    · simp [htoken]

def chunked : Cluster Unit Nat :=
  twoPages (fun _ => [2, 3]) fun _ => [1]

def chunkedLister (options : ListOptions) (origins : List Origin) :
    NativeLister chunked options origins :=
  twoPagesLister _ _ options origins

theorem Collect_drains_two_namespaces :
    ∃ bound, ∀ fuel calls, bound ≤ fuel → bound ≤ calls → ∀ s, ∃ items t,
      (drain chunked fuel calls (podRequest ["bank", "shop"] 2 none)).run.run s = (.ok items, t) ∧
      items ~ [2, 3, 1, 2, 3, 1] :=
  Collect_drains_every_row chunked ⟨fun _ => rfl, fun _ _ => .refl _⟩
    (podRequest ["bank", "shop"] 2 none) (fun _ _ _ => rfl)
    (show OriginsFor "pods" ["shop", "bank"] [] = _ by decide +kernel)
    ⟨by decide, by decide, by decide, by decide, by decide, rfl⟩ rfl (chunkedLister _ _)

end Kubepeep.Resources
