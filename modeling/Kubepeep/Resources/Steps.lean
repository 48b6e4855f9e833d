import Kubepeep.Resources.Collect

/-!
# What a window can do

A strategy changes its window in two ways only: it records the review of an origin, or it records
the LIST of an origin that is not exhausted and applies the page.  `WindowRule` is the rule of
invariants for these two steps; one pass over the strategies shows that each of them follows it.
-/

open Option List Kubepeep.Authorization Kubepeep.Effect

namespace Kubepeep.Resources

variable {σ T : Type}

/-! ## The two steps -/

section

variable (cluster : Cluster σ T) (request : CollectionRequest T)

def Reviewed (state : OriginCursor T) (outcome : OriginOutcome T) : Prop :=
  ∃ s authoritative,
    outcome = { ((authorizeOrigin cluster request state.origin).run s).1 with authoritative } ∧
      (authoritative = true → state.exhausted = true ∨ state.buffered ≠ [])

def Fetched (state : OriginCursor T) (outcome : OriginOutcome T) : Prop :=
  ∃ s limit capability probed, 1 ≤ limit ∧ capability.decision = .DecisionAllowed ∧
    outcome = ((fetchOrigin cluster request state limit capability probed).run s).1

/-- `I` is kept by both steps.  `G` is kept too, and holds after a LIST and after the review of
buffered rows.  What cannot happen in a cluster without faults is excused by `faulty`; there a LIST
also makes the origins smaller. -/
structure WindowRule (faulty : Prop) (fuel : Nat) (I G : Window T → Prop)
    (size : List (OriginCursor T) → Nat) : Prop where
  review : ∀ {window : Window T} {index : Nat} {state outcome}, I window →
    window.origins[index]? = some state → Reviewed cluster request state outcome →
    I (window.record outcome) ∧ (G window → G (window.record outcome)) ∧
      (outcome.authoritative = true → state.buffered ≠ [] → G (window.record outcome))
  failed : ∀ {window : Window T} {index : Nat} {state outcome}, I window →
    window.origins[index]? = some state → state.exhausted = false →
    Fetched cluster request state outcome → outcome.err.isSome →
    faulty ∧ I (window.record outcome) ∧ (G window → G (window.record outcome))
  rejected : ∀ {window : Window T} {index : Nat} {state outcome err}, I window →
    window.origins[index]? = some state → state.exhausted = false →
    Fetched cluster request state outcome →
    applyOriginPage state outcome.page request.less = .error err → outcome.err = none → faulty
  fetched : ∀ {window : Window T} {index : Nat} {state outcome next}, I window →
    window.origins[index]? = some state → state.exhausted = false →
    Fetched cluster request state outcome → outcome.err = none →
    applyOriginPage state outcome.page request.less = .ok next →
    I (window.advance index next outcome) ∧ G (window.advance index next outcome) ∧
      (¬ faulty → size (window.advance index next outcome).origins < size window.origins)
  context : ∀ s, (cluster.contextErr.run s).1.isSome → faulty
  allowed : ∀ {window : Window T} {index : Nat} {state outcome}, I window →
    window.origins[index]? = some state → Reviewed cluster request state outcome →
    faulty ∨ outcome.capability.decision = .DecisionAllowed
  scheduled : ∀ indices s, faulty ∨ ((cluster.schedule indices).run s).1.val.Perm indices
  enough : ∀ {window}, I window → faulty ∨ size window.origins < fuel
  namespaced : ∀ {window}, I window →
    faulty ∨ (∀ state ∈ window.origins, state.origin.namespaceName ≠ "") ∨
      window.origins.length = 1

end

variable {cluster : Cluster σ T} {request : CollectionRequest T} {faulty : Prop} {fuel : Nat}
  {I G : Window T → Prop} {size : List (OriginCursor T) → Nat}

structure JobDone (cluster : Cluster σ T) (request : CollectionRequest T) (faulty : Prop)
    (fetch : Bool) (known : String → Option Bool) (state : OriginCursor T)
    (outcome : OriginOutcome T) : Prop where
  job : Reviewed cluster request state outcome ∨ Fetched cluster request state outcome
  review : fetch = false → Reviewed cluster request state outcome ∧
    (state.buffered ≠ [] → outcome.authoritative = true)
  fetch : fetch = true → known state.origin.Key ≠ some false →
    faulty ∨ Fetched cluster request state outcome

theorem authorizeOrigin_spec (origin : Origin) :
    Always (authorizeOrigin cluster request origin) fun outcome =>
      outcome.page = emptyPage origin ∧ outcome.queried = false ∧
        outcome.authoritative = false := by
  unfold authorizeOrigin
  split
  · exact always_pure ⟨rfl, rfl, rfl⟩
  · refine always_bind (always_run _) ?_
    intro capability _
    split
    · exact always_pure ⟨rfl, rfl, rfl⟩
    -- The probe only changes the verdict of the outcome.
    · refine always_bind (always_run _) ?_
      rintro ⟨_, _ | err, _⟩ _
      · exact always_pure ⟨rfl, rfl, rfl⟩
      · dsimp only
        split
        · exact always_pure ⟨rfl, rfl, rfl⟩
        · exact always_pure ⟨rfl, rfl, rfl⟩

variable {state : OriginCursor T} {outcome : OriginOutcome T}

theorem Reviewed.page_eq
    (h : Reviewed cluster request state outcome) : outcome.page = emptyPage state.origin := by
  obtain ⟨s, _, rfl, _⟩ := h
  exact (authorizeOrigin_spec state.origin s).1

theorem Reviewed.not_succeeded
    (h : Reviewed cluster request state outcome) : outcome.succeeded = false := by
  obtain ⟨s, _, rfl, _⟩ := h
  simp [OriginOutcome.succeeded, (authorizeOrigin_spec state.origin s).2.1]

theorem Fetched.succeeded_eq
    (h : Fetched cluster request state outcome) : outcome.succeeded = outcome.err.isNone := by
  obtain ⟨s, limit, capability, _, _, _, rfl⟩ := h
  exact Bool.and_true _

theorem Fetched.allowed (h : Fetched cluster request state outcome) (herr : outcome.err = none) :
    outcome.capability.decision = .DecisionAllowed := by
  obtain ⟨s, limit, capability, _, _, hallowed, rfl⟩ := h
  have h : ∀ answer : OriginPage T × Option ReadError × List ReadError, answer.2.1 = none →
      (if answer.2.1.any fun err => ErrorCodeOf err = .CodeForbidden then
        (⟨.DecisionDenied, some .ReasonOperationDenied⟩ : Capability)
      else capability).decision = .DecisionAllowed := by
    intro answer hanswer
    simp [hanswer, hallowed]
  exact h _ herr

theorem one_le_attempts (policy : RetryPolicy) :
    1 ≤ (normalizeRetryPolicy policy).attempts.toNat := by
  unfold normalizeRetryPolicy DefaultListAttempts
  dsimp only
  split <;> omega

theorem retryLoop_listed (cluster : Cluster σ T) (request : PageRequest) (policy : RetryPolicy)
    (left : Nat) : ∀ (attempt : Nat) (failed : List ReadError), (failed = [] → left ≠ 0) →
    Always (retryLoop cluster request policy left attempt failed) fun (page, err, _) =>
      err = none → ∃ s, ((cluster.listPage request).run s).1 = (page, none) := by
  induction left with
  | zero =>
    intro attempt failed hleft
    apply always_pure
    intro hnone
    exact absurd rfl (hleft (getLast?_eq_none_iff.mp hnone))
  | succ left ih =>
    intro attempt failed _
    unfold retryLoop
    refine always_bind (always_run _) ?_
    rintro (_ | err) _
    · refine always_bind (always_run _) ?_
      rintro ⟨page, _ | err⟩ ⟨s, hs⟩
      · exact always_pure fun _ => ⟨s, hs.symm⟩
      · dsimp only
        split
        · exact always_pure (by simp)
        · split
          · exact always_pure (by simp)
          · refine always_bind (always_run _) fun delay _ => always_bind (always_run _) ?_
            rintro (_ | err) _
            · exact ih (attempt + 1) _ (by simp)
            · exact always_pure (by simp)
    · exact always_pure (by simp)

/-- The lister answered a LIST of the origin behind `token` with the rows and the continuation of
the page. -/
def Listed (cluster : Cluster σ T) (options : ListOptions) (origin : Origin) (token : String)
    (page : OriginPage T) : Prop :=
  ∃ limit s answer, ((cluster.listPage ⟨origin, limit, token, options.labelSelector,
      options.fieldSelector⟩).run s).1 = (answer, none) ∧
    page.items = answer.items ∧ page.continueToken = answer.continueToken

theorem Fetched.listed (h : Fetched cluster request state outcome) (herr : outcome.err = none) :
    Listed cluster request.options state.origin state.continueToken outcome.page := by
  obtain ⟨s, limit, capability, _, _, _, rfl⟩ := h
  have hattempts := one_le_attempts request.retry
  obtain ⟨s', hanswer⟩ := retryLoop_listed cluster _ _ _ 0 [] (fun _ => by omega) s herr
  refine ⟨limit, s', _, hanswer, ?_⟩
  have h : ∀ page : OriginPage T,
      (if page.origin.Key = "///" then { page with origin := state.origin } else page).items =
        page.items ∧
      (if page.origin.Key = "///" then { page with origin := state.origin }
        else page).continueToken = page.continueToken := by
    intro page
    split <;> exact ⟨rfl, rfl⟩
  exact h _

/-! ## Choosing origins -/

def Open (origins : List (OriginCursor T)) (indices : List Nat) : Prop :=
  indices.Nodup ∧
    ∀ index ∈ indices, ∃ state, origins[index]? = some state ∧ state.exhausted = false

variable {origins : List (OriginCursor T)} {indices : List Nat} {index : Nat}

theorem Open.lt (h : Open origins indices) (hindex : index ∈ indices) : index < origins.length := by
  obtain ⟨state, hstate, _⟩ := h.2 index hindex
  exact (List.getElem?_eq_some_iff.mp hstate).1

theorem Open.not_exhausted (h : Open origins indices) (hindex : index ∈ indices)
    (hstate : origins[index]? = some state) : state.exhausted = false := by
  obtain ⟨state', hstate', hopen⟩ := h.2 index hindex
  rw [hstate, some.injEq] at hstate'
  rw [hstate', hopen]

theorem one_le_originChunkLimit {limit : Int} (h : 1 ≤ limit) (origins : Nat) :
    1 ≤ originChunkLimit origins limit := by
  unfold originChunkLimit DefaultOriginChunkSize MaxOriginChunkSize
  split
  · exact h
  · omega

variable {α : Type}

theorem map_fst_filterMap_find_sublist (results : List (Nat × α)) (indices : List Nat) :
    ((indices.filterMap fun index => results.find? fun result => result.1 == index).map
      (·.1)).Sublist indices := by
  induction indices with
  | nil => simp
  | cons index rest ih =>
    rw [filterMap_cons]
    split
    · exact ih.cons _
    · next result hfind =>
      have heq : result.1 = index := by simpa using find?_some hfind
      rw [map_cons, heq]
      exact ih.cons_cons _

theorem map_fst_filterMap_find_eq (results : List (Nat × α))
    (h : ∀ index ∈ indices, ∃ result ∈ results, result.1 = index) :
    (indices.filterMap fun index => results.find? fun result => result.1 == index).map (·.1) =
      indices := by
  apply (map_fst_filterMap_find_sublist results indices).eq_of_length
  rw [length_map, length_filterMap_eq_countP, countP_eq_length]
  intro index hindex
  obtain ⟨result, hresult, heq⟩ := h index hindex
  rw [find?_isSome]
  exact ⟨result, hresult, by simp [heq]⟩

theorem one_le_NormalizeFanout (value : Int) : 1 ≤ NormalizeFanout value := by
  unfold NormalizeFanout DefaultFanout MaximumConfigurableFanout
  split
  · omega
  · split <;> omega

theorem mem_zipIdx_getElem? {l : List α} {pair : α × Nat} (h : pair ∈ l.zipIdx) :
    l[pair.2]? = some pair.1 := by
  exact mem_zipIdx_iff_getElem?.mp h

theorem open_filterMap (origins : List (OriginCursor T)) {pairs : List (OriginCursor T × Nat)}
    (hsub : pairs.Sublist origins.zipIdx) (skip : OriginCursor T → Bool)
    (hskip : ∀ state, state.exhausted = true → skip state = true) :
    Open origins (pairs.filterMap fun (state, index) =>
      if skip state then none else some index) := by
  constructor
  · have hnodup : (origins.zipIdx.map (·.2)).Nodup := by
      rw [zipIdx_map_snd]
      exact nodup_range'
    have hmap : (pairs.filterMap fun (state, index) => if skip state then none else some index) =
        (pairs.filter fun pair => !skip pair.1).map (·.2) := by
      rw [← filterMap_eq_map, filterMap_filter]
      congr 1
      ext pair
      cases hs : skip pair.1 <;> simp [hs]
    rw [hmap]
    exact ((filter_sublist.trans hsub).map _).nodup hnodup
  · intro index hindex
    obtain ⟨pair, hpair, hif⟩ := mem_filterMap.mp hindex
    cases hs : skip pair.1 with
    | true => simp [hs] at hif
    | false =>
      simp only [hs, Bool.false_eq_true, if_false, some.injEq] at hif
      refine ⟨pair.1, hif ▸ mem_zipIdx_getElem? (hsub.subset hpair), ?_⟩
      by_contra hexhausted
      rw [hskip _ (by simpa using hexhausted)] at hs
      cases hs

theorem Open.sublist {fewer : List Nat}
    (h : Open origins indices) (hsub : fewer.Sublist indices) : Open origins fewer :=
  ⟨hsub.nodup h.1, fun index hindex => h.2 index (hsub.subset hindex)⟩

theorem open_untouchedFrom (origins : List (OriginCursor T)) (fanout index : Nat) :
    Open origins (untouchedFrom origins fanout index) := by
  have hsub := (takeWhile_sublist fun pair : OriginCursor T × Nat =>
    pair.1.buffered.isEmpty && pair.1.continueToken == "").trans
      (drop_sublist index origins.zipIdx)
  exact (open_filterMap origins hsub (·.exhausted) fun _ h => h).sublist (take_sublist _ _)

theorem untouchedFrom_ne_nil (hstate : origins[index]? = some state)
    (hopen : state.exhausted = false)
    (hbuffered : state.buffered = []) (htoken : state.continueToken = "") {fanout : Nat}
    (hfanout : 1 ≤ fanout) : untouchedFrom origins fanout index ≠ [] := by
  obtain ⟨hlt, hget⟩ := List.getElem?_eq_some_iff.mp hstate
  have hdrop : origins.zipIdx.drop index = (state, index) :: origins.zipIdx.drop (index + 1) := by
    rw [List.drop_eq_getElem_cons (by simpa using hlt), List.getElem_zipIdx, hget, Nat.zero_add]
  obtain ⟨fanout, rfl⟩ := Nat.exists_eq_add_of_le' hfanout
  simp [untouchedFrom, hdrop, hbuffered, htoken, hopen]

theorem open_passIndices (origins : List (OriginCursor T)) (preferEmpty : Bool) :
    Open origins (passIndices origins preferEmpty) :=
  open_filterMap origins (Sublist.refl _)
    (fun state => state.exhausted || state.buffered.isEmpty != preferEmpty)
    fun state h => by simp [h]

theorem passIndices_ne_nil {preferEmpty : Bool}
    (hmem : state ∈ origins) (hopen : state.exhausted = false)
    (hbuffered : state.buffered.isEmpty = preferEmpty) : passIndices origins preferEmpty ≠ [] := by
  obtain ⟨index, hindex, hget⟩ := getElem_of_mem hmem
  apply ne_nil_of_mem (a := index)
  refine mem_filterMap.mpr ⟨(state, index), ?_, by simp [hopen, hbuffered]⟩
  rw [mem_zipIdx_iff_getElem?]
  simp [hindex, hget]

theorem mem_bufferedIndices : index ∈ bufferedIndices origins ↔
      ∃ state, origins[index]? = some state ∧ state.buffered ≠ [] := by
  unfold bufferedIndices
  rw [mem_filterMap]
  constructor
  · rintro ⟨⟨state, i⟩, hmem, hif⟩
    have hstate := mem_zipIdx_getElem? hmem
    cases hb : state.buffered.isEmpty with
    | true => simp [hb] at hif
    | false =>
      simp only [hb, Bool.false_eq_true, if_false, some.injEq] at hif
      exact ⟨state, hif ▸ hstate, by simpa using hb⟩
  · rintro ⟨state, hstate, hrows⟩
    exact ⟨(state, index), mem_zipIdx_iff_getElem?.mpr hstate, by simp [hrows]⟩

theorem flatten_batches {size : Nat} (hsize : 1 ≤ size) (fuel : Nat) :
    ∀ indices : List Nat, indices.length ≤ fuel →
      (batches size fuel indices).flatten = indices := by
  induction fuel with
  | zero =>
    intro indices h
    simpa [batches] using (length_eq_zero_iff.mp (Nat.le_zero.mp h)).symm
  | succ fuel ih =>
    intro indices h
    unfold batches
    split
    · next hempty => simpa using hempty.symm
    · rw [flatten_cons, ih _ (by rw [length_drop]; omega), take_append_drop]

theorem ne_nil_of_mem_batches {size : Nat} (hsize : 1 ≤ size) (fuel : Nat) :
    ∀ indices : List Nat, ∀ batch ∈ batches size fuel indices, batch ≠ [] := by
  induction fuel with
  | zero => simp [batches]
  | succ fuel ih =>
    intro indices batch hbatch
    unfold batches at hbatch
    split at hbatch
    · simp at hbatch
    · next hempty =>
      cases List.mem_cons.mp hbatch with
      | inl heq =>
        rw [heq]
        rw [List.isEmpty_iff] at hempty
        simp [hempty]
        omega
      | inr hmem => exact ih _ _ hmem

theorem foldl_noteDecision_ne_false {outcomes : List (OriginOutcome T)}
    (hallowed : ∀ outcome ∈ outcomes, outcome.capability.decision = .DecisionAllowed) :
    ∀ known : String → Option Bool, (∀ key, known key ≠ some false) →
      ∀ key, outcomes.foldl noteDecision known key ≠ some false := by
  induction outcomes with
  | nil => exact fun _ h => h
  | cons outcome rest ih =>
    intro known hknown
    rw [forall_mem_cons] at hallowed
    apply ih hallowed.2
    intro key
    unfold noteDecision
    split
    · simp [hallowed.1]
    · exact hknown key

/-! ## One window after another -/

structure After (faulty : Prop) (I G : Window T → Prop) (size : List (OriginCursor T) → Nat)
    (window next : Window T) : Prop where
  inv : I next
  live : G window → G next
  size_le : ¬ faulty → size next.origins ≤ size window.origins

theorem After.refl {window : Window T} (h : I window) : After faulty I G size window window :=
  ⟨h, id, fun _ => le_rfl⟩

theorem After.trans {first second third : Window T} (h : After faulty I G size first second)
    (h' : After faulty I G size second third) : After faulty I G size first third :=
  ⟨h'.inv, h'.live ∘ h.live, fun hf => (h'.size_le hf).trans (h.size_le hf)⟩

namespace WindowRule

variable (rule : WindowRule cluster request faulty fuel I G size)

include rule

variable {window : Window T} {state : OriginCursor T} {outcome : OriginOutcome T}

theorem record_review (h : I window) (hi : window.origins[index]? = some state)
    (hr : Reviewed cluster request state outcome) :
    After faulty I G size window (window.record outcome) :=
  ⟨(rule.review h hi hr).1, (rule.review h hi hr).2.1, fun _ => le_rfl⟩

theorem absorb_spec (h : I window) (hi : window.origins[index]? = some state)
    (hopen : state.exhausted = false)
    (hjob : Reviewed cluster request state outcome ∨ Fetched cluster request state outcome) :
    Sat faulty (window.absorb request.less index outcome : Effect σ Halt (Window T)) fun next =>
      After faulty I G size window next ∧ (∀ j, j ≠ index → next.origins[j]? = window.origins[j]?) ∧
      (faulty ∨ outcome.capability.decision = .DecisionAllowed) ∧
      (outcome.succeeded = true →
        G next ∧ (¬ faulty → size next.origins < size window.origins)) := by
  unfold Window.absorb
  cases hjob with
  | inl hr =>
    rw [hr.not_succeeded]
    apply sat_pure
    exact ⟨rule.record_review h hi hr, fun _ _ => rfl, rule.allowed h hi hr, by simp⟩
  | inr hf =>
    rw [hf.succeeded_eq]
    cases herr : outcome.err with
    | some err =>
      have hfailed := rule.failed h hi hopen hf (by simp [herr])
      apply sat_pure
      exact ⟨⟨hfailed.2.1, hfailed.2.2, fun _ => le_rfl⟩, fun _ _ => rfl, .inl hfailed.1, by simp⟩
    | none =>
      simp only [hi, isNone_none, if_true]
      cases happly : applyOriginPage state outcome.page request.less with
      | error err => exact sat_throw (rule.rejected h hi hopen hf happly herr)
      | ok next =>
        have hnext := rule.fetched h hi hopen hf herr happly
        apply sat_pure
        refine ⟨⟨hnext.1, fun _ => hnext.2.1, fun hf => (hnext.2.2 hf).le⟩, ?_,
          .inr (hf.allowed herr), fun _ => hnext.2⟩
        intro j hj
        exact getElem?_set_ne hj.symm

theorem absorbAll_spec (fetched : List (Nat × OriginOutcome T)) :
    ∀ window : Window T, I window → (fetched.map (·.1)).Nodup →
    (∀ result ∈ fetched, ∃ state, window.origins[result.1]? = some state ∧
      state.exhausted = false ∧
      (Reviewed cluster request state result.2 ∨ Fetched cluster request state result.2)) →
    Sat faulty (window.absorbAll request.less fetched : Effect σ Halt (Window T)) fun next =>
      After faulty I G size window next ∧
      (∀ j, j ∉ fetched.map (·.1) → next.origins[j]? = window.origins[j]?) ∧
      (faulty ∨ ∀ result ∈ fetched, result.2.capability.decision = .DecisionAllowed) ∧
      ((∃ result ∈ fetched, result.2.succeeded = true) →
        G next ∧ (¬ faulty → size next.origins < size window.origins)) := by
  induction fetched with
  | nil =>
    intro window h _ _
    apply sat_pure
    exact ⟨.refl h, fun _ _ => rfl, by simp, by simp⟩
  | cons result rest ih =>
    intro window h hnodup hjobs
    rw [map_cons, nodup_cons] at hnodup
    obtain ⟨state, hi, hopen, hjob⟩ := hjobs result mem_cons_self
    unfold Window.absorbAll
    refine sat_bind (rule.absorb_spec h hi hopen hjob) fun middle hmiddle => ?_
    obtain ⟨hafter, hframe, hallowed, hsucc⟩ := hmiddle
    -- The first outcome leaves the origins of the others alone.
    have hrest : ∀ other ∈ rest, ∃ state, middle.origins[other.1]? = some state ∧
        state.exhausted = false ∧
        (Reviewed cluster request state other.2 ∨ Fetched cluster request state other.2) := by
      intro other hother
      have hne : other.1 ≠ result.1 := by
        intro heq
        exact hnodup.1 (heq ▸ mem_map_of_mem hother)
      rw [hframe other.1 hne]
      exact hjobs other (mem_cons_of_mem _ hother)
    refine (ih middle hafter.inv hnodup.2 hrest).mono fun next hnext => ?_
    obtain ⟨hafter', hframe', hallowed', hsucc'⟩ := hnext
    refine ⟨hafter.trans hafter', ?_, ?_, ?_⟩
    · intro j hj
      rw [map_cons, mem_cons, not_or] at hj
      rw [hframe' j hj.2, hframe j hj.1]
    · cases hallowed with
      | inl hf => exact .inl hf
      | inr ha => exact hallowed'.imp id fun ha' => forall_mem_cons.mpr ⟨ha, ha'⟩
    · rintro ⟨other, hother, hs⟩
      cases mem_cons.mp hother with
      | inl heq =>
        have hhere := hsucc (heq ▸ hs)
        exact ⟨hafter'.live hhere.1, fun hf => (hafter'.size_le hf).trans_lt (hhere.2 hf)⟩
      | inr hmem =>
        have hlater := hsucc' ⟨other, hmem, hs⟩
        exact ⟨hlater.1, fun hf => (hlater.2 hf).trans_le (hafter.size_le hf)⟩

/-! ## The worker pool -/

theorem originJob_spec (hlimit : 1 ≤ request.options.limit) (h : I window)
    (origins : Nat) (fetch : Bool) (known : String → Option Bool)
    (hi : window.origins[index]? = some state) :
    Always (originJob cluster request origins fetch known state)
      (JobDone cluster request faulty fetch known state) := by
  unfold originJob
  refine always_bind (always_run _) fun outcome ⟨s, houtcome⟩ => ?_
  have hreviewed : Reviewed cluster request state
      { outcome with authoritative := state.exhausted || !state.buffered.isEmpty } := by
    refine ⟨s, _, by rw [houtcome], ?_⟩
    simp
  have hrows : state.buffered ≠ [] → (state.exhausted || !state.buffered.isEmpty) = true := by
    intro h
    simp [h]
  dsimp only
  split
  · next hdenied =>
    apply always_pure
    exact ⟨.inl hreviewed, fun _ => ⟨hreviewed, hrows⟩,
      fun _ hknown => absurd hdenied hknown⟩
  · split
    · next hfetch =>
      refine (always_run _).mono fun fetched ⟨s', hfetched⟩ => ?_
      have hf : Fetched cluster request state fetched :=
        ⟨s', _, _, _, one_le_originChunkLimit hlimit origins, hfetch.2, hfetched⟩
      exact ⟨.inr hf, by simp [hfetch.1], fun _ _ => .inr hf⟩
    · next hfetch =>
      apply always_pure
      refine ⟨.inl hreviewed, fun _ => ⟨hreviewed, hrows⟩, ?_⟩
      intro htrue _
      exact (rule.allowed h hi hreviewed).imp id fun hallowed => absurd ⟨htrue, hallowed⟩ hfetch

theorem runJobs_spec (hlimit : 1 ≤ request.options.limit) (h : I window)
    (fetch : Bool) (known : String → Option Bool) (order : List Nat) :
    Always (runJobs cluster request window.origins fetch known order) fun results =>
      (∀ result ∈ results, ∃ state, window.origins[result.1]? = some state ∧
        JobDone cluster request faulty fetch known state result.2) ∧
      ∀ index ∈ order, index < window.origins.length → ∃ result ∈ results, result.1 = index := by
  induction order with
  | nil => exact always_pure (by simp)
  | cons index rest ih =>
    unfold runJobs
    split
    · next hnone =>
      refine ih.mono fun results hresults => ⟨hresults.1, ?_⟩
      intro j hj hlt
      cases mem_cons.mp hj with
      | inl heq =>
        rw [getElem?_eq_none_iff] at hnone
        omega
      | inr hmem => exact hresults.2 j hmem hlt
    · next state hstate =>
      refine always_bind (rule.originJob_spec hlimit h _ fetch known hstate) fun outcome hdone => ?_
      refine always_bind ih fun results hresults => always_pure ⟨?_, ?_⟩
      · rw [forall_mem_cons]
        exact ⟨⟨state, hstate, hdone⟩, hresults.1⟩
      · intro j hj hlt
        cases mem_cons.mp hj with
        | inl heq => exact ⟨_, mem_cons_self, heq.symm⟩
        | inr hmem =>
          obtain ⟨result, hresult, heq⟩ := hresults.2 j hmem hlt
          exact ⟨result, mem_cons_of_mem _ hresult, heq⟩

variable {indices : List Nat}

theorem runOriginWorkers_spec (hlimit : 1 ≤ request.options.limit)
    (h : I window) (hvalid : ∀ index ∈ indices, index < window.origins.length)
    (fetch : Bool) (known : String → Option Bool) :
    Always (runOriginWorkers cluster request window.origins indices fetch known) fun results =>
      (results.map (·.1)).Sublist indices ∧ (faulty ∨ results.map (·.1) = indices) ∧
      ∀ result ∈ results, ∃ state, window.origins[result.1]? = some state ∧
        JobDone cluster request faulty fetch known state result.2 := by
  unfold runOriginWorkers
  split
  · next hempty =>
    rw [List.isEmpty_iff] at hempty
    exact always_pure (by simp [hempty])
  · refine always_bind (always_run _) fun order ⟨s, horder⟩ => ?_
    refine always_bind (rule.runJobs_spec hlimit h fetch known order.val)
      fun results hresults => always_pure ⟨map_fst_filterMap_find_sublist results indices, ?_, ?_⟩
    · refine (rule.scheduled indices s).imp id fun hperm => map_fst_filterMap_find_eq results ?_
      intro index hindex
      exact hresults.2 index (horder ▸ hperm.mem_iff.mpr hindex) (hvalid index hindex)
    · intro result hresult
      obtain ⟨index, _, hfind⟩ := List.mem_filterMap.mp hresult
      exact hresults.1 result (List.mem_of_find?_eq_some hfind)

theorem fetchBatch_spec (hlimit : 1 ≤ request.options.limit) (h : I window)
    (hopen : Open window.origins indices) (known : String → Option Bool) :
    Always (fetchBatch cluster request window.origins indices known) fun results =>
      (results.map (·.1)).Sublist indices ∧ (faulty ∨ results.map (·.1) = indices) ∧
      ∀ result ∈ results, ∃ state, window.origins[result.1]? = some state ∧
        JobDone cluster request faulty true known state result.2 :=
  rule.runOriginWorkers_spec hlimit h (fun _ => hopen.lt) true known

/-- A batch of LISTs over open origins.  Without faults every one of them is applied. -/
theorem absorbBatch_spec (h : I window)
    (hopen : Open window.origins indices) {known : String → Option Bool}
    {results : List (Nat × OriginOutcome T)} (hsub : (results.map (·.1)).Sublist indices)
    (hall : faulty ∨ results.map (·.1) = indices)
    (hdone : ∀ result ∈ results, ∃ state, window.origins[result.1]? = some state ∧
      JobDone cluster request faulty true known state result.2) :
    Sat faulty (window.absorbAll request.less results : Effect σ Halt (Window T)) fun next =>
      After faulty I G size window next ∧
      (∀ j, j ∉ indices → next.origins[j]? = window.origins[j]?) ∧
      (faulty ∨ ∀ result ∈ results, result.2.capability.decision = .DecisionAllowed) ∧
      ((∃ result ∈ results, result.2.succeeded = true) →
        G next ∧ (¬ faulty → size next.origins < size window.origins)) ∧
      (indices ≠ [] → (∀ key, known key ≠ some false) → faulty ∨ G next) := by
  have hjobs : ∀ result ∈ results, ∃ state, window.origins[result.1]? = some state ∧
      state.exhausted = false ∧
      (Reviewed cluster request state result.2 ∨ Fetched cluster request state result.2) := by
    intro result hresult
    obtain ⟨state, hstate, hjob⟩ := hdone result hresult
    exact ⟨state, hstate, hopen.not_exhausted (hsub.subset (mem_map_of_mem hresult)) hstate,
      hjob.job⟩
  refine (rule.absorbAll_spec results window h (hsub.nodup hopen.1) hjobs).mono
    fun next ⟨hafter, hframe, hallowed, hsucc⟩ => ?_
  refine ⟨hafter, fun j hj => hframe j fun hmem => hj (hsub.subset hmem), hallowed, hsucc, ?_⟩
  intro hne hknown
  cases hall with
  | inl hf => exact .inl hf
  | inr heq =>
    -- The first job was a LIST, and a LIST that fails is a fault.
    obtain ⟨result, hresult⟩ : ∃ result, result ∈ results := by
      apply exists_mem_of_ne_nil
      intro hnil
      exact hne (by rw [← heq, hnil, map_nil])
    obtain ⟨state, hstate, hjob⟩ := hdone result hresult
    have hexh := hopen.not_exhausted (hsub.subset (mem_map_of_mem hresult)) hstate
    cases hjob.fetch rfl (hknown _) with
    | inl hf => exact .inl hf
    | inr hf =>
      cases herr : result.2.err with
      | some err => exact .inl (rule.failed h hstate hexh hf (by simp [herr])).1
      | none =>
        refine .inr (hsucc ⟨result, hresult, ?_⟩).1
        rw [hf.succeeded_eq, herr, isNone_none]

theorem authorizeBatch_spec (hlimit : 1 ≤ request.options.limit) (h : I window)
    (hvalid : ∀ index ∈ indices, index < window.origins.length) :
    Always (authorizeBatch cluster request window.origins indices) fun outcomes =>
      (faulty ∨ outcomes.length = indices.length) ∧
      ∀ outcome ∈ outcomes, ∃ index ∈ indices, ∃ state, window.origins[index]? = some state ∧
        Reviewed cluster request state outcome ∧
        (state.buffered ≠ [] → outcome.authoritative = true) := by
  unfold authorizeBatch
  refine always_bind (rule.runOriginWorkers_spec hlimit h hvalid false _)
    fun results ⟨hsub, hall, hdone⟩ => always_pure ⟨?_, ?_⟩
  · refine hall.imp id fun heq => ?_
    rw [← heq, length_map, length_map]
  · intro outcome houtcome
    obtain ⟨result, hresult, rfl⟩ := mem_map.mp houtcome
    obtain ⟨state, hstate, hjob⟩ := hdone result hresult
    exact ⟨result.1, hsub.subset (mem_map_of_mem hresult), state, hstate, hjob.review rfl⟩

theorem recordAll_spec {origins : List (OriginCursor T)} (reviewed : List (OriginOutcome T)) :
    ∀ outcomes, I ⟨origins, outcomes⟩ →
    (∀ outcome ∈ reviewed, ∃ (index : Nat) (state : _), origins[index]? = some state ∧
      Reviewed cluster request state outcome) →
    After faulty I G size ⟨origins, outcomes⟩ ⟨origins, outcomes ++ reviewed⟩ := by
  induction reviewed with
  | nil =>
    intro outcomes h _
    rw [append_nil]
    exact .refl h
  | cons outcome rest ih =>
    intro outcomes h hreviewed
    rw [forall_mem_cons] at hreviewed
    obtain ⟨⟨index, state, hstate, hr⟩, hrest⟩ := hreviewed
    have hrecord := rule.record_review h hstate hr
    have hlater := ih (outcomes ++ [outcome]) hrecord.inv hrest
    rw [append_assoc] at hlater
    exact hrecord.trans hlater

end WindowRule

end Kubepeep.Resources
