import Kubepeep.Resources.Steps

/-!
# The strategies follow the rule

One pass over `GlobalNative`, `NamespaceSequential`, `LazyMerge` and `NamespacePriority`: each of
them only takes the two steps of a window, and without faults each of them returns, and brings `G`
if its origins are not drained.
-/

open Option List Kubepeep.Authorization Kubepeep.Effect

namespace Kubepeep.Resources

variable {σ T : Type}

variable {cluster : Cluster σ T} {request : CollectionRequest T} {faulty : Prop} {fuel : Nat}
  {I G : Window T → Prop} {size : List (OriginCursor T) → Nat}

theorem sat_orFail {α : Type} {m : Except ReadError α} {P : α → Prop}
    (hok : ∀ a, m = .ok a → P a) (herror : ∀ err, m = .error err → faulty) :
    Sat faulty (orFail m : Effect σ Halt α) P := by
  cases m with
  | ok a => exact sat_pure (hok a rfl)
  | error err => exact sat_throw (herror err rfl)

/-- Nothing left to fetch and nothing left to emit. -/
def Drained (origins : List (OriginCursor T)) : Prop :=
  ∀ state ∈ origins, state.exhausted = true ∧ state.buffered = []

variable {origins : List (OriginCursor T)}

theorem exists_mem_of_not_drained (h : ¬ Drained origins) :
    ∃ state ∈ origins, ¬ (state.exhausted = true ∧ state.buffered = []) := by
  unfold Drained at h
  push Not at h
  obtain ⟨state, hmem, hstate⟩ := h
  exact ⟨state, hmem, fun hboth => hstate hboth.1 hboth.2⟩

namespace WindowRule

variable (rule : WindowRule cluster request faulty fuel I G size)

include rule

/-! ## The strategies -/

theorem checkContext_spec : Sat faulty (checkContext cluster) fun _ => True := by
  unfold checkContext
  apply sat_bind (sat_lift (always_run _))
  rintro (_ | err) ⟨s, hs⟩
  · exact sat_pure trivial
  · exact sat_throw (rule.context s (by simp [← hs]))

variable {origins : List (OriginCursor T)}

theorem globalNative_spec (hlimit : 1 ≤ request.options.limit)
    (hsingle : faulty ∨ origins.length = 1)
    (h : I ⟨origins, []⟩) :
    Sat faulty (globalNative cluster request origins) fun next =>
      After faulty I G size ⟨origins, []⟩ next ∧ (¬ Drained origins → faulty ∨ G next) := by
  unfold globalNative
  split
  · next state =>
    have hi : (Window.mk [state] ([] : List (OriginOutcome T))).origins[0]? = some state := rfl
    refine sat_bind (sat_lift (always_run _)) fun outcome ⟨s, houtcome⟩ => ?_
    split
    · next hstop =>
      have hreview : Reviewed cluster request state
          { outcome with authoritative := state.exhausted || !state.buffered.isEmpty } :=
        ⟨s, _, by rw [houtcome], by simp⟩
      apply sat_pure
      refine ⟨rule.record_review h hi hreview, fun hleft => ?_⟩
      -- Rows that are left are buffered, unless the review is a fault.
      have hrows : faulty ∨ state.buffered ≠ [] := by
        rcases hstop with hdenied | hexhausted | hfull
        · exact .inl ((rule.allowed h hi hreview).resolve_right hdenied)
        · refine .inr fun hbuffered => hleft ?_
          simpa [Drained] using ⟨hexhausted, hbuffered⟩
        · refine .inr fun hbuffered => ?_
          rw [hbuffered, length_nil] at hfull
          omega
      refine hrows.imp id fun hrows => (rule.review h hi hreview).2.2 ?_ hrows
      simp [hrows]
    · next hgo =>
      push Not at hgo
      have hreview : Reviewed cluster request state outcome := by
        have hplain : outcome.authoritative = false := by
          rw [houtcome]
          exact (authorizeOrigin_spec state.origin s).2.2
        exact ⟨s, false, by rw [← houtcome, ← hplain], by simp⟩
      have hrecord := rule.record_review h hi hreview
      refine sat_bind (sat_lift (always_run _)) fun fetched ⟨s', hfetched⟩ => ?_
      have hfetch : Fetched cluster request state fetched :=
        ⟨s', _, _, _, hlimit, hgo.1, hfetched⟩
      have hopen : state.exhausted = false := by simpa using hgo.2.1
      refine (rule.absorb_spec hrecord.inv rfl hopen (.inr hfetch)).mono
        fun next hnext => ⟨hrecord.trans hnext.1, fun _ => ?_⟩
      cases herr : fetched.err with
      | some err => exact .inl (rule.failed hrecord.inv hi hopen hfetch (by simp [herr])).1
      | none =>
        refine .inr (hnext.2.2.2 ?_).1
        rw [hfetch.succeeded_eq, herr, isNone_none]
  · next hother =>
    refine sat_throw (hsingle.resolve_right fun hone => ?_)
    obtain ⟨state, rfl⟩ := length_eq_one_iff.mp hone
    exact hother state rfl

/-! ### Namespace sequential -/

theorem refill_spec (hlimit : 1 ≤ request.options.limit) {capability : Capability}
    (hcapability : capability.decision = .DecisionAllowed) (index : Nat) :
    ∀ (left : Nat) (state : SequentialState T), I state.toWindow →
    (faulty ∨ size state.origins < left) →
    Sat faulty (refill cluster request capability index left state) fun next =>
      After faulty I G size state.toWindow next.toWindow ∧ next.prefetched = state.prefetched ∧
      ∀ origin, state.origins[index]? = some origin → origin.exhausted = false →
        state.available < request.options.limit → faulty ∨ G next.toWindow := by
  intro left
  induction left with
  | zero =>
    intro state _ hleft
    exact sat_throw (hleft.resolve_right (Nat.not_lt_zero _))
  | succ left ih =>
    intro state h hleft
    unfold refill
    split
    · next hnone =>
      apply sat_pure
      exact ⟨.refl h, rfl, by simp [hnone]⟩
    · next origin horigin =>
      split
      · next hgo =>
        refine sat_bind (sat_lift (always_run _)) fun fetched ⟨s, hfetched⟩ => ?_
        have hf : Fetched cluster request origin fetched :=
          ⟨s, _, _, _, one_le_originChunkLimit hlimit _, hcapability, hfetched⟩
        refine sat_bind (rule.absorb_spec h horigin hgo.2 (.inr hf))
          fun window ⟨hafter, _, _, hsucc⟩ => ?_
        split
        · next herr =>
          apply sat_pure
          exact ⟨hafter, rfl, fun _ _ _ _ => .inl (rule.failed h horigin hgo.2 hf herr).1⟩
        · next herr =>
          have hlive := hsucc (by simpa [hf.succeeded_eq] using herr)
          have hless : faulty ∨ size window.origins < left := by
            by_cases hfaulty : faulty
            · exact .inl hfaulty
            · have := hleft.resolve_left hfaulty
              have := hlive.2 hfaulty
              omega
          apply (ih _ hafter.inv hless).mono
          intro next ⟨hnext, hprefetched, _⟩
          exact ⟨hafter.trans hnext, hprefetched, fun _ _ _ _ => .inr (hnext.live hlive.1)⟩
      · next hstop =>
        apply sat_pure
        refine ⟨.refl h, rfl, ?_⟩
        intro origin' horigin' hopen hroom
        rw [horigin, some.injEq] at horigin'
        exact absurd ⟨hroom, horigin' ▸ hopen⟩ hstop

variable {state : SequentialState T} {origin : OriginCursor T}

theorem prefetch_spec (hlimit : 1 ≤ request.options.limit) {index : Nat} (h : I state.toWindow)
    (horigin : state.origins[index]? = some origin)
    (hleft : ¬ (origin.exhausted = true ∧ origin.buffered = []))
    (hprefetched : faulty ∨ G state.toWindow ∨ state.prefetched = []) :
    Sat faulty (prefetch cluster request index origin state) fun next =>
      After faulty I G size state.toWindow next.toWindow ∧ next.available = state.available ∧
      (faulty ∨ G next.toWindow ∨ next.prefetched = []) ∧
      (next = state ∨ faulty ∨ G next.toWindow) := by
  unfold prefetch
  split
  · next huntouched =>
    have hopen := open_untouchedFrom state.origins (NormalizeFanout request.fanout) index
    have hne := untouchedFrom_ne_nil horigin (by simpa [huntouched.2.1] using hleft)
      huntouched.2.1 huntouched.2.2.1 (one_le_NormalizeFanout request.fanout)
    refine sat_bind (sat_lift (rule.fetchBatch_spec hlimit h hopen _))
      fun fetched ⟨hsub, hall, hdone⟩ => ?_
    refine sat_bind (rule.absorbBatch_spec h hopen hsub hall hdone)
      fun window ⟨hafter, _, _, _, hlive⟩ => ?_
    have hG := hlive hne (by simp)
    apply sat_pure
    exact ⟨hafter, rfl, hG.imp id .inl, .inr hG⟩
  · apply sat_pure
    exact ⟨.refl h, rfl, hprefetched, .inl rfl⟩

theorem authorizeSequential_spec {index : Nat} (h : I state.toWindow)
    (horigin : state.origins[index]? = some origin) :
    Sat faulty (authorizeSequential cluster request index origin state)
      fun (authorized, next) =>
        After faulty I G size state.toWindow next.toWindow ∧ next.origins = state.origins ∧
        next.available = state.available ∧ next.prefetched = state.prefetched ∧
        (state.prefetched.lookup index = none →
          (faulty ∨ authorized.capability.decision = .DecisionAllowed) ∧
          (origin.buffered ≠ [] → G next.toWindow)) := by
  unfold authorizeSequential
  split
  · next outcome hsome =>
    apply sat_pure
    exact ⟨.refl h, rfl, rfl, rfl, by simp [hsome]⟩
  · refine sat_bind (sat_lift (always_run _)) fun outcome ⟨s, houtcome⟩ => ?_
    have hreviewed : Reviewed cluster request origin
        { outcome with authoritative := origin.exhausted || !origin.buffered.isEmpty } :=
      ⟨s, _, by rw [houtcome], by simp⟩
    apply sat_pure
    refine ⟨rule.record_review h horigin hreviewed, rfl, rfl, rfl, fun _ =>
      ⟨rule.allowed h horigin hreviewed, fun hrows => ?_⟩⟩
    exact (rule.review h horigin hreviewed).2.2 (by simp [hrows]) hrows

/-- One origin in sequence.  Until `G` holds nothing was prefetched, and an origin with rows left
brings `G`. -/
theorem sequentialOrigin_spec (hlimit : 1 ≤ request.options.limit) (index : Nat)
    (h : I state.toWindow)
    (hprefetched : faulty ∨ G state.toWindow ∨ state.prefetched = [])
    (hroom : state.available < request.options.limit) :
    Sat faulty (sequentialOrigin cluster request fuel index state) fun (next, full) =>
      After faulty I G size state.toWindow next.toWindow ∧
      (faulty ∨ G next.toWindow ∨ next.prefetched = []) ∧
      (full = false → next.available < request.options.limit) ∧
      (full = true → faulty ∨ G next.toWindow) ∧
      ∀ origin, state.origins[index]? = some origin →
        ¬ (origin.exhausted = true ∧ origin.buffered = []) → faulty ∨ G next.toWindow := by
  unfold sequentialOrigin
  refine sat_bind rule.checkContext_spec fun _ _ => ?_
  split
  · next hnone =>
    apply sat_pure
    exact ⟨.refl h, hprefetched, fun _ => hroom, by simp, by simp [hnone]⟩
  · next origin horigin =>
    split
    · next hdrained =>
      apply sat_pure
      refine ⟨.refl h, hprefetched, fun _ => hroom, by simp, ?_⟩
      intro origin' horigin' hleft
      rw [horigin, some.injEq] at horigin'
      exact absurd (horigin' ▸ hdrained) hleft
    · next hleft =>
      refine sat_bind (rule.prefetch_spec hlimit h horigin hleft hprefetched)
        fun middle ⟨hmiddle, havailable, hprefetched', hsame⟩ => ?_
      split
      · next hnone =>
        apply sat_pure
        refine ⟨hmiddle, hprefetched', fun _ => havailable ▸ hroom, by simp, fun _ _ _ => ?_⟩
        refine hsame.resolve_left fun heq => ?_
        rw [heq, horigin] at hnone
        cases hnone
      · next origin' horigin' =>
        refine sat_bind (rule.authorizeSequential_spec hmiddle.inv horigin') ?_
        rintro ⟨authorized, last⟩ ⟨hlast, horigins, havailable', hlookup, hreview⟩
        dsimp only
        have hprefetched'' : faulty ∨ G last.toWindow ∨ last.prefetched = [] :=
          hprefetched'.imp id (Or.imp hlast.live hlookup.trans)
        -- A prefetched origin already brought `G`.
        have hseen : middle.prefetched.lookup index ≠ none → faulty ∨ G last.toWindow := by
          intro hsome
          refine hprefetched''.imp id fun hG => hG.resolve_right fun hnil => hsome ?_
          rw [← hlookup, hnil, lookup_nil]
        split
        · next hdenied =>
          apply sat_pure
          refine ⟨hmiddle.trans hlast, hprefetched'', fun _ => ?_, by simp, fun _ _ _ => ?_⟩
          · rw [havailable', havailable]
            exact hroom
          · by_cases hnone : middle.prefetched.lookup index = none
            · exact .inl ((hreview hnone).1.resolve_right hdenied)
            · exact hseen hnone
        · split
          · next herr =>
            apply sat_pure
            refine ⟨hmiddle.trans hlast, hprefetched'', fun _ => ?_, by simp, fun _ _ _ => ?_⟩
            · rw [havailable', havailable]
              exact hroom
            · refine hseen fun hnone => ?_
              rw [hlookup, hnone] at herr
              exact absurd herr.1 (by simp)
          · next hallowed _ =>
            rw [not_not] at hallowed
            refine sat_bind (rule.refill_spec hlimit hallowed index fuel _ hlast.inv
              (rule.enough hlast.inv)) fun final ⟨hfinal, hkept, hrefill⟩ => ?_
            have hG : faulty ∨ G final.toWindow := by
              by_cases hnone : middle.prefetched.lookup index = none
              · cases hsame with
                | inr hG => exact hG.imp id fun hG => hfinal.live (hlast.live hG)
                | inl heq =>
                  -- Neither prefetched nor reviewed with rows: the refill has room.
                  subst heq
                  rw [horigin, some.injEq] at horigin'
                  subst horigin'
                  by_cases hrows : origin.buffered = []
                  · refine hrefill origin (horigins ▸ horigin) (by simpa [hrows] using hleft) ?_
                    simpa [hrows, havailable'] using hroom
                  · exact .inr (hfinal.live ((hreview hnone).2 hrows))
              · exact (hseen hnone).imp id hfinal.live
            apply sat_pure
            exact ⟨(hmiddle.trans hlast).trans hfinal,
              hprefetched''.imp id (Or.imp hfinal.live hkept.trans), by simp, fun _ => hG,
              fun _ _ _ => hG⟩

variable {start : List (OriginCursor T)}

theorem sequentialLoop_spec (hlimit : 1 ≤ request.options.limit)
    (hstart : ∀ window, I window → G window ∨ window.origins = start) (indices : List Nat) :
    ∀ state : SequentialState T, I state.toWindow →
    (faulty ∨ G state.toWindow ∨ state.prefetched = []) →
    state.available < request.options.limit →
    Sat faulty (sequentialLoop cluster request fuel indices state) fun next =>
      After faulty I G size state.toWindow next ∧
      ((∃ index ∈ indices, ∃ origin, start[index]? = some origin ∧
        ¬ (origin.exhausted = true ∧ origin.buffered = [])) → faulty ∨ G next) := by
  induction indices with
  | nil =>
    intro state h _ _
    apply sat_pure
    exact ⟨.refl h, by simp⟩
  | cons index rest ih =>
    intro state h hprefetched hroom
    unfold sequentialLoop
    apply sat_bind (rule.sequentialOrigin_spec hlimit index h hprefetched hroom)
    rintro ⟨middle, full⟩ ⟨hmiddle, hprefetched', hroom', hfull, hhere⟩
    dsimp only at hmiddle hprefetched' hroom' hfull hhere ⊢
    have hfirst : (∃ origin, start[index]? = some origin ∧
        ¬ (origin.exhausted = true ∧ origin.buffered = [])) → faulty ∨ G middle.toWindow := by
      intro ⟨origin, horigin, hleft⟩
      cases hstart _ h with
      | inl hG => exact .inr (hmiddle.live hG)
      | inr heq => exact hhere origin (heq ▸ horigin) hleft
    split
    · next htrue =>
      apply sat_pure
      exact ⟨hmiddle, fun _ => hfull htrue⟩
    · next hnot =>
      refine (ih middle hmiddle.inv hprefetched' (hroom' (by simpa using hnot))).mono
        fun next ⟨hnext, hlater⟩ => ⟨hmiddle.trans hnext, ?_⟩
      rintro ⟨j, hj, hopen⟩
      cases mem_cons.mp hj with
      | inl heq => exact (hfirst (heq ▸ hopen)).imp id hnext.live
      | inr hmem => exact hlater ⟨j, hmem, hopen⟩

/-- `I` together with: the origins are those of `start` until `G` holds. -/
theorem track (start : List (OriginCursor T)) :
    WindowRule cluster request faulty fuel
      (fun window => I window ∧ (G window ∨ window.origins = start)) G size where
  review h hi hr :=
    have hnext := rule.review h.1 hi hr
    ⟨⟨hnext.1, h.2.imp hnext.2.1 id⟩, hnext.2⟩
  failed h hi hopen hf herr :=
    have hnext := rule.failed h.1 hi hopen hf herr
    ⟨hnext.1, ⟨hnext.2.1, h.2.imp hnext.2.2 id⟩, hnext.2.2⟩
  rejected h := rule.rejected h.1
  fetched h hi hopen hf herr happly :=
    have hnext := rule.fetched h.1 hi hopen hf herr happly
    ⟨⟨hnext.1, .inl hnext.2.1⟩, hnext.2⟩
  context := rule.context
  allowed h := rule.allowed h.1
  scheduled := rule.scheduled
  enough h := rule.enough h.1
  namespaced h := rule.namespaced h.1

section

variable (hlimit : 1 ≤ request.options.limit)

include hlimit

theorem namespaceSequential_spec (h : I ⟨origins, []⟩) :
    Sat faulty (namespaceSequential cluster request fuel origins) fun next =>
      After faulty I G size ⟨origins, []⟩ next ∧ (¬ Drained origins → faulty ∨ G next) := by
  refine ((rule.track origins).sequentialLoop_spec hlimit (fun _ h => h.2) _ _ ⟨h, .inr rfl⟩
    (.inr (.inr rfl)) (by dsimp only; omega)).mono fun next ⟨hnext, hlive⟩ =>
      ⟨⟨hnext.inv.1, hnext.live, hnext.size_le⟩, fun hleft => ?_⟩
  obtain ⟨state, hmem, hstate⟩ := exists_mem_of_not_drained hleft
  obtain ⟨index, hindex, hget⟩ := getElem_of_mem hmem
  exact hlive ⟨index, mem_range.mpr hindex, state, by simp [hindex, hget], hstate⟩

/-! ### Lazy merge -/

/-- The batches of a pass.  `bound` is the size at the start of the round: progress lowers it. -/
theorem lazyBatches_spec (bound : Nat)
    (batched : List (List Nat)) (hne : ∀ batch ∈ batched, batch ≠ []) :
    ∀ state : LazyState T, I state.toWindow → Open state.origins batched.flatten →
    (faulty ∨ ∀ key, state.allowed key ≠ some false) → (¬ faulty → size state.origins ≤ bound) →
    (state.progress = true → ¬ faulty → size state.origins < bound) →
    Sat faulty (lazyBatches cluster request batched state) fun (next, _) =>
      After faulty I G size state.toWindow next.toWindow ∧
      (faulty ∨ ∀ key, next.allowed key ≠ some false) ∧
      (next.progress = true → ¬ faulty → size next.origins < bound) ∧
      (batched ≠ [] → faulty ∨ G next.toWindow) := by
  induction batched with
  | nil =>
    intro state h _ hallowed _ hprogress
    apply sat_pure
    exact ⟨.refl h, hallowed, hprogress, by simp⟩
  | cons indices rest ih =>
    intro state h hopen hallowed hbound hprogress
    rw [forall_mem_cons] at hne
    have hhead := hopen.sublist (sublist_append_left _ _)
    unfold lazyBatches
    refine sat_bind rule.checkContext_spec fun _ _ => ?_
    refine sat_bind (sat_lift (rule.fetchBatch_spec hlimit h hhead _))
      fun fetched ⟨hsub, hall, hdone⟩ => ?_
    refine sat_bind (rule.absorbBatch_spec h hhead hsub hall hdone)
      fun window ⟨hafter, hframe, hgranted, hsucc, hlive⟩ => ?_
    have hG : faulty ∨ G window := by
      cases hallowed with
      | inl hf => exact .inl hf
      | inr hknown => exact hlive hne.1 hknown
    have hallowed' : faulty ∨ ∀ key,
        (fetched.map (·.2)).foldl noteDecision state.allowed key ≠ some false := by
      cases hallowed with
      | inl hf => exact .inl hf
      | inr hknown =>
        refine hgranted.imp id fun hg => foldl_noteDecision_ne_false ?_ _ hknown
        intro outcome houtcome
        obtain ⟨result, hresult, rfl⟩ := mem_map.mp houtcome
        exact hg result hresult
    have hprogress' : (state.progress || fetched.any fun result => result.2.succeeded) = true →
        ¬ faulty → size window.origins < bound := by
      intro hp hf
      cases (Bool.or_eq_true _ _).mp hp with
      | inl hold => exact (hafter.size_le hf).trans_lt (hprogress hold hf)
      | inr hnew =>
        obtain ⟨result, hresult, hs⟩ := any_eq_true.mp hnew
        exact ((hsucc ⟨result, hresult, hs⟩).2 hf).trans_le (hbound hf)
    dsimp only
    split
    · apply sat_pure
      exact ⟨hafter, hallowed', hprogress', fun _ => hG⟩
    · -- The other batches have other indices, whose origins have not changed.
      have hrest : Open window.origins rest.flatten := by
        refine ⟨(hopen.sublist (sublist_append_right _ _)).1, fun index hindex => ?_⟩
        rw [hframe index fun hmem =>
          (nodup_append.mp hopen.1).2.2 index hmem index hindex rfl]
        exact hopen.2 index (mem_append_right _ hindex)
      refine (ih hne.2 _ hafter.inv hrest hallowed'
        (fun hf => (hafter.size_le hf).trans (hbound hf)) hprogress').mono
        fun ⟨next, _⟩ ⟨hnext, hallowed'', hprogress'', _⟩ => ?_
      exact ⟨hafter.trans hnext, hallowed'', hprogress'', fun _ => hG.imp id hnext.live⟩

theorem lazyPass_spec (bound : Nat) (preferEmpty : Bool)
    (state : LazyState T) (h : I state.toWindow)
    (hallowed : faulty ∨ ∀ key, state.allowed key ≠ some false)
    (hbound : ¬ faulty → size state.origins ≤ bound)
    (hprogress : state.progress = true → ¬ faulty → size state.origins < bound) :
    Sat faulty (lazyPass cluster request preferEmpty state) fun (next, _) =>
      After faulty I G size state.toWindow next.toWindow ∧
      (faulty ∨ ∀ key, next.allowed key ≠ some false) ∧
      (next.progress = true → ¬ faulty → size next.origins < bound) ∧
      (passIndices state.origins preferEmpty ≠ [] → faulty ∨ G next.toWindow) := by
  have hfanout := one_le_NormalizeFanout request.fanout
  have hflatten := flatten_batches hfanout _ (passIndices state.origins preferEmpty) le_rfl
  have hopen := open_passIndices state.origins preferEmpty
  rw [← hflatten] at hopen
  refine (rule.lazyBatches_spec hlimit bound _ (ne_nil_of_mem_batches hfanout _ _) state h hopen
    hallowed hbound hprogress).mono fun ⟨next, _⟩ ⟨hnext, hallowed', hprogress', hlive⟩ => ?_
  refine ⟨hnext, hallowed', hprogress', fun hne => hlive fun hnil => hne ?_⟩
  rw [← hflatten, hnil, flatten_nil]

/-- The rounds.  A round that goes on has made progress, so the size bounds their number. -/
theorem lazyLoop_spec (left : Nat) :
    ∀ state : LazyState T, I state.toWindow →
    (faulty ∨ ∀ key, state.allowed key ≠ some false) → (faulty ∨ size state.origins < left) →
    Sat faulty (lazyLoop cluster request left state) fun next =>
      After faulty I G size state.toWindow next ∧
      (passIndices state.origins true ≠ [] → faulty ∨ G next) := by
  induction left with
  | zero =>
    intro state _ _ hleft
    exact sat_throw (hleft.resolve_right (Nat.not_lt_zero _))
  | succ left ih =>
    intro state h hallowed hleft
    unfold lazyLoop
    refine sat_bind (rule.lazyPass_spec hlimit (size state.origins) true
      { state with progress := false } h hallowed (fun _ => le_rfl) (by simp)) ?_
    rintro ⟨first, full⟩ ⟨hfirst, hallowed', hprogress', hlive⟩
    dsimp only at hfirst hlive ⊢
    split
    · apply sat_pure
      exact ⟨hfirst, hlive⟩
    · refine sat_bind (rule.lazyPass_spec hlimit (size state.origins) false first hfirst.inv
        hallowed' hfirst.size_le hprogress') ?_
      rintro ⟨second, full'⟩ ⟨hsecond, hallowed'', hprogress'', _⟩
      have hboth := hfirst.trans hsecond
      split
      · apply sat_pure
        exact ⟨hboth, fun hne => (hlive hne).imp id hsecond.live⟩
      · split
        · apply sat_pure
          exact ⟨hboth, fun hne => (hlive hne).imp id hsecond.live⟩
        · next hgo =>
          have hlt := hprogress'' (by simpa using fun h => hgo (.inl h))
          have hless : faulty ∨ size second.origins < left := by
            by_cases hfaulty : faulty
            · exact .inl hfaulty
            · have := hleft.resolve_left hfaulty
              have := hlt hfaulty
              omega
          refine (ih second hsecond.inv hallowed'' hless).mono
            fun next ⟨hnext, _⟩ => ⟨hboth.trans hnext, fun hne => ?_⟩
          exact (hlive hne).imp id fun hG => hnext.live (hsecond.live hG)

end

omit rule in
theorem bufferedIndices_ne_nil_of_count
    (allowed : String → Option Bool) (h : 1 ≤ authorizedBufferedCount origins allowed) :
    bufferedIndices origins ≠ [] := by
  intro hnil
  have hzero : authorizedBufferedCount origins allowed = 0 := by
    apply sum_eq_zero
    intro count hcount
    obtain ⟨state, hmem, rfl⟩ := mem_map.mp hcount
    obtain ⟨index, hget⟩ := mem_iff_getElem?.mp hmem
    have hempty : state.buffered = [] := by
      by_contra hrows
      exact absurd (mem_bufferedIndices.mpr ⟨state, hget, hrows⟩) (by simp [hnil])
    simp [hempty]
  omega

theorem live_of_reviewed_rows (h : I ⟨origins, []⟩) {reviewed : List (OriginOutcome T)}
    (hall : faulty ∨ reviewed.length = (bufferedIndices origins).length)
    (hreviewed : ∀ outcome ∈ reviewed, ∃ index ∈ bufferedIndices origins, ∃ state,
      origins[index]? = some state ∧ Reviewed cluster request state outcome ∧
      (state.buffered ≠ [] → outcome.authoritative = true)) (hne : bufferedIndices origins ≠ []) :
    faulty ∨ G ⟨origins, reviewed⟩ := by
  refine hall.imp id fun hlength => ?_
  cases reviewed with
  | nil => exact absurd (length_eq_zero_iff.mp hlength.symm) hne
  | cons outcome rest =>
    rw [forall_mem_cons] at hreviewed
    obtain ⟨⟨index, hindex, state, hstate, hr, hauthoritative⟩, hrest⟩ := hreviewed
    have hrows : state.buffered ≠ [] := by
      obtain ⟨state', hstate', hrows⟩ := mem_bufferedIndices.mp hindex
      rw [hstate, some.injEq] at hstate'
      exact hstate' ▸ hrows
    have hfirst := rule.review h hstate hr
    refine (rule.recordAll_spec rest [outcome] hfirst.1 fun outcome houtcome => ?_).live
      (hfirst.2.2 (hauthoritative hrows) hrows)
    obtain ⟨index, _, state, hstate, hr, _⟩ := hrest outcome houtcome
    exact ⟨index, state, hstate, hr⟩

theorem lazyMerge_spec (hlimit : 1 ≤ request.options.limit) (h : I ⟨origins, []⟩) :
    Sat faulty (lazyMerge cluster request fuel origins) fun next =>
      After faulty I G size ⟨origins, []⟩ next ∧ (¬ Drained origins → faulty ∨ G next) := by
  unfold lazyMerge
  refine sat_bind (sat_lift (rule.authorizeBatch_spec hlimit h ?_))
    fun reviewed ⟨hall, hreviewed⟩ => ?_
  · intro index hindex
    obtain ⟨state, hstate, _⟩ := mem_bufferedIndices.mp hindex
    exact (List.getElem?_eq_some_iff.mp hstate).1
  have hstart : After faulty I G size ⟨origins, []⟩ ⟨origins, reviewed⟩ :=
    rule.recordAll_spec reviewed [] h fun outcome houtcome => by
      obtain ⟨index, _, state, hstate, hr, _⟩ := hreviewed outcome houtcome
      exact ⟨index, state, hstate, hr⟩
  have hallowed : faulty ∨ ∀ key,
      reviewed.foldl noteDecision (fun _ => none) key ≠ some false := by
    by_cases hf : faulty
    · exact .inl hf
    refine .inr (foldl_noteDecision_ne_false (fun outcome houtcome => ?_) _ (by simp))
    obtain ⟨index, _, state, hstate, hr, _⟩ := hreviewed outcome houtcome
    exact (rule.allowed h hstate hr).resolve_left hf
  -- Buffered rows bring `G` with their review, and otherwise the first pass has work to do.
  have hrows : bufferedIndices origins ≠ [] → faulty ∨ G ⟨origins, reviewed⟩ :=
    rule.live_of_reviewed_rows h hall hreviewed
  dsimp only
  split
  · next hfull =>
    apply sat_pure
    refine ⟨hstart, fun _ => hrows ?_⟩
    exact bufferedIndices_ne_nil_of_count _ (hlimit.trans hfull)
  · refine (rule.lazyLoop_spec hlimit fuel _ hstart.inv hallowed (rule.enough hstart.inv)).mono
      fun next ⟨hnext, hlive⟩ => ⟨hstart.trans hnext, fun hleft => ?_⟩
    obtain ⟨state, hmem, hstate⟩ := exists_mem_of_not_drained hleft
    by_cases hbuffered : state.buffered = []
    · exact hlive (passIndices_ne_nil hmem (by simpa [hbuffered] using hstate)
        (by simp [hbuffered]))
    · refine (hrows ?_).imp id hnext.live
      obtain ⟨index, hget⟩ := List.mem_iff_getElem?.mp hmem
      exact List.ne_nil_of_mem (mem_bufferedIndices.mpr ⟨state, hget, hbuffered⟩)

/-! ### Selection -/

theorem paginatePlain_spec (hlimit : 1 ≤ request.options.limit) {selected : List Origin}
    (origins : List (OriginCursor T))
    (hselected : faulty ∨ globalOrigins selected = false ∨ origins.length = 1)
    (h : I ⟨origins, []⟩) :
    Sat faulty (paginatePlain cluster request fuel selected origins) fun next =>
      After faulty I G size ⟨origins, []⟩ next ∧ (¬ Drained origins → faulty ∨ G next) := by
  unfold paginatePlain
  split
  · next hglobal =>
    have hsingle : faulty ∨ origins.length = 1 := by simpa [hglobal] using hselected
    exact rule.globalNative_spec hlimit hsingle h
  · split
    · exact rule.namespaceSequential_spec hlimit h
    · exact rule.lazyMerge_spec hlimit h

end WindowRule

/-! ### Priority phases -/

theorem restore_filter (inPhase : OriginCursor T → Bool) (origins : List (OriginCursor T)) :
    restore inPhase origins (origins.filter inPhase) = origins := by
  induction origins with
  | nil => rfl
  | cons state rest ih =>
    unfold restore
    cases hin : inPhase state with
    | true => simp [hin, ih]
    | false => simp [hin, ih]

theorem length_restore (inPhase : OriginCursor T → Bool) (origins : List (OriginCursor T)) :
    ∀ phase, (restore inPhase origins phase).length = origins.length := by
  induction origins with
  | nil => exact fun _ => rfl
  | cons state rest ih =>
    intro phase
    unfold restore
    split
    · split <;> simp [ih]
    · simp [ih]

theorem restore_set (inPhase : OriginCursor T → Bool) (origins : List (OriginCursor T)) :
    ∀ (phase : List (OriginCursor T)) (index : Nat), phase.length = origins.countP inPhase →
    index < phase.length → ∃ place,
      (restore inPhase origins phase)[place]? = phase[index]? ∧
      ∀ state, restore inPhase origins (phase.set index state) =
        (restore inPhase origins phase).set place state := by
  induction origins with
  | nil =>
    intro phase index hlength hindex
    rw [hlength] at hindex
    exact absurd hindex (Nat.not_lt_zero _)
  | cons first rest ih =>
    intro phase index hlength hindex
    cases hin : inPhase first with
    | true =>
      cases phase with
      | nil => simp at hindex
      | cons next phase =>
        cases index with
        | zero => exact ⟨0, by simp [restore, hin], by simp [restore, hin]⟩
        | succ index =>
          obtain ⟨place, hget, hset⟩ := ih phase index (by simpa [hin] using hlength)
            (by simpa using hindex)
          refine ⟨place + 1, by simpa [restore, hin] using hget, fun state => ?_⟩
          simp [restore, hin, hset state]
    | false =>
      obtain ⟨place, hget, hset⟩ := ih phase index (by simpa [hin] using hlength) hindex
      refine ⟨place + 1, by simpa [restore, hin] using hget, fun state => ?_⟩
      simp [restore, hin, hset state]

def Window.within (inPhase : OriginCursor T → Bool) (phase whole : Window T) : Window T where
  origins := restore inPhase whole.origins phase.origins
  outcomes := whole.outcomes ++ phase.outcomes

theorem Window.within_record (inPhase : OriginCursor T → Bool) (whole phase : Window T)
    (outcome : OriginOutcome T) :
    (phase.record outcome).within inPhase whole = (phase.within inPhase whole).record outcome := by
  simp [Window.within, Window.record]

variable {inPhase : OriginCursor T → Bool} {whole phase : Window T} {state : OriginCursor T}

theorem Window.within_place
    (hlength : phase.origins.length = whole.origins.countP inPhase) {index : Nat}
    (hi : phase.origins[index]? = some state) :
    ∃ place, (phase.within inPhase whole).origins[place]? = some state ∧
      ∀ next outcome, (phase.advance index next outcome).within inPhase whole =
        (phase.within inPhase whole).advance place next outcome := by
  obtain ⟨place, hget, hset⟩ := restore_set inPhase whole.origins phase.origins index hlength
    (List.getElem?_eq_some_iff.mp hi).1
  refine ⟨place, hget.trans hi, fun next outcome => ?_⟩
  simp [Window.within, Window.advance, hset next]

theorem Window.mem_within (hlength : phase.origins.length = whole.origins.countP inPhase)
    (hmem : state ∈ phase.origins) : state ∈ (phase.within inPhase whole).origins := by
  obtain ⟨index, hi⟩ := mem_iff_getElem?.mp hmem
  obtain ⟨place, hget, _⟩ := Window.within_place hlength hi
  exact mem_of_getElem? hget

namespace WindowRule

variable (rule : WindowRule cluster request faulty fuel I G size)

include rule

theorem lift (inPhase : OriginCursor T → Bool) (whole : Window T) (available : Int) :
    WindowRule cluster (phaseRequest request available) faulty fuel
      (fun phase => I (phase.within inPhase whole) ∧
        phase.origins.length = whole.origins.countP inPhase)
      (fun phase => G (phase.within inPhase whole))
      (fun origins => size (restore inPhase whole.origins origins)) where
  review := by
    intro phase index state outcome h hi hr
    obtain ⟨place, hget, _⟩ := Window.within_place h.2 hi
    have hnext := rule.review h.1 hget hr
    rw [← Window.within_record] at hnext
    exact ⟨⟨hnext.1, h.2⟩, hnext.2⟩
  failed := by
    intro phase index state outcome h hi hopen hf herr
    obtain ⟨place, hget, _⟩ := Window.within_place h.2 hi
    have hnext := rule.failed h.1 hget hopen hf herr
    rw [← Window.within_record] at hnext
    exact ⟨hnext.1, ⟨hnext.2.1, h.2⟩, hnext.2.2⟩
  rejected := by
    intro phase index state outcome err h hi hopen hf happly herr
    obtain ⟨place, hget, _⟩ := Window.within_place h.2 hi
    exact rule.rejected h.1 hget hopen hf happly herr
  fetched := by
    intro phase index state outcome next h hi hopen hf herr happly
    obtain ⟨place, hget, hadvance⟩ := Window.within_place h.2 hi
    have hnext := rule.fetched h.1 hget hopen hf herr happly
    rw [← hadvance] at hnext
    exact ⟨⟨hnext.1, by simpa [Window.advance] using h.2⟩, hnext.2⟩
  context := rule.context
  allowed := by
    intro phase index state outcome h hi hr
    obtain ⟨place, hget, _⟩ := Window.within_place h.2 hi
    exact rule.allowed h.1 hget hr
  scheduled := rule.scheduled
  enough h := rule.enough h.1
  namespaced := by
    intro phase h
    rcases rule.namespaced h.1 with hf | hall | hsingle
    · exact .inl hf
    · exact .inr (.inl fun state hmem => hall state (Window.mem_within h.2 hmem))
    · -- A phase of a single origin is empty or all of it.
      have hle : phase.origins.length ≤ 1 := by
        rw [h.2, ← hsingle, Window.within, length_restore]
        exact countP_le_length
      rcases Nat.le_one_iff_eq_zero_or_eq_one.mp hle with hempty | hone
      · refine .inr (.inl fun state hmem => ?_)
        rw [length_eq_zero_iff.mp hempty] at hmem
        cases hmem
      · exact .inr (.inr hone)

omit rule in
theorem idle (cluster : Cluster σ T) (request : CollectionRequest T) (fuel : Nat)
    (h : ∀ state ∈ origins, state.exhausted = true) :
    WindowRule cluster request True fuel (fun window => window.origins = origins) (fun _ => True)
      (fun _ => 0) where
  review hw _ _ := ⟨hw, id, fun _ _ => trivial⟩
  failed hw _ _ _ _ := ⟨trivial, hw, id⟩
  rejected _ _ _ _ _ _ := trivial
  fetched hw hi hopen _ _ _ := by
    have hexhausted := h _ (mem_of_getElem? (hw ▸ hi))
    rw [hexhausted] at hopen
    cases hopen
  context _ _ := trivial
  allowed _ _ _ := .inl trivial
  scheduled _ _ := .inl trivial
  enough _ := .inl trivial
  namespaced _ := .inl trivial

omit rule in
theorem globalOrigins_eq_false (h : ∀ state ∈ origins, state.origin.namespaceName ≠ "") :
    globalOrigins (origins.map (·.origin)) = false := by
  cases origins with
  | nil => rfl
  | cons first rest => simp [globalOrigins, h first mem_cons_self]

omit rule in
theorem authorizedBufferedCount_of_drained (h : Drained origins)
    (allowed : String → Option Bool) : authorizedBufferedCount origins allowed = 0 := by
  apply sum_eq_zero
  intro count hcount
  obtain ⟨state, hmem, rfl⟩ := mem_map.mp hcount
  simp [(h state hmem).2]

omit rule in
theorem paginatePlain_drained (cluster : Cluster σ T) {request : CollectionRequest T}
    (hlimit : 1 ≤ request.options.limit) (selected : List Origin)
    (origins : List (OriginCursor T)) :
    Sat True (paginatePlain cluster request fuel selected origins) fun next =>
      Drained origins → next.origins = origins := by
  by_cases hdrained : Drained origins
  · exact ((idle cluster request fuel fun state hmem => (hdrained state hmem).1).paginatePlain_spec
      hlimit origins (.inl trivial) rfl).mono fun next hnext _ => hnext.1.inv
  · exact sat_of_forall fun _ h => absurd h hdrained

/-- One phase.  A phase with rows left brings `G`, a drained one changes nothing. -/
theorem priorityPhase_spec (preferred : Bool) (state : PriorityState T) (h : I state.toWindow)
    (hroom : state.available < request.options.limit) :
    Sat faulty (priorityPhase cluster request fuel preferred state) fun next =>
      After faulty I G size state.toWindow next.toWindow ∧
      (¬ Drained (state.origins.filter (preferredPhase request preferred)) →
        faulty ∨ G next.toWindow) ∧
      (Drained (state.origins.filter (preferredPhase request preferred)) →
        next.origins = state.origins ∧ next.available = state.available) := by
  unfold priorityPhase
  dsimp only
  split
  · next hempty =>
    rw [List.isEmpty_iff] at hempty
    apply sat_pure
    rw [hempty]
    exact ⟨.refl h, fun hleft => absurd (by simp [Drained]) hleft, fun _ => ⟨rfl, rfl⟩⟩
  · next hsome =>
    have hwithin : Window.within (preferredPhase request preferred)
        ⟨state.origins.filter (preferredPhase request preferred), []⟩ state.toWindow =
          state.toWindow := by
      simp [Window.within, restore_filter]
    have hselected : faulty ∨ globalOrigins ((state.origins.filter
        (preferredPhase request preferred)).map (·.origin)) = false ∨
        (state.origins.filter (preferredPhase request preferred)).length = 1 := by
      rcases rule.namespaced h with hf | hall | hsingle
      · exact .inl hf
      · exact .inr (.inl (globalOrigins_eq_false fun origin hmem =>
          hall origin (List.mem_of_mem_filter hmem)))
      · have hle := List.length_filter_le (preferredPhase request preferred) state.origins
        have hpos := List.length_pos_iff.mpr (List.isEmpty_iff.not.mp hsome)
        exact .inr (.inr (by omega))
    have hlimit : 1 ≤ (phaseRequest request state.available).options.limit :=
      show 1 ≤ request.options.limit - state.available by omega
    have hplain := (rule.lift (preferredPhase request preferred) state.toWindow
      state.available).paginatePlain_spec hlimit
      (state.origins.filter (preferredPhase request preferred)) hselected
      ⟨hwithin.symm ▸ h, List.countP_eq_length_filter.symm⟩
    refine sat_bind (hplain.and (paginatePlain_drained _ hlimit _ _))
      fun window ⟨⟨hnext, hlive⟩, hidle⟩ => sat_pure ⟨?_, ?_, ?_⟩
    · have hlive' := hnext.live
      have hsize := hnext.size_le
      rw [hwithin] at hlive'
      rw [restore_filter] at hsize
      exact ⟨hnext.inv.1, hlive', hsize⟩
    · exact hlive
    · intro hdrained
      rw [hidle hdrained]
      simp [restore_filter, authorizedBufferedCount_of_drained hdrained]

omit rule in
theorem drained_of_phases (hfirst : Drained (origins.filter (preferredPhase request true)))
    (hsecond : Drained (origins.filter (preferredPhase request false))) : Drained origins := by
  intro state hmem
  cases hin : state.origin.namespaceName == request.preferredNamespace with
  | true => exact hfirst state (mem_filter.mpr ⟨hmem, by simp [preferredPhase, hin]⟩)
  | false => exact hsecond state (mem_filter.mpr ⟨hmem, by simp [preferredPhase, hin]⟩)

section

variable (hlimit : 1 ≤ request.options.limit)

include hlimit

theorem namespacePriority_spec (h : I ⟨origins, []⟩) :
    Sat faulty (namespacePriority cluster request fuel origins) fun next =>
      After faulty I G size ⟨origins, []⟩ next ∧ (¬ Drained origins → faulty ∨ G next) := by
  unfold namespacePriority
  refine sat_bind (rule.priorityPhase_spec true ⟨⟨origins, []⟩, 0⟩ h (by dsimp only; omega))
    fun first ⟨hfirst, hlive, hidle⟩ => ?_
  dsimp only at hfirst hlive hidle
  split
  · next hstop =>
    apply sat_pure
    refine ⟨hfirst, fun _ => hlive fun hdrained => ?_⟩
    -- A drained phase leaves no rows to stop for.
    rw [(hidle hdrained).2] at hstop
    omega
  · next hgo =>
    refine sat_bind (rule.priorityPhase_spec false first hfirst.inv (by omega))
      fun second ⟨hsecond, hlive', _⟩ => sat_pure ⟨hfirst.trans hsecond, fun hleft => ?_⟩
    by_cases hdrained : Drained (origins.filter (preferredPhase request true))
    · rw [(hidle hdrained).1] at hlive'
      exact hlive' fun hother => hleft (drained_of_phases hdrained hother)
    · exact (hlive hdrained).imp id hsecond.live

/-- Every strategy keeps `I`.  Without faults it returns, and origins with rows left bring `G`. -/
theorem paginate_spec {selected : List Origin}
    (hselected : faulty ∨ globalOrigins selected = false ∨ origins.length = 1)
    (h : I ⟨origins, []⟩) :
    Sat faulty (paginate cluster request fuel selected origins) fun next =>
      After faulty I G size ⟨origins, []⟩ next ∧ (¬ Drained origins → faulty ∨ G next) := by
  unfold paginate
  split
  · exact rule.namespacePriority_spec hlimit h
  · exact rule.paginatePlain_spec hlimit origins hselected h

theorem recheckCompleted_spec {window : Window T}
    (h : I window) : Always (recheckCompleted cluster request window) fun outcomes =>
      After faulty I G size window ⟨window.origins, outcomes⟩ := by
  unfold recheckCompleted
  split
  · refine always_bind (rule.authorizeBatch_spec hlimit h ?_)
      fun reviewed ⟨_, hreviewed⟩ => always_pure ?_
    · intro index hindex
      obtain ⟨⟨state, i⟩, hmem, hif⟩ := List.mem_filterMap.mp hindex
      have hstate := mem_zipIdx_getElem? hmem
      dsimp only at hif hstate
      split at hif
      · rw [some.injEq] at hif
        exact hif ▸ (List.getElem?_eq_some_iff.mp hstate).1
      · cases hif
    · apply rule.recordAll_spec reviewed window.outcomes h
      intro outcome houtcome
      obtain ⟨index, _, state, hstate, hr, _⟩ := hreviewed outcome houtcome
      exact ⟨index, state, hstate, hr⟩
  · exact always_pure (.refl h)

theorem window_spec {origins : List Origin} {start : CompositeCursor T}
    (hselected : faulty ∨ globalOrigins origins = false ∨ start.origins.length = 1)
    (h : I ⟨start.origins, []⟩) {P : ListResult T × Trace T → Prop}
    (hok : ∀ window out, After faulty I G size ⟨start.origins, []⟩ window →
      (¬ Drained start.origins → faulty ∨ G window) →
      publish request origins start { start with origins := window.origins } window.outcomes =
        .ok out → P out)
    (herror : ∀ window err, After faulty I G size ⟨start.origins, []⟩ window →
      (¬ Drained start.origins → faulty ∨ G window) →
      publish request origins start { start with origins := window.origins } window.outcomes =
        .error err → faulty) :
    Sat faulty (do
      let window ← paginate cluster request fuel origins start.origins
      let outcomes ← recheckCompleted cluster request window
      orFail (publish request origins start { start with origins := window.origins } outcomes))
      P := by
  refine sat_bind (rule.paginate_spec hlimit hselected h) fun window ⟨hwindow, hlive⟩ => ?_
  refine sat_bind (sat_lift (rule.recheckCompleted_spec hlimit hwindow.inv))
    fun outcomes hrecheck => ?_
  have hafter := hwindow.trans hrecheck
  have hlive' : ¬ Drained start.origins → faulty ∨ G ⟨window.origins, outcomes⟩ :=
    fun hleft => (hlive hleft).imp id hrecheck.live
  exact sat_orFail (fun out => hok ⟨window.origins, outcomes⟩ out hafter hlive')
    fun err => herror ⟨window.origins, outcomes⟩ err hafter hlive'

end

end WindowRule

/-! ## One window of a collection -/

def Granted (request : CollectionRequest T) (grant : Option Capability) : Prop :=
  grant = request.globalListGrant ∨ ∃ capability : Capability,
    capability.decision = .DecisionAllowed ∧ grant = some capability

theorem Granted.allowed {grant : Option Capability} (h : Granted request grant)
    (hown : request.globalListGrant = none) {capability : Capability}
    (hsome : grant = some capability) : capability.decision = .DecisionAllowed := by
  cases h with
  | inl heq => exact absurd (hsome.symm.trans (heq.trans hown)) (by simp)
  | inr hglobal =>
    obtain ⟨other, hdecision, heq⟩ := hglobal
    exact some.inj (heq.symm.trans hsome) ▸ hdecision

theorem globalGrant_spec (origins : List Origin) :
    Always (globalGrant cluster request origins) fun granted =>
      ∃ grant, Granted request grant ∧ granted = { request with globalListGrant := grant } := by
  have hown : ∃ grant, Granted request grant ∧
      request = { request with globalListGrant := grant } :=
    ⟨request.globalListGrant, .inl rfl, rfl⟩
  unfold globalGrant
  split
  · split
    · refine always_bind (always_run _) fun capability _ => ?_
      split
      · next hallowed =>
        exact always_pure ⟨some capability, .inr ⟨capability, hallowed, rfl⟩, rfl⟩
      · exact always_pure hown
    · exact always_pure hown
  · exact always_pure hown

theorem collectTraced_sat {P : ListResult T × Trace T → Prop}
    (hselection : request.selection.generation = "" ∨ request.selection.context = "" ∨
      request.selection.scope = "" → faulty)
    (hlimits : request.options.limit < 1 ∨ request.options.limit > MaximumListLimit → faulty)
    (hempty : canonicalOrigins request.origins = [] → ∀ result, result.items = [] →
      result.cursor = none → result.page.complete = true →
      P (result, ⟨⟨0, []⟩, [], [], ⟨0, []⟩⟩))
    (hstart : canonicalOrigins request.origins ≠ [] → ∀ err,
      startCursor request (canonicalOrigins request.origins) = .error err → faulty)
    (hpublish : canonicalOrigins request.origins ≠ [] → ∀ grant start, Granted request grant →
      1 ≤ request.options.limit → request.options.limit ≤ MaximumListLimit →
      startCursor request (canonicalOrigins request.origins) = .ok start →
      Sat faulty (do
        let window ← paginate cluster { request with globalListGrant := grant } fuel
          (canonicalOrigins request.origins) start.origins
        let outcomes ← recheckCompleted cluster { request with globalListGrant := grant } window
        orFail (publish { request with globalListGrant := grant } (canonicalOrigins request.origins)
          start { start with origins := window.origins } outcomes)) P) :
    Sat faulty (collectTraced cluster request fuel) P := by
  unfold collectTraced
  split
  · next hincomplete => exact sat_throw (hselection hincomplete)
  split
  · next houtside => exact sat_throw (hlimits houtside)
  next hinside =>
  apply sat_bind (sat_lift (globalGrant_spec _))
  rintro _ ⟨grant, hgrant, rfl⟩
  split
  · next hnone =>
    apply sat_pure
    exact hempty (List.isEmpty_iff.mp hnone) _ rfl rfl rfl
  · next hsome =>
    rw [List.isEmpty_iff] at hsome
    exact sat_bind (sat_orFail (fun _ h => h) (hstart hsome))
      fun start hcursor => hpublish hsome grant start hgrant (by omega) (by omega) hcursor

end Kubepeep.Resources
