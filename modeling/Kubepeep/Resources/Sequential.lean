import Mathlib
import Kubepeep.Resources.Drain
import Kubepeep.Resources.Lanes

/-!
# Sorted pages from the namespace sequence

`NamespaceSequential` reads the namespaces in order, with a bounded prefetch of later ones, and
`mergeAuthorizedOriginPages` merges whatever was read.  What keeps the pages sorted is that nothing
smaller than an emitted row is unread: the origins before the one where the loop stops are
exhausted, and together with that one they fill the page.
-/

open Nat List Kubepeep.Authorization Kubepeep.Effect

namespace Kubepeep.Resources.Sequential

variable {σ T : Type} {namespaceOf name : T → String}

/-! ## What the lister still holds -/

section

variable {cluster : Cluster σ T} {request : CollectionRequest T} {origins : List Origin}
  {lister : NativeLister cluster request.options origins} {start : List (OriginCursor T)}
  {window : Window T}

theorem absorb_exact {state : OriginCursor T} {page : OriginPage T} (h : lister.Brings state page)
    (hopen : state.exhausted = false)
    (hsorted : InOrder request.less (state.buffered ++ lister.tail state)) :
    (state.absorb page request.less).buffered = state.buffered ++ page.items ∧
      (state.absorb page request.less).buffered ++ lister.tail (state.absorb page request.less) =
        state.buffered ++ lister.tail state := by
  have htail := lister.tail_absorb h hopen request.less
  have hbuffered : (state.absorb page request.less).buffered = state.buffered ++ page.items := by
    show sortListItems (state.buffered ++ page.items) request.less = _
    apply InOrder.sorted
    apply hsorted.sublist
    rw [htail, ← append_assoc]
    exact sublist_append_left _ _
  refine ⟨hbuffered, ?_⟩
  rw [hbuffered, htail, append_assoc]

structure Ordered (namespaceOf : T → String) (lister : NativeLister cluster request.options origins)
    (start : List (OriginCursor T)) (window : Window T) : Prop where
  keeps : lister.Keeps start window
  contents : lister.contents window.origins = lister.contents start
  lanes : ∀ state ∈ window.origins, ∀ row ∈ state.buffered ++ lister.tail state,
    namespaceOf row = state.origin.namespaceName

section

variable (h : Ordered namespaceOf lister start window)

include h

theorem Ordered.state
    (hsorted : InOrder request.less (lister.contents start)) {state : OriginCursor T}
    (hmem : state ∈ window.origins) :
    InOrder request.less (state.buffered ++ lister.tail state) := by
  rw [← h.contents] at hsorted
  exact (pairwise_flatMap.mp hsorted).1 state hmem

variable {outcome : OriginOutcome T}

theorem Ordered.record (hkeeps : lister.Keeps start (window.record outcome)) :
    Ordered namespaceOf lister start (window.record outcome) :=
  ⟨hkeeps, h.contents, h.lanes⟩

theorem Ordered.advance (hsorted : InOrder request.less (lister.contents start)) {index : Nat}
    {state : OriginCursor T} (hi : window.origins[index]? = some state)
    (hopen : state.exhausted = false)
    (hbrings : lister.Brings state outcome.page)
    (hkeeps : lister.Keeps start
      (window.advance index (state.absorb outcome.page request.less) outcome)) :
    Ordered namespaceOf lister start
      (window.advance index (state.absorb outcome.page request.less) outcome) := by
  have hmem := mem_of_getElem? hi
  have hexact := (absorb_exact hbrings hopen (h.state hsorted hmem)).2
  refine ⟨hkeeps, ?_, ?_⟩
  · rw [← h.contents]
    obtain ⟨l₁, l₂, hstates, hset⟩ :=
      NativeLister.set_split hi (state.absorb outcome.page request.less)
    show lister.contents (window.origins.set index _) = _
    rw [hset, hstates]
    simp only [NativeLister.contents, flatMap_append, flatMap_cons]
    rw [hexact]
  · intro other hother
    cases mem_or_eq_of_mem_set hother with
    | inl hold => exact h.lanes other hold
    | inr hnew =>
      subst hnew
      rw [hexact]
      exact h.lanes state hmem

end

theorem orderedRule (namespaceOf : T → String)
    (lister : NativeLister cluster request.options origins) (hcluster : Faultless cluster)
    (hallows : Allows cluster request.selection.generation origins) {grant : Option Capability}
    (hgrant : ∀ capability, grant = some capability → capability.decision = .DecisionAllowed)
    (hscope : (∀ origin ∈ origins, origin.namespaceName ≠ "") ∨ origins.length = 1)
    (hsorted : InOrder request.less (lister.contents start)) {fuel : Nat}
    (hfuel : lister.weight start < fuel) :
    WindowRule cluster { request with globalListGrant := grant } False fuel
      (Ordered namespaceOf lister start) (lister.Live start) lister.weight :=
  have rule := lister.windowRule hcluster hallows hgrant hscope hfuel
  { review := fun h hi hr =>
      have hnext := rule.review h.keeps hi hr
      ⟨h.record hnext.1, hnext.2⟩
    failed := fun h hi hopen hf herr =>
      have hnext := rule.failed h.keeps hi hopen hf herr
      hnext.1.elim
    rejected := fun h => rule.rejected h.keeps
    fetched := by
      intro window index state outcome next h hi hopen hf herr happly
      have hnext := rule.fetched h.keeps hi hopen hf herr happly
      have hmem := mem_of_getElem? hi
      have hbrings := (lister.fetched hcluster (h.keeps.origin_mem hmem)
        ((h.keeps.serves state hmem).issued hopen) hf).2.2
      obtain ⟨_, rfl⟩ := applyOriginPage_ok happly
      exact ⟨h.advance hsorted hi hopen hbrings hnext.1, hnext.2⟩
    context := rule.context
    allowed := fun h => rule.allowed h.keeps
    scheduled := rule.scheduled
    enough := fun h => rule.enough h.keeps
    namespaced := fun h => rule.namespaced h.keeps }

end

/-! ## The loop over the namespaces -/

theorem bufferedBefore_congr {count : Nat} {origins other : List (OriginCursor T)}
    (h : ∀ j < count, origins[j]? = other[j]?) :
    bufferedBefore count origins = bufferedBefore count other := by
  have htake : origins.take count = other.take count := by
    apply ext_getElem?
    intro j
    by_cases hj : j < count
    · rw [getElem?_take_of_lt hj, getElem?_take_of_lt hj, h j hj]
    · rw [getElem?_take_eq_none (by omega), getElem?_take_eq_none (by omega)]
  rw [bufferedBefore, htake, bufferedBefore]

variable {index : Nat}

theorem bufferedBefore_succ {origins : List (OriginCursor T)}
    {state : OriginCursor T} (h : origins[index]? = some state) :
    bufferedBefore (index + 1) origins = bufferedBefore index origins + state.buffered.length := by
  unfold bufferedBefore
  rw [take_add_one, h]
  simp

def Seen (origins : List Origin) (outcomes : List (OriginOutcome T)) (index : Nat) : Prop :=
  ∃ outcome ∈ outcomes, (origins.map Origin.Key)[index]? = some outcome.page.origin.Key

variable {origins : List Origin}

theorem Seen.mono {outcomes more : List (OriginOutcome T)}
    (h : Seen origins outcomes index) (hsub : outcomes ⊆ more) : Seen origins more index := by
  obtain ⟨outcome, hmem, hkey⟩ := h
  exact ⟨outcome, hsub hmem, hkey⟩

structure Scanned (origins : List Origin) (count : Nat) (state : SequentialState T) : Prop where
  exhausted : ∀ j < count, ∀ origin, state.origins[j]? = some origin → origin.exhausted = true
  seen : ∀ j < count, ∀ origin, state.origins[j]? = some origin → origin.buffered ≠ [] →
    Seen origins state.outcomes j
  available : state.available = bufferedBefore count state.origins

def PrefetchSeen (origins : List Origin) (state : SequentialState T) : Prop :=
  ∀ entry ∈ state.prefetched, entry.2.capability.decision = .DecisionAllowed ∧
    entry.2.err = none ∧ Seen origins state.outcomes entry.1

structure Filled (origins : List Origin) (limit : Int) (stop : Nat) (window : Window T) :
    Prop where
  exhausted : ∀ j < stop, ∀ state, window.origins[j]? = some state → state.exhausted = true
  seen : ∀ j ≤ stop, ∀ state, window.origins[j]? = some state → state.buffered ≠ [] →
    Seen origins window.outcomes j
  room : limit ≤ bufferedBefore (stop + 1) window.origins ∨ window.origins.length ≤ stop

variable {state : SequentialState T}

theorem Scanned.later {count : Nat} {next : SequentialState T}
    (h : Scanned origins count state) (hframe : ∀ j < count, next.origins[j]? = state.origins[j]?)
    (hsub : state.outcomes ⊆ next.outcomes) (havailable : next.available = state.available) :
    Scanned origins count next where
  exhausted j hj origin hget := h.exhausted j hj origin (hframe j hj ▸ hget)
  seen j hj origin hget hrows := (h.seen j hj origin (hframe j hj ▸ hget) hrows).mono hsub
  available := by rw [havailable, h.available, bufferedBefore_congr hframe]

variable {origin : OriginCursor T}

theorem Scanned.drained (h : Scanned origins index state)
    (horigin : state.origins[index]? = some origin)
    (hdrained : origin.exhausted = true ∧ origin.buffered = []) :
    Scanned origins (index + 1) state := by
  have hsame : ∀ j < index + 1, ∀ other, state.origins[j]? = some other →
      j < index ∨ other = origin := by
    intro j hj other hother
    rcases Nat.lt_succ_iff_lt_or_eq.mp hj with hlt | rfl
    · exact .inl hlt
    · exact .inr (Option.some.inj (hother.symm.trans horigin))
  refine ⟨?_, ?_, ?_⟩
  · intro j hj other hother
    rcases hsame j hj other hother with hlt | rfl
    · exact h.exhausted j hlt other hother
    · exact hdrained.1
  · intro j hj other hother hrows
    rcases hsame j hj other hother with hlt | rfl
    · exact h.seen j hlt other hother hrows
    · exact absurd hdrained.2 hrows
  · rw [h.available, bufferedBefore_succ horigin, hdrained.2, length_nil, Nat.add_zero]

theorem Scanned.beyond (h : Scanned origins index state) (hnone : state.origins[index]? = none) :
    Scanned origins (index + 1) state := by
  have hlength := List.getElem?_eq_none_iff.mp hnone
  have hlt : ∀ {j : Nat} {other}, state.origins[j]? = some other → j < index := fun hother =>
    (List.getElem?_eq_some_iff.mp hother).1.trans_le hlength
  refine ⟨fun j _ other hother => h.exhausted j (hlt hother) other hother,
    fun j _ other hother => h.seen j (hlt hother) other hother, ?_⟩
  rw [h.available]
  unfold bufferedBefore
  rw [List.take_of_length_le hlength, List.take_of_length_le (by omega)]

theorem absorb_outcomes (window : Window T) (less : T → T → Bool) (index : Nat)
    (outcome : OriginOutcome T) :
    Sat True (window.absorb less index outcome : Effect σ Halt (Window T)) fun next =>
      next.outcomes = window.outcomes ++ [outcome] := by
  unfold Window.absorb
  split
  · split
    · exact sat_pure rfl
    · split
      · exact sat_throw trivial
      · exact sat_pure rfl
  · exact sat_pure rfl

theorem absorbAll_outcomes (less : T → T → Bool) (fetched : List (Nat × OriginOutcome T)) :
    ∀ window : Window T,
      Sat True (window.absorbAll less fetched : Effect σ Halt (Window T)) fun next =>
        next.outcomes = window.outcomes ++ fetched.map (·.2) := by
  induction fetched with
  | nil => exact fun window => sat_pure (append_nil _).symm
  | cons result rest ih =>
    intro window
    unfold Window.absorbAll
    refine sat_bind (absorb_outcomes window less result.1 result.2) fun middle hmiddle => ?_
    refine (ih middle).mono fun next hnext => ?_
    rw [hnext, hmiddle, map_cons, append_assoc]
    rfl

theorem le_of_mem_untouchedFrom {origins : List (OriginCursor T)} {fanout index j : Nat}
    (h : j ∈ untouchedFrom origins fanout index) : index ≤ j := by
  obtain ⟨⟨state, i⟩, hmem, hif⟩ := mem_filterMap.mp (mem_of_mem_take h)
  have hdrop : (state, i) ∈ origins.zipIdx.drop index := (takeWhile_sublist _).subset hmem
  obtain ⟨k, hk⟩ := mem_iff_getElem?.mp hdrop
  rw [getElem?_drop, getElem?_zipIdx] at hk
  obtain ⟨_, _, heq⟩ := Option.map_eq_some_iff.mp hk
  have hi : 0 + (index + k) = i := congrArg Prod.snd heq
  dsimp only at hif
  split at hif
  · cases hif
  · have : i = j := Option.some.inj hif
    omega

section

variable {cluster : Cluster σ T} {request : CollectionRequest T} {origins : List Origin}
  {lister : NativeLister cluster request.options origins} {start : List (OriginCursor T)}
  {grant : Option Capability} {fuel : Nat} {window : Window T} {state : OriginCursor T}

theorem absorb_eq {window : Window T}
    (hi : window.origins[index]? = some state) {outcome : OriginOutcome T}
    (hsucceeded : outcome.succeeded = true) (hbrings : lister.Brings state outcome.page) :
    (window.absorb request.less index outcome : Effect σ Halt (Window T)) =
      pure (window.advance index (state.absorb outcome.page request.less) outcome) := by
  unfold Window.absorb
  rw [hsucceeded, if_pos rfl, hi]
  dsimp only
  rw [lister.applyOriginPage_brings hbrings]

theorem Ordered.key (h : Ordered namespaceOf lister start window)
    (hi : window.origins[index]? = some state) :
    (origins.map Origin.Key)[index]? = some state.origin.Key := by
  rw [← h.keeps.identity, map_map, getElem?_map, hi]
  rfl

variable (hcluster : Faultless cluster) (hsorted : InOrder request.less (lister.contents start))
  (hlimit : 1 ≤ request.options.limit)
  (rule : WindowRule cluster { request with globalListGrant := grant } False fuel
    (Ordered namespaceOf lister start) (lister.Live start) lister.weight)
include hcluster hsorted hlimit rule

theorem refill_scans {capability : Capability}
    (hcapability : capability.decision = .DecisionAllowed) (index : Nat) :
    ∀ (left : Nat) (state : SequentialState T), Ordered namespaceOf lister start state.toWindow →
    lister.weight state.origins < left →
    (∀ origin, state.origins[index]? = some origin →
      state.available = bufferedBefore index state.origins + origin.buffered.length) →
    Sat False (refill cluster { request with globalListGrant := grant } capability index left state)
      fun next => Ordered namespaceOf lister start next.toWindow ∧
        next.prefetched = state.prefetched ∧
        (∀ j, j ≠ index → next.origins[j]? = state.origins[j]?) ∧
        state.outcomes ⊆ next.outcomes ∧
        ∀ origin, next.origins[index]? = some origin →
          next.available = bufferedBefore index next.origins + origin.buffered.length ∧
          (origin.exhausted = true ∨ request.options.limit ≤ next.available) := by
  intro left
  induction left with
  | zero => exact fun _ _ h => absurd h (not_lt_zero _)
  | succ left ih =>
    intro state h hleft havailable
    unfold refill
    split
    · next hnone =>
      apply sat_pure
      refine ⟨h, rfl, fun _ _ => rfl, List.Subset.refl _, fun origin hget => ?_⟩
      rw [hnone] at hget
      cases hget
    · next origin horigin =>
      split
      · next hgo =>
        refine sat_bind (sat_lift (always_run _)) fun fetched ⟨s, hfetched⟩ => ?_
        have hf : Fetched cluster { request with globalListGrant := grant } origin fetched :=
          ⟨s, _, _, _, one_le_originChunkLimit hlimit _, hcapability, hfetched⟩
        have hmem := List.mem_of_getElem? horigin
        obtain ⟨herr, _, hbrings⟩ := lister.fetched hcluster (h.keeps.origin_mem hmem)
          ((h.keeps.serves origin hmem).issued hgo.2) hf
        have hsucceeded : fetched.succeeded = true := by
          rw [hf.succeeded_eq, herr]
          rfl
        have hstep := rule.fetched h horigin hgo.2 hf herr
          (lister.applyOriginPage_brings hbrings request.less)
        have hexact := (absorb_exact hbrings hgo.2 (h.state hsorted hmem)).1
        -- The LIST adds its rows to this origin, and to the count.
        have hlt := (List.getElem?_eq_some_iff.mp horigin).1
        have hbefore : bufferedBefore index
            (state.origins.set index (origin.absorb fetched.page request.less)) =
              bufferedBefore index state.origins :=
          bufferedBefore_congr fun j hj => List.getElem?_set_ne (by omega)
        rw [show (state.toWindow.absorb request.less index fetched : Effect σ Halt (Window T)) = _
          from absorb_eq horigin hsucceeded hbrings, pure_bind]
        rw [if_neg (by simp [herr])]
        refine (ih _ hstep.1 ?_ ?_).mono ?_
        · have := hstep.2.2 id
          exact this.trans_le (le_of_lt_succ hleft)
        · intro next hnext
          have hnext' : (state.origins.set index (origin.absorb fetched.page request.less))[index]?
              = some next := hnext
          rw [List.getElem?_set_self hlt, Option.some.injEq] at hnext'
          subst hnext'
          show state.available + (fetched.page.items.length : Int) =
            bufferedBefore index (state.origins.set index _) + _
          rw [hbefore, hexact, List.length_append, havailable origin horigin]
          push_cast
          omega
        · rintro next ⟨hordered, hprefetched, hframe, hsub, hdone⟩
          refine ⟨hordered, hprefetched, fun j hj => ?_, fun outcome houtcome => ?_, hdone⟩
          · rw [hframe j hj]
            exact List.getElem?_set_ne hj.symm
          · exact hsub (List.mem_append_left _ houtcome)
      · next hstop =>
        apply sat_pure
        refine ⟨h, rfl, fun _ _ => rfl, List.Subset.refl _, fun other hother => ?_⟩
        obtain rfl := Option.some.inj (horigin.symm.trans hother)
        refine ⟨havailable origin horigin, ?_⟩
        by_cases hroom : state.available < request.options.limit
        · left
          by_contra hopen
          exact hstop ⟨hroom, by simpa using hopen⟩
        · exact .inr (not_lt.mp hroom)

omit hsorted in
theorem prefetch_scans {state : SequentialState T}
    (h : Ordered namespaceOf lister start state.toWindow) (hseen : PrefetchSeen origins state) :
    Sat False (prefetch cluster { request with globalListGrant := grant } index origin state)
      fun next => Ordered namespaceOf lister start next.toWindow ∧ PrefetchSeen origins next ∧
        (∀ j < index, next.origins[j]? = state.origins[j]?) ∧ state.outcomes ⊆ next.outcomes ∧
        next.available = state.available := by
  unfold prefetch
  split
  · have hopen := open_untouchedFrom state.origins (NormalizeFanout request.fanout) index
    refine sat_bind (sat_lift (rule.fetchBatch_spec hlimit h hopen _))
      fun fetched ⟨hsub, hall, hdone⟩ => ?_
    refine sat_bind ((rule.absorbBatch_spec h hopen hsub hall hdone).and
      (absorbAll_outcomes request.less fetched state.toWindow)) ?_
    rintro next ⟨⟨hafter, hframe, hallowed, _⟩, houtcomes⟩
    have hgrows : state.outcomes ⊆ next.outcomes := by
      rw [houtcomes]
      exact subset_append_left _ _
    apply sat_pure
    refine ⟨hafter.inv, ?_, fun j hj => hframe j fun hmem => ?_, hgrows, rfl⟩
    · intro entry hentry
      cases mem_append.mp hentry with
      | inr hold =>
        obtain ⟨hdecision, herr, hold⟩ := hseen entry hold
        exact ⟨hdecision, herr, hold.mono hgrows⟩
      | inl hnew =>
        obtain ⟨before, hget, hjob⟩ := hdone entry hnew
        have hf := (hjob.fetch rfl (by simp)).resolve_left id
        have hmem := mem_of_getElem? hget
        have hentryopen := hopen.not_exhausted (hsub.subset (mem_map_of_mem hnew)) hget
        obtain ⟨herr, _, hbrings⟩ := lister.fetched hcluster (h.keeps.origin_mem hmem)
          ((h.keeps.serves before hmem).issued hentryopen) hf
        refine ⟨(hallowed.resolve_left id) entry hnew, herr, entry.2, ?_, ?_⟩
        · show entry.2 ∈ next.outcomes
          rw [houtcomes]
          exact mem_append_right _ (mem_map_of_mem hnew)
        · rw [hbrings.key]
          exact h.key hget
    · exact absurd (le_of_mem_untouchedFrom hmem) (by omega)
  · apply sat_pure
    exact ⟨h, hseen, fun _ _ => rfl, Subset.refl _, rfl⟩

omit hcluster hsorted hlimit in
theorem authorizeSequential_scans
    {state : SequentialState T} (h : Ordered namespaceOf lister start state.toWindow)
    (hseen : PrefetchSeen origins state) (horigin : state.origins[index]? = some origin) :
    Sat False (authorizeSequential cluster { request with globalListGrant := grant } index origin
      state) fun (authorized, next) =>
        Ordered namespaceOf lister start next.toWindow ∧ PrefetchSeen origins next ∧
        next.origins = state.origins ∧ state.outcomes ⊆ next.outcomes ∧
        next.available = state.available ∧ Seen origins next.outcomes index ∧
        authorized.capability.decision = .DecisionAllowed ∧
        ((next.prefetched.lookup index).isSome → authorized.err = none) := by
  unfold authorizeSequential
  split
  · next outcome hsome =>
    obtain ⟨first, rest, hsplit, _⟩ := lookup_eq_some_iff.mp hsome
    obtain ⟨hdecision, herr, hindex⟩ := hseen (index, outcome) (by rw [hsplit]; simp)
    apply sat_pure
    exact ⟨h, hseen, rfl, Subset.refl _, rfl, hindex, hdecision, fun _ => herr⟩
  · next hnone =>
    refine sat_bind (sat_lift (always_run _)) fun outcome ⟨s, houtcome⟩ => ?_
    have hreviewed : Reviewed cluster { request with globalListGrant := grant } origin
        { outcome with authoritative := origin.exhausted || !origin.buffered.isEmpty } :=
      ⟨s, _, by rw [houtcome], by simp⟩
    have hpage := hreviewed.page_eq
    have hgrows := subset_append_left state.outcomes
      [{ outcome with authoritative := origin.exhausted || !origin.buffered.isEmpty }]
    apply sat_pure
    refine ⟨(rule.review h horigin hreviewed).1, ?_, rfl, hgrows, rfl, ?_,
      (rule.allowed h horigin hreviewed).resolve_left id, ?_⟩
    · intro entry hentry
      obtain ⟨hdecision, herr, hold⟩ := hseen entry hentry
      exact ⟨hdecision, herr, hold.mono hgrows⟩
    · refine ⟨_, mem_append_right _ (mem_singleton_self _), ?_⟩
      rw [hpage]
      exact h.key horigin
    · intro hsome
      rw [show lookup index state.prefetched = none from hnone] at hsome
      cases hsome

theorem sequentialOrigin_scans (index : Nat) {state : SequentialState T}
    (h : Ordered namespaceOf lister start state.toWindow) (hseen : PrefetchSeen origins state)
    (hscanned : Scanned origins index state) :
    Sat False (sequentialOrigin cluster { request with globalListGrant := grant } fuel index state)
      fun (next, full) =>
        Ordered namespaceOf lister start next.toWindow ∧ PrefetchSeen origins next ∧
        (full = false → Scanned origins (index + 1) next) ∧
        (full = true → Filled origins request.options.limit index next.toWindow) := by
  unfold sequentialOrigin
  refine sat_bind rule.checkContext_spec fun _ _ => ?_
  split
  · next hnone =>
    apply sat_pure
    exact ⟨h, hseen, fun _ => hscanned.beyond hnone, by simp⟩
  · next origin horigin =>
    split
    · next hdrained =>
      apply sat_pure
      exact ⟨h, hseen, fun _ => hscanned.drained horigin hdrained, by simp⟩
    · apply sat_bind (prefetch_scans hcluster hlimit rule h hseen)
      rintro middle ⟨hmiddle, hseen', hframe, hgrows, havailable⟩
      have hscanned' := hscanned.later hframe hgrows havailable
      split
      · next hnone =>
        apply sat_pure
        exact ⟨hmiddle, hseen', fun _ => hscanned'.beyond hnone, by simp⟩
      · next origin' horigin' =>
        apply sat_bind (authorizeSequential_scans rule hmiddle hseen' horigin')
        rintro ⟨authorized, last⟩ ⟨hlast, hseen'', horigins, hgrows', havailable', hindex,
          hallowed, herr⟩
        dsimp only at hlast hseen'' horigins hgrows' havailable' hindex hallowed herr ⊢
        have hscanned'' := hscanned'.later (fun _ _ => by rw [horigins]) hgrows' havailable'
        rw [if_neg (not_not.mpr hallowed), if_neg fun hfault => by
          simp [herr hfault.1] at hfault]
        refine sat_bind (refill_scans hcluster hsorted hlimit rule hallowed index fuel
          { last with available := last.available + origin'.buffered.length } hlast
          ((rule.enough hlast).resolve_left id) ?_) ?_
        · intro other hother
          rw [← horigins] at horigin'
          obtain rfl := Option.some.inj (horigin'.symm.trans hother)
          show last.available + _ = _
          rw [hscanned''.available]
        rintro final ⟨hfinal, hprefetched, hframe', hgrows'', hdone⟩
        have hbefore : ∀ j < index, final.origins[j]? = last.origins[j]? :=
          fun j hj => hframe' j (by omega)
        have hseenFinal : PrefetchSeen origins final := by
          intro entry hentry
          obtain ⟨hdecision, hnone, hold⟩ := hseen'' entry (hprefetched ▸ hentry)
          exact ⟨hdecision, hnone, hold.mono hgrows''⟩
        have hlt : index < final.origins.length := by
          rw [← List.length_map (f := (·.origin)), hfinal.keeps.identity,
            ← hmiddle.keeps.identity, List.length_map]
          exact (List.getElem?_eq_some_iff.mp horigin').1
        have hget : final.origins[index]? = some final.origins[index] :=
          List.getElem?_eq_getElem hlt
        obtain ⟨hcount, hstop⟩ := hdone _ hget
        have htotal : final.available = bufferedBefore (index + 1) final.origins := by
          rw [hcount, bufferedBefore_succ hget]
          push_cast
          rfl
        -- The origins up to this one are seen, and those before it are read to their ends.
        have hseenTo : ∀ j ≤ index, ∀ other, final.origins[j]? = some other →
            other.buffered ≠ [] → Seen origins final.outcomes j := by
          intro j hj other hother hrows
          rcases Nat.lt_or_eq_of_le hj with hlt | rfl
          · rw [hbefore j hlt] at hother
            exact (hscanned''.seen j hlt other hother hrows).mono hgrows''
          · exact hindex.mono hgrows''
        have hexhausted : ∀ j < index, ∀ other, final.origins[j]? = some other →
            other.exhausted = true := by
          intro j hj other hother
          rw [hbefore j hj] at hother
          exact hscanned''.exhausted j hj other hother
        apply sat_pure
        refine ⟨hfinal, hseenFinal, fun hroom => ⟨?_, ?_, htotal⟩, fun hfull => ⟨?_, ?_, .inl ?_⟩⟩
        · intro j hj other hother
          rcases Nat.lt_succ_iff_lt_or_eq.mp hj with hlt | rfl
          · exact hexhausted j hlt other hother
          · obtain rfl := Option.some.inj (hget.symm.trans hother)
            refine hstop.resolve_right fun hfilled => ?_
            exact absurd hroom (by simpa using hfilled)
        · exact fun j hj => hseenTo j (Nat.le_of_lt_succ hj)
        · exact hexhausted
        · exact hseenTo
        · rw [← htotal]
          simpa using hfull

/-- The loop stops where the page is full, or at the end. -/
theorem sequentialLoop_scans (count : Nat) : ∀ (index : Nat) (state : SequentialState T),
    Ordered namespaceOf lister start state.toWindow → PrefetchSeen origins state →
    Scanned origins index state → state.origins.length ≤ index + count →
    Sat False (sequentialLoop cluster { request with globalListGrant := grant } fuel
      (List.range' index count) state) fun window =>
        Ordered namespaceOf lister start window ∧
        ∃ stop, Filled origins request.options.limit stop window := by
  induction count with
  | zero =>
    intro index state h _ hscanned hlength
    apply sat_pure
    refine ⟨h, index, hscanned.exhausted, ?_, .inr hlength⟩
    intro j _ other hother hrows
    have hlt := (List.getElem?_eq_some_iff.mp hother).1
    exact hscanned.seen j (by omega) other hother hrows
  | succ count ih =>
    intro index state h hseen hscanned hlength
    rw [List.range'_succ]
    unfold sequentialLoop
    apply sat_bind (sequentialOrigin_scans hcluster hsorted hlimit rule index h hseen hscanned)
    rintro ⟨next, full⟩ ⟨hnext, hseen', hmore, hfull⟩
    dsimp only at hnext hseen' hmore hfull ⊢
    split
    · next htrue =>
      apply sat_pure
      exact ⟨hnext, index, hfull htrue⟩
    · next hnot =>
      apply ih (index + 1) next hnext hseen' (hmore (by simpa using hnot))
      have hsame : next.origins.length = state.origins.length := by
        have hidentity := hnext.keeps.identity.trans h.keeps.identity.symm
        simpa using congrArg List.length hidentity
      omega

theorem namespaceSequential_scans {states : List (OriginCursor T)}
    (h : Ordered namespaceOf lister start ⟨states, []⟩) :
    Sat False (namespaceSequential cluster { request with globalListGrant := grant } fuel states)
      fun window => Ordered namespaceOf lister start window ∧
        ∃ stop, Filled origins request.options.limit stop window := by
  unfold namespaceSequential
  rw [range_eq_range']
  apply sequentialLoop_scans hcluster hsorted hlimit rule states.length 0 _ h
  · exact forall_mem_nil _
  · exact ⟨fun j hj => absurd hj (not_lt_zero j),
      fun j hj => absurd hj (not_lt_zero j), rfl⟩
  · exact (zero_add _).ge

end

/-! ## One window -/

/-- What makes `selectPaginationStrategy` choose `NamespaceSequential` for namespaced origins. -/
structure SelectsSequential (request : CollectionRequest T) : Prop where
  preferred : request.preferredNamespace = ""
  native : request.nativeIdentityOrder = true
  sort : request.options.sort = "identity"
  order : request.options.order = .OrderAscending
  singleGVR : singleGVR (canonicalOrigins request.origins) = true
  namespaced : globalOrigins (canonicalOrigins request.origins) = false

variable {request : CollectionRequest T}

theorem SelectsSequential.ne_nil (h : SelectsSequential request) :
    canonicalOrigins request.origins ≠ [] := by
  intro hnil
  have hsingle := h.singleGVR
  rw [hnil] at hsingle
  exact absurd hsingle (by decide)

theorem recheckCompleted_subset (cluster : Cluster σ T) (request : CollectionRequest T)
    (window : Window T) : Always (recheckCompleted cluster request window) fun outcomes =>
      window.outcomes ⊆ outcomes := by
  unfold recheckCompleted
  split
  · refine always_bind (always_run _) fun reviewed _ => always_pure ?_
    exact subset_append_left _ _
  · exact always_pure (Subset.refl _)

section

variable {cluster : Cluster σ T} {request : CollectionRequest T}
  {lister : NativeLister cluster request.options (canonicalOrigins request.origins)}
  {grant : Option Capability} {start : CompositeCursor T} {window : Window T}

/-- Rows of the cursor that are not in the namespace of their origin do not exist. -/
def Lanes (namespaceOf : T → String)
    (lister : NativeLister cluster request.options (canonicalOrigins request.origins))
    (states : List (OriginCursor T)) : Prop :=
  ∀ state ∈ states, ∀ row ∈ state.buffered ++ lister.tail state,
    namespaceOf row = state.origin.namespaceName

theorem Lanes.emitted {rows : List (Nat × T)} {before after : List (OriginCursor T)}
    (h : Lanes namespaceOf lister before) (hemitted : EmittedAll rows before after) :
    Lanes namespaceOf lister after := by
  intro state hstate row hrow
  obtain ⟨index, hindex⟩ := List.mem_iff_getElem?.mp hstate
  have hlt : index < before.length := hemitted.1 ▸ (List.getElem?_eq_some_iff.mp hindex).1
  obtain ⟨a, ha, hgave⟩ := hemitted.2 index _ (List.getElem?_eq_getElem hlt)
  obtain rfl := Option.some.inj (ha.symm.trans hindex)
  have htail : lister.tail a = lister.tail before[index] := by
    unfold NativeLister.tail
    rw [hgave.exhausted, hgave.origin, hgave.continueToken]
  rw [hgave.origin]
  apply h _ (List.getElem_mem hlt)
  rw [htail] at hrow
  cases List.mem_append.mp hrow with
  | inl hbuffered =>
    exact List.mem_append_left _ (hgave.rows.mem_iff.mpr (List.mem_append_right _ hbuffered))
  | inr hrest => exact List.mem_append_right _ hrest

theorem Filled.ready {stop : Nat}
    (h : Filled (canonicalOrigins request.origins) request.options.limit stop window)
    (hordered : Ordered namespaceOf lister start.origins window) :
    Ready (summarize (aggregates window.outcomes) (canonicalOrigins request.origins)).allowedOrigins
      request.options.limit.toNat stop window.origins where
  exhausted := h.exhausted
  admitted j hj state hget hrows := by
    obtain ⟨outcome, houtcome, hkey⟩ := h.seen j hj state hget hrows
    obtain ⟨origin, horigin, hsame, current, hknown, _⟩ := hordered.keeps.entry houtcome
    have hstate : state.origin.Key = origin.Key := by
      rw [hsame]
      exact Option.some.inj ((hordered.key hget).symm.trans hkey)
    rw [hstate]
    exact summarize_of_admits horigin (hordered.keeps.aggregates_clean.admits hknown)
  room := h.room.imp (fun hroom => by omega) id

theorem publish_contents (hless : request.less = identityLess namespaceOf name)
    (hpreferred : request.preferredNamespace = "")
    (hascending : (canonicalOrigins request.origins).Pairwise fun a b =>
      a.namespaceName < b.namespaceName)
    (hsorted : InOrder request.less (lister.contents start.origins))
    (hordered : Ordered namespaceOf lister start.origins window) {stop : Nat}
    (hfilled : Filled (canonicalOrigins request.origins) request.options.limit stop window)
    {result : ListResult T} {trace : Trace T}
    (hpublish : publish { request with globalListGrant := grant }
      (canonicalOrigins request.origins) start { start with origins := window.origins }
      window.outcomes = .ok (result, trace)) :
    lister.contents start.origins = result.items ++ lister.contents trace.next.origins ∧
      Lanes namespaceOf lister trace.next.origins := by
  have hpublished := publish_ok hpublish
  have hmerge := hpublished.merged
  have hemitted := (mergePreferredNamespace_spec hmerge).2.1
  refine ⟨?_, Lanes.emitted (show Lanes namespaceOf lister window.origins from hordered.lanes)
    hemitted⟩
  -- The buffers are sorted already, so the merge starts from the window as it is.
  have hmap : (window.origins.map fun state => state.sorted request.less) = window.origins := by
    refine (map_congr_left fun state hstate => ?_).trans (map_id _)
    have hinorder := (hordered.state hsorted hstate).sublist (sublist_append_left _ _)
    show { state with buffered := sortListItems state.buffered request.less } = state
    rw [hinorder.sorted]
  have hlanes : InLanes namespaceOf window.origins := by
    constructor
    · rw [← hordered.keeps.identity, pairwise_map] at hascending
      exact hascending
    · exact fun state hstate row hrow =>
        hordered.lanes state hstate row (mem_append_left _ hrow)
  unfold mergePreferredNamespace at hmerge
  rw [if_pos hpreferred] at hmerge
  unfold mergeAuthorizedOriginPages at hmerge
  split at hmerge
  · cases hmerge
  split at hmerge
  · cases hmerge
  simp only [find?_nil, Except.ok.injEq, Prod.mk.injEq, Option.getD_some] at hmerge
  obtain ⟨hrows, hnext⟩ := hmerge
  rw [hmap, hless] at hrows hnext
  rw [← hordered.contents, hpublished.items_eq, ← hrows, ← hnext]
  apply mergeLoop_contents (fun _ => rfl) _ _ _ hlanes (hfilled.ready hordered)
  intro state hexhausted
  simp [NativeLister.tail, hexhausted]

/-- One call: the page is the first part of what was left, and the cursor stands for the rest. -/
theorem Collect_sequential (hcluster : Faultless cluster)
    (hallows : Allows cluster request.selection.generation (canonicalOrigins request.origins))
    (hrequest : Normalized request) (hlistable : Listable (canonicalOrigins request.origins))
    (hstrategy : SelectsSequential request) (hless : request.less = identityLess namespaceOf name)
    (hcursor : startCursor request (canonicalOrigins request.origins) = .ok start)
    (hstart : lister.Resumable start) (hopen : ¬ Drained start.origins)
    (hsorted : InOrder request.less (lister.contents start.origins))
    (hlanes : Lanes namespaceOf lister start.origins) {fuel : Nat}
    (hfuel : lister.weight start.origins < fuel) :
    Sat False (Collect cluster request fuel) fun result => ∃ next,
      lister.Advances start result next ∧
      lister.contents start.origins = result.items ++ lister.contents next.origins ∧
      Lanes namespaceOf lister next.origins := by
  have hne := hstrategy.ne_nil
  have hascending := canonicalOrigins_namespaces hstrategy.singleGVR hlistable.nodup
  have htraced : Sat True (collectTraced cluster request fuel) fun out =>
      ∀ next, out.1.cursor = some next →
        lister.contents start.origins = out.1.items ++ lister.contents next.origins ∧
        Lanes namespaceOf lister next.origins := by
    apply collectTraced_sat
    · exact fun _ => trivial
    · exact fun _ => trivial
    · exact fun hempty => absurd hempty hne
    · exact fun _ _ _ => trivial
    · intro _ grant start' hgranted _ _ hstart'
      obtain rfl : start = start' := Except.ok.inj (hcursor.symm.trans hstart')
      have hgrant : ∀ capability, grant = some capability →
          capability.decision = .DecisionAllowed := fun _ => hgranted.allowed hrequest.grant
      have rule := orderedRule namespaceOf lister hcluster hallows hgrant hlistable.scope hsorted
        hfuel
      have hfirst : Ordered namespaceOf lister start.origins ⟨start.origins, []⟩ :=
        ⟨⟨hstart.identity, hstart.serves, .refl _, le_rfl, by simp⟩, rfl, hlanes⟩
      unfold paginate paginatePlain
      rw [if_neg fun hpreferred => hpreferred.1 hstrategy.preferred,
        if_neg (by rw [hstrategy.namespaced]; decide),
        if_pos ⟨hstrategy.native, hstrategy.sort, hstrategy.order, hstrategy.singleGVR⟩]
      refine sat_bind ((namespaceSequential_scans hcluster hsorted hrequest.limit_pos rule
        hfirst).weaken False.elim) ?_
      rintro window ⟨hordered, stop, hfilled⟩
      refine sat_bind (sat_lift (always_and (rule.recheckCompleted_spec hrequest.limit_pos hordered)
        (recheckCompleted_subset cluster _ window))) ?_
      rintro outcomes ⟨hafter, hsub⟩
      refine sat_orFail ?_ fun _ _ => trivial
      rintro ⟨result, trace⟩ hpublish next hnext
      have hfilled' : Filled (canonicalOrigins request.origins) request.options.limit stop
          ⟨window.origins, outcomes⟩ :=
        ⟨hfilled.exhausted, fun j hj state hget hrows =>
          (hfilled.seen j hj state hget hrows).mono hsub, hfilled.room⟩
      have hcontents := publish_contents hless hstrategy.preferred hascending hsorted hafter.inv
        hfilled' hpublish
      have hcursor := (publish_ok hpublish).cursor_eq
      rw [hnext] at hcursor
      split at hcursor
      · obtain rfl := Option.some.inj hcursor
        exact hcontents
      · cases hcursor
  have hcollect : Sat True (Collect cluster request fuel) fun result =>
      ∀ next, result.cursor = some next →
        lister.contents start.origins = result.items ++ lister.contents next.origins ∧
        Lanes namespaceOf lister next.origins :=
    sat_bind htraced fun out hout => sat_pure hout
  refine ((NativeLister.Collect_advances hcluster hallows hrequest hlistable hne hcursor hstart
    hopen hfuel).and hcollect).mono ?_
  rintro result ⟨⟨next, hnext⟩, hexact⟩
  exact ⟨next, hnext, hexact next hnext.cursor⟩

end

/-! ## Following the cursor with any page limits -/

def atLimit (request : CollectionRequest T) (limit : Int) : CollectionRequest T :=
  { request with options := { request.options with limit } }

def drainPages (cluster : Cluster σ T) (fuel : Nat) (limits : Nat → Int) :
    Nat → Nat → CollectionRequest T → Effect σ Halt (List (List T))
  | 0, _, _ => throw .unfinished
  | calls + 1, call, request => do
    let result ← Collect cluster (atLimit request (limits call)) fuel
    if result.page.complete then
      return [result.items]
    else
      match result.cursor with
      | none => throw .unfinished
      | some cursor =>
        let rest ← drainPages cluster fuel limits calls (call + 1)
          { request with cursor := some cursor }
        return result.items :: rest

section

variable {cluster : Cluster σ T} {limits : Nat → Int} {fuel : Nat}

/-- The limit of a page does not change what the lister stands for. -/
def relimit {options : ListOptions} {origins : List Origin}
    (lister : NativeLister cluster options origins) (limit : Int) :
    NativeLister cluster { options with limit } origins :=
  { lister with answers := fun request s => lister.answers request s }

theorem relimit_resumable {options : ListOptions} {origins : List Origin}
    {lister : NativeLister cluster options origins} {limit : Int} {cursor : CompositeCursor T} :
    (relimit lister limit).Resumable cursor ↔ lister.Resumable cursor := by
  constructor
  · exact fun h => ⟨h.version, h.identity, fun state hmem =>
      ⟨(h.serves state hmem).issued, (h.serves state hmem).token,
        (h.serves state hmem).exhausted⟩⟩
  · exact fun h => ⟨h.version, h.identity, fun state hmem =>
      ⟨(h.serves state hmem).issued, (h.serves state hmem).token,
        (h.serves state hmem).exhausted⟩⟩

/-- By induction on the calls that are left: every page takes the first rows of what is left. -/
theorem drainPages_spec (hcluster : Faultless cluster) (calls : Nat) :
    ∀ (call : Nat) (request : CollectionRequest T)
      (lister : NativeLister cluster request.options (canonicalOrigins request.origins)),
      Allows cluster request.selection.generation (canonicalOrigins request.origins) →
      (∀ call, Normalized (atLimit request (limits call))) →
      Listable (canonicalOrigins request.origins) → SelectsSequential request →
      request.less = identityLess namespaceOf name → ∀ start,
      startCursor request (canonicalOrigins request.origins) = .ok start →
      lister.Resumable start → ¬ Drained start.origins →
      InOrder request.less (lister.contents start.origins) →
      Lanes namespaceOf lister start.origins →
      lister.weight start.origins < fuel → lister.weight start.origins < calls →
      Sat False (drainPages cluster fuel limits calls call request) fun pages =>
        pages.flatten = lister.contents start.origins := by
  induction calls with
  | zero => exact fun _ _ _ _ _ _ _ _ _ _ _ _ _ _ _ h => absurd h (not_lt_zero _)
  | succ calls ih =>
    intro call request lister hallows hrequest hlistable hstrategy hless start hcursor hstart hopen
      hsorted hlanes hfuel hcalls
    have hcollect : Sat False (Collect cluster (atLimit request (limits call)) fuel)
        fun result => ∃ next, (relimit lister (limits call)).Advances start result next ∧
          lister.contents start.origins = result.items ++ lister.contents next.origins ∧
          Lanes namespaceOf lister next.origins := by
      have hstrategy' : SelectsSequential (atLimit request (limits call)) :=
        ⟨hstrategy.preferred, hstrategy.native, hstrategy.sort, hstrategy.order,
          hstrategy.singleGVR, hstrategy.namespaced⟩
      have hallows' : Allows cluster (atLimit request (limits call)).selection.generation
          (canonicalOrigins (atLimit request (limits call)).origins) := hallows
      exact Collect_sequential hcluster hallows' (hrequest call) hlistable hstrategy' hless hcursor
        (relimit_resumable.mpr hstart) hopen hsorted hlanes hfuel
    unfold drainPages
    apply sat_bind hcollect
    rintro result ⟨next, hnext, hexact, hlanes'⟩
    have hlighter : lister.weight next.origins < lister.weight start.origins := hnext.weight hopen
    split
    · next hcomplete =>
      apply sat_pure
      have hdone : lister.contents next.origins = [] :=
        NativeLister.contents_of_drained (hnext.complete.mp hcomplete)
      rw [hexact, hdone, append_nil, flatten_singleton]
    · next hmore =>
      rw [hnext.cursor]
      have hresumable := relimit_resumable.mp hnext.resumable
      have hresume : startCursor { request with cursor := some next }
          (canonicalOrigins request.origins) = .ok next := by
        simp only [startCursor, hresumable.validate hlistable hstrategy.ne_nil]
        rfl
      have hstrategy' : SelectsSequential { request with cursor := some next } :=
        ⟨hstrategy.preferred, hstrategy.native, hstrategy.sort, hstrategy.order,
          hstrategy.singleGVR, hstrategy.namespaced⟩
      have hrequest' : ∀ call, Normalized (atLimit { request with cursor := some next }
          (limits call)) := fun call => ⟨(hrequest call).generation, (hrequest call).context,
        (hrequest call).scope, (hrequest call).limit_pos, (hrequest call).limit_le,
        (hrequest call).grant⟩
      have hsorted' : InOrder request.less (lister.contents next.origins) := by
        rw [hexact] at hsorted
        exact hsorted.sublist (sublist_append_right _ _)
      refine sat_bind (ih (call + 1) { request with cursor := some next } lister hallows hrequest'
        hlistable hstrategy' hless next hresume hresumable
        (fun h => hmore (hnext.complete.mpr h)) hsorted' hlanes' (hlighter.trans hfuel)
        (by omega)) fun rest hrest => ?_
      apply sat_pure
      rw [flatten_cons, hrest, hexact]

end

/-! ## The pages of a collection -/

/-- A LIST of one namespace: objects of that namespace, in ascending order of their names. -/
structure NativeOrder (namespaceOf name : T → String) (origin : Origin) (rows : List T) :
    Prop where
  namespaceName : ∀ row ∈ rows, namespaceOf row = origin.namespaceName
  ascending : rows.Pairwise fun a b => name a ≤ name b

theorem inOrder_flatMap {items : Origin → List T}
    (hascending : origins.Pairwise fun a b => a.namespaceName < b.namespaceName)
    (hrows : ∀ origin ∈ origins, NativeOrder namespaceOf name origin (items origin)) :
    InOrder (identityLess namespaceOf name) (origins.flatMap items) := by
  refine pairwise_flatMap.mpr ⟨fun origin hmem => ?_, ?_⟩
  · have hnative := hrows origin hmem
    refine hnative.ascending.imp_of_mem fun {a b} ha hb hle => ?_
    apply identityLess_of_le _ hle
    rw [hnative.namespaceName a ha, hnative.namespaceName b hb]
  · refine hascending.imp_of_mem fun {first second} hfirst hsecond hlt a ha b hb => ?_
    have hrowlt : namespaceOf a < namespaceOf b := by
      rw [(hrows first hfirst).namespaceName a ha, (hrows second hsecond).namespaceName b hb]
      exact hlt
    exact (identityLess_of_lt hrowlt).2

/-- Whatever the namespaces, their contents, the chunks, the fan-out, the order in which the workers
answer and the limits of the pages: the pages of the namespace sequence, one after the other, are
sorted, and hold every row. -/
theorem sequential_pages_sorted (cluster : Cluster σ T) (hcluster : Faultless cluster)
    (request : CollectionRequest T) (limits : Nat → Int)
    (hrequest : ∀ call, Normalized (atLimit request (limits call)))
    (horigins : Namespaced request.origins)
    (hallows : Allows cluster request.selection.generation request.origins)
    (hstrategy : SelectsSequential request) (hcursor : request.cursor = none)
    (namespaceOf name : T → String) (hless : request.less = identityLess namespaceOf name)
    (lister : NativeLister cluster request.options request.origins)
    (hrows : ∀ origin ∈ request.origins,
      NativeOrder namespaceOf name origin (lister.items origin)) :
    ∃ bound, ∀ fuel calls, bound ≤ fuel → bound ≤ calls → ∀ s, ∃ pages t,
      (drainPages cluster fuel limits calls 0 request).run.run s = (.ok pages, t) ∧
      InOrder request.less pages.flatten ∧
      pages.flatten ~ request.origins.flatMap lister.items := by
  have hperm := canonicalOrigins_perm request.origins
  have hlistable := (horigins.perm hperm).listable
  have hallows' : Allows cluster request.selection.generation (canonicalOrigins request.origins) :=
    fun origin hmem => hallows origin (hperm.mem_iff.mp hmem)
  have hrows' : ∀ origin ∈ canonicalOrigins request.origins,
      NativeOrder namespaceOf name origin (lister.items origin) :=
    fun origin hmem => hrows origin (hperm.mem_iff.mp hmem)
  let canonical := lister.restrict fun origin => hperm.mem_iff.mp
  let start := NewCompositeCursor T (canonicalOrigins request.origins)
  have hcontents : canonical.contents start.origins =
      (canonicalOrigins request.origins).flatMap lister.items := canonical.new_contents
  have hsorted : InOrder request.less (canonical.contents start.origins) := by
    rw [hcontents, hless]
    exact inOrder_flatMap (canonicalOrigins_namespaces hstrategy.singleGVR hlistable.nodup) hrows'
  have hlanes : Lanes namespaceOf canonical start.origins := by
    intro state hstate row hrow
    obtain ⟨origin, hmem, rfl⟩ := List.mem_map.mp hstate
    have hitems : row ∈ lister.items origin := by
      rw [← lister.rest_start]
      exact hrow
    rw [canonicalOrigins_canonicalOrigins] at hmem
    exact (hrows' origin hmem).namespaceName row hitems
  refine ⟨canonical.weight start.origins + 1, fun fuel calls hfuel hcalls s => ?_⟩
  have hdrain := drainPages_spec hcluster calls 0 request canonical hallows' hrequest hlistable
    hstrategy hless start (by rw [startCursor, hcursor]) canonical.new_resumable
    (NativeLister.new_not_drained hstrategy.ne_nil) hsorted hlanes hfuel hcalls
  obtain ⟨pages, t, hrun, hpages⟩ := hdrain.exists_run s
  refine ⟨pages, t, hrun, ?_, ?_⟩
  · rw [hpages]
    exact hsorted
  · rw [hpages, hcontents]
    exact hperm.flatMap_right _

/-! ## Two namespaces in chunks of two and one -/

def namedChunks : Cluster Unit (String × String) :=
  twoPages (fun origin => ["a", "b"].map fun name => (origin.namespaceName, name))
    fun origin => [(origin.namespaceName, "c")]

def namedRequest : CollectionRequest (String × String) where
  selection := ⟨"generation", "context", "namespaces"⟩
  options := ⟨2, "identity", .OrderAscending, "", ""⟩
  origins := [⟨"shop", "", "v1", "services"⟩, ⟨"bank", "", "v1", "services"⟩]
  cursor := none
  less := identityLess Prod.fst Prod.snd
  requestedNamespaces := 0
  fanout := 0
  retry := ⟨0, 0, 0⟩
  preferredNamespace := ""
  nativeIdentityOrder := true
  globalGrantFastPath := true
  readThroughUnknown := true
  globalListGrant := none

theorem sequential_pages_shop :
    ∃ bound, ∀ fuel calls, bound ≤ fuel → bound ≤ calls → ∀ s, ∃ pages t,
      (drainPages namedChunks fuel (fun call => if call % 2 = 0 then 2 else 1) calls 0
        namedRequest).run.run s = (.ok pages, t) ∧
      InOrder (identityLess Prod.fst Prod.snd) pages.flatten ∧
      pages.flatten ~ [("shop", "a"), ("shop", "b"), ("shop", "c"), ("bank", "a"), ("bank", "b"),
        ("bank", "c")] := by
  have hrequest : ∀ call : Nat, Normalized (atLimit namedRequest
      ((fun call => if call % 2 = 0 then 2 else 1) call)) := by
    intro call
    refine ⟨?_, ?_, ?_, ?_, ?_, rfl⟩
    · show "generation" ≠ ""
      decide
    · show "context" ≠ ""
      decide
    · show "namespaces" ≠ ""
      decide
    · show (1 : Int) ≤ if call % 2 = 0 then 2 else 1
      split <;> decide
    · show (if call % 2 = 0 then 2 else 1 : Int) ≤ MaximumListLimit
      split <;> decide
  refine sequential_pages_sorted namedChunks ⟨fun _ => rfl, fun _ _ => .refl _⟩ namedRequest _
    hrequest ⟨by decide, by decide, by decide, by decide⟩ (fun _ _ _ => rfl)
    ⟨rfl, rfl, rfl, rfl, by decide +kernel, by decide +kernel⟩ rfl Prod.fst Prod.snd rfl
    (twoPagesLister _ _ _ _) fun origin _ => ⟨?_, ?_⟩
  · intro row hrow
    change row ∈ ["a", "b", "c"].map fun name => (origin.namespaceName, name) at hrow
    obtain ⟨name, _, rfl⟩ := List.mem_map.mp hrow
    rfl
  · show (["a", "b", "c"].map fun name => (origin.namespaceName, name)).Pairwise _
    rw [List.pairwise_map]
    show ["a", "b", "c"].Pairwise fun a b => a ≤ b
    decide

end Kubepeep.Resources.Sequential
