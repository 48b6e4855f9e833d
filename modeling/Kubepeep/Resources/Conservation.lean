import Kubepeep.Resources.Classify
import Kubepeep.Resources.Strategies

/-!
# No row is lost or doubled

Per origin, the buffer before a window and the rows fetched in it are the rows emitted and the
buffer after it.  The rows fetched are those of the lister: each page is its answer to a LIST behind
the page before.  The strategies only replay these answers on the cursor, and the merge only moves
rows from the buffers to the page.
-/

open Except Option List Kubepeep.Authorization Kubepeep.Effect

namespace Kubepeep.Resources

variable {σ T : Type}

/-! ## Replaying the successful LISTs -/

def fetchedPages (key : String) (outcomes : List (OriginOutcome T)) : List (OriginPage T) :=
  outcomes.filterMap fun outcome =>
    if outcome.succeeded = true ∧ outcome.page.origin.Key = key then some outcome.page else none

variable {outcome : OriginOutcome T}

def replay (less : T → T → Bool) (outcomes : List (OriginOutcome T)) (state : OriginCursor T) :
    OriginCursor T :=
  (fetchedPages state.origin.Key outcomes).foldl (fun state page => state.absorb page less) state

variable (less : T → T → Bool) (pages : List (OriginPage T))

theorem foldl_absorb_origin :
    ∀ state : OriginCursor T,
      (pages.foldl (fun state page => state.absorb page less) state).origin = state.origin := by
  induction pages with
  | nil => exact fun _ => rfl
  | cons page pages ih => exact fun state => ih (state.absorb page less)

theorem foldl_absorb_token :
    ∀ state : OriginCursor T,
      (pages.foldl (fun state page => state.absorb page less) state).continueToken =
        (pages.getLast?.map (·.continueToken)).getD state.continueToken := by
  induction pages with
  | nil => exact fun _ => rfl
  | cons page pages ih =>
    intro state
    rw [foldl_cons, ih]
    cases pages with
    | nil => rfl
    | cons next pages => simp [getLast?_cons]

theorem foldl_absorb_rows :
    ∀ state : OriginCursor T,
      (pages.foldl (fun state page => state.absorb page less) state).buffered.Perm
        (state.buffered ++ pages.flatMap (·.items)) := by
  induction pages with
  | nil => exact fun state => by simp
  | cons page pages ih =>
    intro state
    rw [foldl_cons, flatMap_cons, ← append_assoc]
    exact (ih _).trans ((perm_insertionSort _ _).append_right _)

theorem replay_origin (outcomes : List (OriginOutcome T))
    (state : OriginCursor T) : (replay less outcomes state).origin = state.origin :=
  foldl_absorb_origin less _ state

theorem replay_append_of_not_succeeded
    (h : outcome.succeeded = false) (less : T → T → Bool) (outcomes : List (OriginOutcome T)) :
    replay less (outcomes ++ [outcome]) = replay less outcomes := by
  ext1 state
  simp [replay, fetchedPages, h]

/-- The lister answered with these pages, each behind the page before it. -/
def ListedFrom (cluster : Cluster σ T) (options : ListOptions) (origin : Origin) :
    String → List (OriginPage T) → Prop
  | _, [] => True
  | token, page :: pages =>
    Listed cluster options origin token page ∧
      ListedFrom cluster options origin page.continueToken pages

theorem ListedFrom.append {cluster : Cluster σ T} {options : ListOptions} {origin : Origin}
    {page : OriginPage T} : ∀ {pages : List (OriginPage T)} {token : String},
    ListedFrom cluster options origin token pages →
    Listed cluster options origin ((pages.getLast?.map (·.continueToken)).getD token) page →
    ListedFrom cluster options origin token (pages ++ [page]) := by
  intro pages
  induction pages with
  | nil => exact fun _ hpage => ⟨hpage, trivial⟩
  | cons first rest ih =>
    intro token hpages hpage
    refine ⟨hpages.1, ih hpages.2 ?_⟩
    cases rest with
    | nil => exact hpage
    | cons second rest => simpa [getLast?_cons] using hpage

variable {state : OriginCursor T}

variable {less : T → T → Bool}

theorem applyOriginPage_ok {next : OriginCursor T} {page : OriginPage T}
    (h : applyOriginPage state page less = .ok next) :
    state.origin.Key = page.origin.Key ∧ next = state.absorb page less := by
  unfold applyOriginPage at h
  split at h
  · cases h
  · next hkey =>
    split at h
    · cases h
    · exact ⟨not_not.mp hkey, (ok.inj h).symm⟩

variable {outcomes : List (OriginOutcome T)}

theorem set_replay {start : List (OriginCursor T)}
    (hnodup : (start.map (·.origin.Key)).Nodup) {index : Nat}
    (hi : (start.map (replay less outcomes))[index]? = some state)
    (hs : outcome.succeeded = true)
    (hkey : state.origin.Key = outcome.page.origin.Key) :
    (start.map (replay less outcomes)).set index (state.absorb outcome.page less) =
      start.map (replay less (outcomes ++ [outcome])) := by
  rw [List.getElem?_map, map_eq_some_iff] at hi
  obtain ⟨first, hfirst, rfl⟩ := hi
  rw [replay_origin] at hkey
  apply List.ext_getElem?
  intro j
  by_cases hj : index = j
  · subst hj
    have hlt := (List.getElem?_eq_some_iff.mp hfirst).1
    rw [List.getElem?_set_self (by simpa using hlt), List.getElem?_map, hfirst, map_some]
    simp [replay, fetchedPages, hs, hkey.symm]
  · rw [List.getElem?_set_ne hj, List.getElem?_map, List.getElem?_map]
    cases hother : start[j]? with
    | none => rfl
    | some other =>
      -- Another place in the cursor has another key.
      have hne : outcome.page.origin.Key ≠ other.origin.Key := by
        rw [← hkey]
        intro heq
        have hlt := (List.getElem?_eq_some_iff.mp hfirst).1
        apply hj
        apply (List.getElem?_inj (by simpa using hlt) hnodup).mp
        simp [hfirst, hother, heq]
      simp [replay, fetchedPages, hne]

theorem listedFrom_replay {cluster : Cluster σ T} {options : ListOptions}
    {start : List (OriginCursor T)} (hnodup : (start.map (·.origin.Key)).Nodup) {index : Nat}
    (hi : (start.map (replay less outcomes))[index]? = some state)
    (hs : outcome.succeeded = true) (hkey : state.origin.Key = outcome.page.origin.Key)
    (hlisted : Listed cluster options state.origin state.continueToken outcome.page)
    (h : ∀ first ∈ start, ListedFrom cluster options first.origin first.continueToken
      (fetchedPages first.origin.Key outcomes)) :
    ∀ first ∈ start, ListedFrom cluster options first.origin first.continueToken
      (fetchedPages first.origin.Key (outcomes ++ [outcome])) := by
  rw [List.getElem?_map, map_eq_some_iff] at hi
  obtain ⟨listed, hmem, rfl⟩ := hi
  rw [replay_origin] at hkey hlisted
  intro first hfirst
  have hpages : fetchedPages first.origin.Key (outcomes ++ [outcome]) =
      fetchedPages first.origin.Key outcomes ++ fetchedPages first.origin.Key [outcome] :=
    filterMap_append
  rw [hpages]
  by_cases hsame : outcome.page.origin.Key = first.origin.Key
  · -- The LIST went on where the last page of this origin ended.
    obtain rfl : first = listed :=
      inj_on_of_nodup_map hnodup hfirst (mem_of_getElem? hmem) (hsame.symm.trans hkey.symm)
    rw [replay, foldl_absorb_token] at hlisted
    simpa [fetchedPages, hs, hsame] using (h first hfirst).append hlisted
  · simpa [fetchedPages, hs, hsame] using h first hfirst

theorem Window.advance_map_origin (window : Window T) {index : Nat}
    (hi : window.origins[index]? = some state) (next : OriginCursor T)
    (outcome : OriginOutcome T) (hnext : next.origin = state.origin) :
    (window.advance index next outcome).origins.map (·.origin) =
      window.origins.map (·.origin) := by
  obtain ⟨hlt, hget⟩ := List.getElem?_eq_some_iff.mp hi
  have hlt' : index < (window.origins.map (·.origin)).length := by simpa using hlt
  have hsame : next.origin = (window.origins.map (·.origin))[index] := by
    rw [List.getElem_map, hget, hnext]
  rw [Window.advance, List.map_set, hsame, List.set_getElem_self]

theorem replayed_record {cluster : Cluster σ T} {options : ListOptions}
    {start : List (OriginCursor T)} {window : Window T} (hs : outcome.succeeded = false)
    (h : window.origins = start.map (replay less window.outcomes) ∧
      ∀ first ∈ start, ListedFrom cluster options first.origin first.continueToken
        (fetchedPages first.origin.Key window.outcomes)) :
    (window.record outcome).origins = start.map (replay less (window.record outcome).outcomes) ∧
      ∀ first ∈ start, ListedFrom cluster options first.origin first.continueToken
        (fetchedPages first.origin.Key (window.record outcome).outcomes) := by
  rw [Window.record, replay_append_of_not_succeeded hs]
  simpa [fetchedPages, hs] using h

/-- The rule of this module: the origins keep their identity, and if their keys differ, the cursor
is the replay of the window's outcomes, and these are answers of the lister. -/
theorem replayRule (cluster : Cluster σ T) (request : CollectionRequest T) (fuel : Nat)
    (start : List (OriginCursor T)) :
    WindowRule cluster request True fuel
      (fun window => window.origins.map (·.origin) = start.map (·.origin) ∧
        ((start.map (·.origin.Key)).Nodup →
          window.origins = start.map (replay request.less window.outcomes) ∧
          ∀ first ∈ start, ListedFrom cluster request.options first.origin first.continueToken
            (fetchedPages first.origin.Key window.outcomes)))
      (fun _ => True) (fun _ => 0) where
  review := by
    intro window index state outcome h hi hr
    exact ⟨⟨h.1, fun hnodup => replayed_record hr.not_succeeded (h.2 hnodup)⟩, id,
      fun _ _ => trivial⟩
  failed := by
    intro window index state outcome h hi hopen hf herr
    have hs : outcome.succeeded = false := by
      rw [hf.succeeded_eq]
      cases herr' : outcome.err <;> simp [herr'] at herr ⊢
    exact ⟨trivial, ⟨h.1, fun hnodup => replayed_record hs (h.2 hnodup)⟩, id⟩
  rejected _ _ _ _ _ _ := trivial
  fetched := by
    intro window index state outcome next h hi hopen hf herr happly
    obtain ⟨hkey, rfl⟩ := applyOriginPage_ok happly
    have hs : outcome.succeeded = true := by rw [hf.succeeded_eq, herr, isNone_none]
    refine ⟨⟨?_, fun hnodup => ?_⟩, trivial, fun h => absurd trivial h⟩
    · exact (window.advance_map_origin hi (state.absorb _ _) outcome rfl).trans h.1
    · obtain ⟨hreplay, hlisted⟩ := h.2 hnodup
      rw [hreplay] at hi
      rw [Window.advance, hreplay]
      exact ⟨set_replay hnodup hi hs hkey,
        listedFrom_replay hnodup hi hs hkey (hf.listed herr) hlisted⟩
  context _ _ := trivial
  allowed _ _ _ := .inl trivial
  scheduled _ _ := .inl trivial
  enough _ := .inl trivial
  namespaced _ := .inl trivial

/-! ## One window -/

def CollectionRequest.previous (request : CollectionRequest T) : CompositeCursor T :=
  request.cursor.getD (NewCompositeCursor T (canonicalOrigins request.origins))

variable {request : CollectionRequest T}

theorem startCursor_ok {start : CompositeCursor T}
    (h : startCursor request (canonicalOrigins request.origins) = .ok start) :
    start = request.previous := by
  unfold startCursor at h
  unfold CollectionRequest.previous
  split at h
  · next hnone =>
    rw [hnone, getD_none]
    exact (ok.inj h).symm
  · next cursor hsome =>
    rw [hsome, getD_some]
    obtain ⟨_, _, h⟩ := except_bind_eq_ok h
    exact (ok.inj h).symm

/-- Per origin: the buffer and the pages of the window became emitted rows and the next buffer, and
the continuation is the one of the last page. -/
structure Conserved (pages : List (OriginPage T)) (emitted : List T)
    (before after : OriginCursor T) : Prop where
  origin : after.origin = before.origin
  rows : (before.buffered ++ pages.flatMap (·.items)).Perm (emitted ++ after.buffered)
  token : after.continueToken = (pages.getLast?.map (·.continueToken)).getD before.continueToken

theorem conserved_of_replay {before after : OriginCursor T} {emitted : List T}
    (h : Emitted emitted (replay less outcomes before) after) :
    Conserved (fetchedPages before.origin.Key outcomes) emitted before after where
  origin := h.origin.trans (replay_origin less outcomes before)
  rows := (foldl_absorb_rows less _ before).symm.trans h.rows
  token := h.continueToken.trans (foldl_absorb_token less _ before)

/-- Why an origin with rows left is not worth another page: it is not allowed any more, or it
failed and has nothing buffered. -/
def Abandoned (outcomes : List (OriginOutcome T)) (state : OriginCursor T) : Prop :=
  ∃ decision, lastDecision state.origin.Key outcomes = some decision ∧
    (decision ≠ .DecisionAllowed ∨
      (∃ outcome ∈ visits state.origin.Key outcomes, outcome.err.isSome) ∧ state.buffered = [])

theorem abandoned_of_not_advertised {next : CompositeCursor T}
    (h : advertised (aggregates outcomes) next = false)
    (hmem : state ∈ next.origins) (hleft : ¬ (state.exhausted = true ∧ state.buffered = [])) :
    Abandoned outcomes state := by
  unfold advertised at h
  rw [Bool.or_eq_false_iff, List.any_eq_false] at h
  have hstate := h.2 state hmem
  have hopen : (!(state.exhausted && state.buffered.isEmpty)) = true := by
    rw [Bool.not_eq_true', ← Bool.not_eq_true, Bool.and_eq_true, List.isEmpty_iff]
    exact hleft
  rw [hopen, Bool.true_and] at hstate
  cases hknown : aggregates outcomes state.origin.Key with
  | none => simp [hknown] at hstate
  | some current =>
    have hdescribes := Aggregate.describes_of_eq hknown
    refine ⟨_, hdescribes.lastDecision_eq, ?_⟩
    by_cases hallowed : current.capability.decision = .DecisionAllowed
    · simp only [hknown, hallowed, true_and, decide_eq_true_eq, not_or, not_not] at hstate
      refine .inr ⟨?_, hstate.2⟩
      -- The recorded failure comes from one of the outcomes.
      obtain ⟨failure, hfailure⟩ := ne_none_iff_exists'.mp hstate.1
      rw [hdescribes.failure] at hfailure
      obtain ⟨outcome, houtcome, herr⟩ := List.exists_of_findSome?_eq_some hfailure
      refine ⟨outcome, houtcome, ?_⟩
      cases h : outcome.err with
      | none => simp [OriginOutcome.failure, h] at herr
      | some err => rfl
    · exact .inl hallowed

/-- What a window keeps, origin by origin of the collection: the pages that were fetched are the
answers of the lister from the continuation of the origin on. -/
structure WindowConserved (cluster : Cluster σ T) (request : CollectionRequest T)
    (result : ListResult T) (trace : Trace T) : Prop where
  items : result.items = trace.emitted.map (·.2)
  rows : ∀ (index : Nat) (origin : Origin),
    (canonicalOrigins request.origins)[index]? = some origin → ∃ before after,
      request.previous.origins[index]? = some before ∧ before.origin.Key = origin.Key ∧
      trace.next.origins[index]? = some after ∧
      ListedFrom cluster request.options before.origin before.continueToken
        (fetchedPages origin.Key trace.outcomes) ∧
      Conserved (fetchedPages origin.Key trace.outcomes) (rowsOf index trace.emitted) before after
  cursor : ∀ cursor, result.cursor = some cursor → cursor = trace.next
  abandoned : result.cursor = none → ∀ state ∈ trace.next.origins,
    ¬ (state.exhausted = true ∧ state.buffered = []) → Abandoned trace.outcomes state

variable {result : ListResult T}

/-- The window ends with the origins it began with. -/
structure WindowPublished (request : CollectionRequest T) (grant : Option Capability)
    (window : Window T) (result : ListResult T) (trace : Trace T) : Prop extends
    Published { request with globalListGrant := grant } (canonicalOrigins request.origins)
      request.previous { request.previous with origins := window.origins } window.outcomes result
      trace where
  origins : window.origins.map (·.origin) = request.previous.origins.map (·.origin)

theorem WindowPublished.conserved {cluster : Cluster σ T} {grant : Option Capability}
    {window : Window T} {trace : Trace T} (h : WindowPublished request grant window result trace)
    (hreplay : (request.previous.origins.map (·.origin.Key)).Nodup →
      window.origins = request.previous.origins.map (replay request.less window.outcomes) ∧
      ∀ first ∈ request.previous.origins, ListedFrom cluster request.options first.origin
        first.continueToken (fetchedPages first.origin.Key window.outcomes)) :
    WindowConserved cluster request result trace := by
  obtain ⟨_, hemitted, _⟩ := mergePreferredNamespace_spec h.merged
  obtain ⟨_, _, hlength, hvalid, hnodup⟩ := validate_eq_ok_iff.mp h.valid
  have hsame : trace.next.origins.map (·.origin) = request.previous.origins.map (·.origin) :=
    hemitted.map_origin.trans h.origins
  have hkeys : (request.previous.origins.map (·.origin.Key)).Nodup := by
    have hmap := congrArg (List.map Origin.Key) hsame
    rw [List.map_map, List.map_map] at hmap
    exact hmap ▸ hnodup
  obtain ⟨hreplayed, hlisted⟩ := hreplay hkeys
  refine ⟨h.items_eq, fun index origin horigin => ?_, fun cursor hcursor => ?_, fun hnone => ?_⟩
  · have hlt : index < request.previous.origins.length := by
      have hlen := congrArg List.length hsame
      rw [List.length_map, List.length_map] at hlen
      have := (List.getElem?_eq_some_iff.mp horigin).1
      omega
    obtain ⟨before, hbefore⟩ : ∃ before, request.previous.origins[index]? = some before :=
      ⟨_, List.getElem?_eq_getElem hlt⟩
    have hwindow : window.origins[index]? = some (replay request.less window.outcomes before) := by
      rw [hreplayed, List.getElem?_map, hbefore, map_some]
    obtain ⟨after, hafter, hrows⟩ := hemitted.2 index _ hwindow
    have hconserved := conserved_of_replay hrows
    have hkey : before.origin.Key = origin.Key := by
      rw [← hconserved.origin]
      exact (hvalid index after origin hafter horigin).key
    have hpages := hlisted before (mem_of_getElem? hbefore)
    rw [hkey, ← h.outcomes_eq] at hconserved hpages
    exact ⟨before, after, hbefore, hkey, hafter, hpages, hconserved⟩
  · rw [h.cursor_eq] at hcursor
    split at hcursor
    · exact (some.inj hcursor).symm
    · cases hcursor
  · rw [h.cursor_eq] at hnone
    intro state hmem hleft
    split at hnone
    · cases hnone
    · next hadvertised =>
      rw [h.outcomes_eq]
      exact abandoned_of_not_advertised (by simpa using hadvertised) hmem hleft

theorem collectTraced_conserved (cluster : Cluster σ T) (request : CollectionRequest T)
    (fuel : Nat) : Sat True (collectTraced cluster request fuel) fun (result, trace) =>
      WindowConserved cluster request result trace ∧
        (trace = ⟨⟨0, []⟩, [], [], ⟨0, []⟩⟩ ∨
          ∃ grant window, WindowPublished request grant window result trace) := by
  apply collectTraced_sat (fun _ => trivial) (fun _ => trivial) _ (fun _ _ _ => trivial)
  · intro _ grant start _ hlimit _ hstart
    obtain rfl := startCursor_ok hstart
    apply (replayRule cluster { request with globalListGrant := grant } fuel
      request.previous.origins).window_spec hlimit (.inl trivial)
    · exact ⟨rfl, fun _ => ⟨(map_id _).symm, fun _ _ => trivial⟩⟩
    · intro window out hafter _ hpublish
      have hpublished : WindowPublished request grant window out.1 out.2 :=
        ⟨publish_ok hpublish, hafter.inv.1⟩
      exact ⟨hpublished.conserved hafter.inv.2, .inr ⟨grant, window, hpublished⟩⟩
    · exact fun _ _ _ _ _ => trivial
  · intro hempty result hitems hcursor _
    exact ⟨⟨hitems, by simp [hempty], by simp [hcursor], by simp⟩, .inl rfl⟩

theorem collectTraced_of_Collect {cluster : Cluster σ T} {fuel : Nat} {s t : σ}
    (h : (Collect cluster request fuel).run.run s = (.ok result, t)) :
    ∃ trace, (collectTraced cluster request fuel).run.run s = (.ok (result, trace), t) := by
  obtain ⟨⟨result', trace⟩, u, htraced, hresult⟩ := run_bind_ok h
  have hpair : ((.ok result' : Except Halt (ListResult T)), u) = (.ok result, t) := hresult
  rw [Prod.mk.injEq, ok.injEq] at hpair
  exact ⟨trace, hpair.1 ▸ hpair.2 ▸ htraced⟩

/-- Whatever the authorizer and the lister answer, a window that returns has lost and doubled no
row of their answers, and drops its cursor only when no origin is worth another page. -/
theorem Collect_conserves_rows (cluster : Cluster σ T) (request : CollectionRequest T)
    (fuel : Nat) (s t : σ) (result : ListResult T)
    (h : (Collect cluster request fuel).run.run s = (.ok result, t)) :
    ∃ trace, (collectTraced cluster request fuel).run.run s = (.ok (result, trace), t) ∧
      WindowConserved cluster request result trace := by
  obtain ⟨trace, htrace⟩ := collectTraced_of_Collect h
  exact ⟨trace, htrace, ((collectTraced_conserved cluster request fuel).of_run htrace).1⟩

/-- Rows, continuation and error of the LISTs to come. -/
abbrev Script : Type := List (List Nat × String × Option ReadError)

def scripted : Cluster Script Nat where
  check _ := pure ⟨.DecisionAllowed, some .ReasonSARAllowed⟩
  listPage request := do
    match ← get with
    | [] => pure (emptyPage request.origin, none)
    | (items, token, err) :: rest =>
      set rest
      pure (⟨request.origin, items, token, ""⟩, err)
  contextErr := pure none
  jitter delay := pure delay
  wait _ := pure none
  schedule indices := pure ⟨indices, Subperm.refl _⟩
  listPage_origin := by
    intro request s
    cases s <;> exact .inl rfl

def podRequest (namespaces : List String) (limit : Int) (cursor : Option (CompositeCursor Nat)) :
    CollectionRequest Nat where
  selection := ⟨"generation", "context", "namespaces"⟩
  options := ⟨limit, "identity", .OrderDescending, "", ""⟩
  origins := namespaces.map fun name => ⟨name, "", "v1", "pods"⟩
  cursor := cursor
  less := fun a b => decide (a < b)
  requestedNamespaces := 0
  fanout := 0
  retry := ⟨0, 0, 0⟩
  preferredNamespace := ""
  nativeIdentityOrder := true
  globalGrantFastPath := true
  readThroughUnknown := true
  globalListGrant := none

def pagedRequest : CollectionRequest Nat :=
  podRequest ["bank", "shop"] 3 (some ⟨1, [⟨⟨"bank", "", "v1", "pods"⟩, "", "", true, [1]⟩,
    ⟨⟨"shop", "", "v1", "pods"⟩, "", "", false, []⟩]⟩)

def pagedScript : Script :=
  [([], "", some (domainError .CodeUpstreamTimeout "The Kubernetes API timed out.")),
    ([4], "more", none), ([2, 5], "", none)]

/-- `shop` is listed in two chunks, the first of which times out once; `bank` only emits its
buffer. -/
theorem Collect_conserves_two_chunks : ∃ result trace t,
    (collectTraced scripted pagedRequest 5).run.run pagedScript = (.ok (result, trace), t) ∧
      result.items = [1, 2, 4] ∧ WindowConserved scripted pagedRequest result trace := by
  obtain ⟨result, t, hrun, hitems⟩ := exists_run_ok (m := Collect scripted pagedRequest 5)
    (s := pagedScript) (p := fun result => decide (result.items = [1, 2, 4])) (by decide +kernel)
  obtain ⟨trace, htrace⟩ :=
    Collect_conserves_rows scripted pagedRequest 5 pagedScript t result hrun
  exact ⟨result, trace, t, htrace.1, of_decide_eq_true hitems, htrace.2⟩

end Kubepeep.Resources
