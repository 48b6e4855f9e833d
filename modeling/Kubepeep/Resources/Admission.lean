import Kubepeep.Resources.Conservation

/-!
# Which rows may leave a window

A row is emitted for an origin whose last decision is Allowed.  That Kubernetes did not reject the
origin meanwhile is only checked against its first failure: a rejection that follows another kind
of failure is forgotten, and the buffered rows of the origin leave with the page.  A 401 that a
retry overcomes is no failure at all.
-/

open List Kubepeep.Authorization Kubepeep.Effect

namespace Kubepeep.Resources

variable {σ T : Type}

def ReadError.rejection (err : ReadError) : Bool :=
  (classifyReadError err).1 = .CodeForbidden ∨
    (classifyReadError err).1 = .CodeAuthenticationUnavailable

def OriginOutcome.rejected (outcome : OriginOutcome T) : Bool :=
  outcome.failedAttempts.any (·.rejection)

/-- Every emitted row is of an origin that was allowed last and never rejected. -/
def Trace.Guarded (trace : Trace T) : Prop :=
  ∀ row ∈ trace.emitted, ∃ state ∈ trace.start.origins[row.1]?,
    lastDecision state.origin.Key trace.outcomes = some .DecisionAllowed ∧
    ∀ outcome ∈ visits state.origin.Key trace.outcomes, outcome.rejected = false

instance (trace : Trace T) : Decidable trace.Guarded :=
  inferInstanceAs (Decidable (∀ row ∈ trace.emitted, ∃ state ∈ trace.start.origins[row.1]?, _))

/-- If a LIST attempt was rejected, so was the first LIST that failed in spite of its retries. -/
def RejectedFirst (visited : List (OriginOutcome T)) : Prop :=
  (∃ outcome ∈ visited, outcome.rejected = true) →
    (visited.findSome? (·.err)).any (·.rejection) = true

instance (visited : List (OriginOutcome T)) : Decidable (RejectedFirst visited) :=
  inferInstanceAs (Decidable (_ → _))

/-- Every origin with rows, buffered or fetched, that was allowed last and rejected was rejected
first. -/
def Trace.Heeded (trace : Trace T) : Prop :=
  ∀ state ∈ trace.start.origins,
    state.buffered ++ (fetchedPages state.origin.Key trace.outcomes).flatMap (·.items) ≠ [] →
    lastDecision state.origin.Key trace.outcomes = some .DecisionAllowed →
    RejectedFirst (visits state.origin.Key trace.outcomes)

instance [DecidableEq T] (trace : Trace T) : Decidable trace.Heeded :=
  inferInstanceAs (Decidable (∀ state ∈ trace.start.origins, _ → _ → _))

theorem findSome?_failure_any (visited : List (OriginOutcome T)) :
    (visited.findSome? (·.failure)).any rejects =
      (visited.findSome? (·.err)).any (·.rejection) := by
  induction visited with
  | nil => rfl
  | cons first rest ih =>
    rw [findSome?_cons, findSome?_cons]
    unfold OriginOutcome.failure
    cases first.err with
    | none => exact ih
    | some err => rfl

variable {outcomes : List (OriginOutcome T)} {key : String}

theorem admits_iff : Admits (aggregates outcomes) key ↔
    lastDecision key outcomes = some .DecisionAllowed ∧
      ((visits key outcomes).findSome? (·.err)).any (·.rejection) = false := by
  cases hknown : aggregates outcomes key with
  | none => simp [Admits, hknown, lastDecision, aggregates_eq_none_iff.mp hknown]
  | some current =>
    have hdescribes := Aggregate.describes_of_eq hknown
    rw [hdescribes.lastDecision_eq, ← findSome?_failure_any, ← hdescribes.failure]
    simp [Admits, hknown]

variable {cluster : Cluster σ T} {request : CollectionRequest T} {result : ListResult T}
  {trace : Trace T} {grant : Option Capability} {window : Window T}

/-- A window emits rows of origins that were allowed last and never rejected, if every rejection is
heeded; and only then, unless the page is full. -/
structure Admission (request : CollectionRequest T) (result : ListResult T) (trace : Trace T) :
    Prop where
  items : result.items = trace.emitted.map (·.2)
  guarded : trace.Heeded → trace.Guarded
  heeded : (result.items.length : Int) < request.options.limit → trace.Guarded → trace.Heeded

theorem WindowPublished.rows_at (h : WindowPublished request grant window result trace)
    (hconserved : WindowConserved cluster request result trace) {index : Nat}
    {before : OriginCursor T} (hbefore : request.previous.origins[index]? = some before) :
    ∃ origin ∈ canonicalOrigins request.origins, origin.Key = before.origin.Key ∧
      ∃ after ∈ trace.next.origins, Conserved (fetchedPages before.origin.Key trace.outcomes)
        (rowsOf index trace.emitted) before after := by
  have hlength : request.previous.origins.length = (canonicalOrigins request.origins).length := by
    have hmap := congrArg length h.origins
    rw [length_map, length_map] at hmap
    rw [← hmap, ← (validate_eq_ok_iff.mp h.valid).2.2.1,
      (mergePreferredNamespace_spec h.merged).2.1.1]
  have hlt : index < (canonicalOrigins request.origins).length :=
    hlength ▸ (List.getElem?_eq_some_iff.mp hbefore).1
  obtain ⟨first, after, hfirst, hkey, hafter, _, hrows⟩ :=
    hconserved.rows index _ (getElem?_eq_getElem hlt)
  obtain rfl := Option.some.inj (hbefore.symm.trans hfirst)
  exact ⟨_, getElem_mem hlt, hkey.symm, after, mem_of_getElem? hafter, hkey ▸ hrows⟩

theorem WindowPublished.guarded (h : WindowPublished request grant window result trace)
    (hconserved : WindowConserved cluster request result trace) (hheeded : trace.Heeded) :
    trace.Guarded := by
  intro row hrow
  obtain ⟨state, hstate, hadmitted⟩ := (mergePreferredNamespace_spec h.merged).2.2 row hrow
  rw [← h.outcomes_eq] at hadmitted
  have hsame := congrArg (·[row.1]?) h.origins
  simp only [getElem?_map, hstate, Option.map_some] at hsame
  obtain ⟨before, hbefore, hsame⟩ := Option.map_eq_some_iff.mp hsame.symm
  obtain ⟨_, _, _, after, _, hrows⟩ := h.rows_at hconserved hbefore
  obtain ⟨hlast, hfirst⟩ := admits_iff.mp (summarize_admits hadmitted)
  rw [← hsame] at hlast hfirst
  refine ⟨before, h.start_eq ▸ hbefore, hlast, fun outcome hmem =>
    Bool.eq_false_iff.mpr fun hrejected => ?_⟩
  refine absurd (hheeded before (h.start_eq ▸ mem_of_getElem? hbefore) (fun hnil => ?_) hlast
    ⟨outcome, hmem, hrejected⟩) (by simp [hfirst])
  have hmem : row.2 ∈ rowsOf row.1 trace.emitted := mem_filterMap.mpr ⟨row, hrow, if_pos rfl⟩
  have hperm := hrows.rows
  rw [hnil, nil_perm, append_eq_nil_iff] at hperm
  simp [hperm.1] at hmem

theorem WindowPublished.heeded (h : WindowPublished request grant window result trace)
    (hconserved : WindowConserved cluster request result trace)
    (hroom : (result.items.length : Int) < request.options.limit) (hguarded : trace.Guarded) :
    trace.Heeded := by
  intro state hstate hoffered hlast ⟨outcome, hmem, hrejected⟩
  rw [h.items_eq, length_map] at hroom
  by_contra hfirst
  obtain ⟨index, hbefore⟩ := mem_iff_getElem?.mp hstate
  obtain ⟨origin, horigin, hkey, after, hafter, hrows⟩ :=
    h.rows_at hconserved (h.start_eq ▸ hbefore)
  have hadmitted := summarize_of_admits horigin
    (hkey ▸ admits_iff.mpr ⟨hlast, Bool.eq_false_iff.mpr hfirst⟩)
  rw [h.outcomes_eq, hkey, ← hrows.origin] at hadmitted
  -- The page has room, so every row of the admitted origin is on it.
  have hempty : after.buffered = [] := by
    by_contra hne
    exact mergePreferredNamespace_drained h.merged hroom ⟨after, hafter, hadmitted, hne⟩
  have hperm := hrows.rows
  rw [hempty, append_nil] at hperm
  obtain ⟨item, hitem⟩ := exists_mem_of_ne_nil _ hoffered
  obtain ⟨row, hrow, hsome⟩ := mem_filterMap.mp (hperm.mem_iff.mp hitem)
  obtain ⟨first, hstart, _, hclean⟩ := hguarded row hrow
  split at hsome
  · next heq =>
    obtain rfl := Option.some.inj (hbefore.symm.trans (heq ▸ hstart))
    simp [hclean outcome hmem] at hrejected
  · cases hsome

/-- Whatever the authorizer and the lister answer, late rejections alone are not heeded. -/
theorem Collect_emits_guarded_rows (cluster : Cluster σ T) (request : CollectionRequest T)
    (fuel : Nat) (s t : σ) (result : ListResult T) (trace : Trace T)
    (h : (collectTraced cluster request fuel).run.run s = (.ok (result, trace), t)) :
    Admission request result trace := by
  obtain ⟨hconserved, rfl | ⟨grant, window, hpublished⟩⟩ :=
    (collectTraced_conserved cluster request fuel).of_run h
  · exact ⟨hconserved.items, by simp [Trace.Guarded], fun _ _ => by simp [Trace.Heeded]⟩
  · exact ⟨hconserved.items, hpublished.guarded hconserved, hpublished.heeded hconserved⟩

def timedOut : ReadError :=
  domainError .CodeUpstreamTimeout "The Kubernetes API timed out."

def unauthorized : ReadError :=
  domainError .CodeAuthenticationUnavailable "Kubernetes rejected the current credentials."

def twoNamespaces : CollectionRequest Nat :=
  podRequest ["bank", "shop"] 4 (some ⟨1, [⟨⟨"bank", "", "v1", "pods"⟩, "next", "", false, [1]⟩,
    ⟨⟨"shop", "", "v1", "pods"⟩, "", "", false, []⟩]⟩)

/-- `shop` answers, and `bank` is unauthorized in both rounds, each with its two retries. -/
def unauthorizedScript : Script :=
  [([2], "more", none),
    ([], "", some unauthorized), ([], "", some unauthorized), ([], "", some unauthorized),
    ([3], "", none),
    ([], "", some unauthorized), ([], "", some unauthorized), ([], "", some unauthorized)]

/-- The row of `bank` stays, and those of `shop` leave. -/
theorem Collect_emits_guarded_shop : ∃ result trace t,
    (collectTraced scripted twoNamespaces 5).run.run unauthorizedScript = (.ok (result, trace), t) ∧
      result.items = [2, 3] ∧ trace.Heeded ∧ trace.Guarded := by
  obtain ⟨⟨result, trace⟩, t, hrun, h⟩ := exists_run_ok
    (m := collectTraced scripted twoNamespaces 5)
    (s := unauthorizedScript) (p := fun out => decide (out.1.items = [2, 3] ∧ out.2.Heeded))
    (by decide +kernel)
  have hboth := of_decide_eq_true h
  exact ⟨result, trace, t, hrun, hboth.1, hboth.2,
    (Collect_emits_guarded_rows scripted twoNamespaces 5 _ t result trace hrun).guarded hboth.2⟩

/-- `shop` answers; `bank` times out in the first round and is unauthorized in the second, each
with its two retries. -/
def maskedScript : Script :=
  [([2], "more", none),
    ([], "", some timedOut), ([], "", some timedOut), ([], "", some timedOut), ([3], "most", none),
    ([], "", some unauthorized), ([], "", some unauthorized), ([], "", some unauthorized),
    ([4], "", none)]

/-- The window returns the buffered row of `bank` after Kubernetes answered 401 for it. -/
theorem Collect_emits_rejected_row : ∃ result trace t,
    (collectTraced scripted twoNamespaces 5).run.run maskedScript = (.ok (result, trace), t) ∧
      result.items = [1, 2, 3, 4] ∧ ¬ trace.Guarded := by
  obtain ⟨⟨result, trace⟩, t, hrun, h⟩ := exists_run_ok
    (m := collectTraced scripted twoNamespaces 5)
    (s := maskedScript) (p := fun out => decide (out.1.items = [1, 2, 3, 4] ∧ ¬ out.2.Guarded))
    (by decide +kernel)
  exact ⟨result, trace, t, hrun, of_decide_eq_true h⟩

end Kubepeep.Resources
