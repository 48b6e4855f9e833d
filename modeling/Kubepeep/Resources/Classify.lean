import Kubepeep.Resources.Merge

/-!
# What the classification keeps of a window

The entry of an origin is its last decision, its first failure, and whether one of its answers was
authoritative.  The merge admits an origin on these alone.
-/

open List Kubepeep.Authorization

namespace Kubepeep.Resources

variable {T : Type}

/-! ## The entry of one origin -/

def visits (key : String) (outcomes : List (OriginOutcome T)) : List (OriginOutcome T) :=
  outcomes.filter fun outcome => outcome.page.origin.Key = key

def lastDecision (key : String) (outcomes : List (OriginOutcome T)) : Option Decision :=
  (visits key outcomes).getLast?.map fun outcome => outcome.capability.decision

def OriginOutcome.failure (outcome : OriginOutcome T) : Option PartialErrorDTO :=
  outcome.err.map fun err =>
    ⟨outcome.page.origin.namespaceName, (classifyReadError err).1, (classifyReadError err).2⟩

theorem visits_append (key : String) (outcomes : List (OriginOutcome T))
    (outcome : OriginOutcome T) :
    visits key (outcomes ++ [outcome]) =
      visits key outcomes ++ if outcome.page.origin.Key = key then [outcome] else [] := by
  unfold visits
  split <;> simp_all

variable (outcomes : List (OriginOutcome T))

theorem aggregates_append (outcome : OriginOutcome T) (key : String) :
    aggregates (outcomes ++ [outcome]) key =
      if key = outcome.page.origin.Key then some (.update (aggregates outcomes key) outcome)
      else aggregates outcomes key := by
  unfold aggregates
  rw [foldl_append]
  rfl

structure Aggregate.Describes (current : Aggregate) (visited : List (OriginOutcome T)) : Prop where
  capability : visited.getLast?.map (·.capability) = some current.capability
  failure : current.failure = visited.findSome? (·.failure)
  authoritative : current.authoritative =
    visited.any fun outcome => outcome.err.isNone && outcome.authoritative

theorem aggregates_spec (key : String) :
    match aggregates outcomes key with
    | none => visits key outcomes = []
    | some current => current.Describes (visits key outcomes) := by
  induction outcomes using reverseRecOn with
  | nil => rfl
  | append_singleton outcomes outcome ih =>
    rw [aggregates_append, visits_append]
    by_cases hkey : outcome.page.origin.Key = key
    · rw [if_pos hkey.symm, if_pos hkey]
      cases hknown : aggregates outcomes key with
      | none =>
        rw [hknown] at ih
        rw [ih]
        refine ⟨by simp [Aggregate.update], ?_, by simp [Aggregate.update]⟩
        cases herr : outcome.err <;> simp [Aggregate.update, OriginOutcome.failure, herr]
      | some current =>
        rw [hknown] at ih
        refine ⟨by simp [Aggregate.update], ?_, ?_⟩
        · rw [findSome?_append, ← ih.failure]
          cases hfailure : current.failure <;>
            cases herr : outcome.err <;>
              simp [Aggregate.update, OriginOutcome.failure, hfailure, herr]
        · simp [Aggregate.update, ih.authoritative]
    · rw [if_neg (Ne.symm hkey), if_neg hkey, append_nil]
      exact ih

variable {outcomes : List (OriginOutcome T)} {key : String}

theorem aggregates_eq_none_iff :
    aggregates outcomes key = none ↔ visits key outcomes = [] := by
  have h := aggregates_spec outcomes key
  cases hknown : aggregates outcomes key with
  | none =>
    rw [hknown] at h
    simpa using h
  | some current =>
    rw [hknown] at h
    simp only [reduceCtorEq, false_iff]
    intro hnil
    have := h.capability
    simp [hnil] at this

variable {current : Aggregate}

theorem Aggregate.describes_of_eq (h : aggregates outcomes key = some current) :
    current.Describes (visits key outcomes) := by
  have hspec := aggregates_spec outcomes key
  rw [h] at hspec
  exact hspec

theorem Aggregate.Describes.lastDecision_eq (h : current.Describes (visits key outcomes)) :
    lastDecision key outcomes = some current.capability.decision := by
  have := congrArg (Option.map (·.decision)) h.capability
  simpa [lastDecision, Option.map_map, Function.comp_def] using this

/-! ## The summary -/

def Admits (known : String → Option Aggregate) (key : String) : Prop :=
  ∃ current, known key = some current ∧ current.capability.decision = .DecisionAllowed ∧
    current.failure.any rejects = false

variable {known : String → Option Aggregate}

theorem Summary.step_admits (summary : Summary)
    (h : ∀ key, summary.allowedOrigins key = true → Admits known key) (origin : Origin) :
    ∀ key, (summary.step known origin).allowedOrigins key = true → Admits known key := by
  intro key hkey
  unfold Summary.step at hkey
  split at hkey
  · exact h key hkey
  · next current hknown =>
    split at hkey
    · exact h key hkey
    · exact h key hkey
    · next hallowed =>
      simp only [Summary.admitted] at hkey
      split at hkey
      · next heq => exact ⟨current, heq ▸ hknown, hallowed, by simpa using hkey⟩
      · exact h key hkey

theorem foldl_step_admits (known : String → Option Aggregate) (origins : List Origin) :
    ∀ summary : Summary, (∀ key, summary.allowedOrigins key = true → Admits known key) →
      ∀ key, (origins.foldl (Summary.step known) summary).allowedOrigins key = true →
        Admits known key := by
  induction origins with
  | nil => exact fun _ h => h
  | cons origin rest ih => exact fun summary h => ih _ (summary.step_admits h origin)

variable {origins : List Origin}

theorem summarize_admits
    (h : (summarize known origins).allowedOrigins key = true) : Admits known key :=
  foldl_step_admits known origins .empty (by simp [Summary.empty]) key h

theorem Summary.step_of_admits (summary : Summary) (origin : Origin) (h : Admits known key)
    (hkey : summary.allowedOrigins key = true ∨ origin.Key = key) :
    (summary.step known origin).allowedOrigins key = true := by
  obtain ⟨current, hknown, hallowed, hfailure⟩ := h
  by_cases heq : origin.Key = key
  · subst heq
    simp [Summary.step, hknown, hallowed, Summary.admitted, hfailure]
  · have hbefore := hkey.resolve_right heq
    unfold Summary.step
    split
    · exact hbefore
    · split
      · exact hbefore
      · exact hbefore
      · exact (if_neg (Ne.symm heq)).trans hbefore

theorem foldl_step_of_admits (h : Admits known key) (origins : List Origin) : ∀ summary : Summary,
    (summary.allowedOrigins key = true ∨ ∃ origin ∈ origins, origin.Key = key) →
      (origins.foldl (Summary.step known) summary).allowedOrigins key = true := by
  induction origins with
  | nil => exact fun _ hkey => hkey.resolve_right (by simp)
  | cons origin rest ih =>
    intro summary hkey
    rw [exists_mem_cons_iff, ← or_assoc] at hkey
    exact ih _ (hkey.imp_left (summary.step_of_admits origin h))

theorem summarize_of_admits {origin : Origin} (hmem : origin ∈ origins)
    (h : Admits known origin.Key) : (summarize known origins).allowedOrigins origin.Key = true :=
  foldl_step_of_admits h origins .empty (.inr ⟨origin, hmem, rfl⟩)

def Clean (known : String → Option Aggregate) : Prop :=
  ∀ key current, known key = some current →
    current.capability.decision = .DecisionAllowed ∧ current.failure = none

theorem Clean.admits (h : Clean known) {current : Aggregate} (hknown : known key = some current) :
    Admits known key :=
  ⟨current, hknown, (h _ _ hknown).1, by simp [(h _ _ hknown).2]⟩

structure Summary.Grows (known : String → Option Aggregate) (origins : List Origin)
    (summary final : Summary) : Prop where
  failed : final.failed = summary.failed
  allowed : summary.allowed ≤ final.allowed
  successes : summary.authoritativeSuccesses ≤ final.authoritativeSuccesses
  counted : ∀ origin ∈ origins, ∀ current, known origin.Key = some current →
    1 ≤ final.allowed ∧ (current.authoritative = true → 1 ≤ final.authoritativeSuccesses)

theorem Summary.step_grows (hclean : Clean known) (summary : Summary) (origin : Origin) :
    Summary.Grows known [origin] summary (summary.step known origin) := by
  unfold Summary.step
  split
  · next hnone => exact ⟨rfl, le_rfl, le_rfl, by simp [hnone]⟩
  · next current hknown =>
    obtain ⟨hallowed, hfailure⟩ := hclean _ _ hknown
    simp only [hallowed]
    refine ⟨by simp [Summary.admitted, hfailure], by simp [Summary.admitted], ?_, ?_⟩
    · simp only [Summary.admitted]
      split <;> omega
    · intro other hother current' hknown'
      obtain rfl := mem_singleton.mp hother
      obtain rfl := Option.some.inj (hknown.symm.trans hknown')
      exact ⟨by simp [Summary.admitted], fun h => by simp [Summary.admitted, h]⟩

theorem foldl_step_grows (hclean : Clean known) (origins : List Origin) : ∀ summary : Summary,
      Summary.Grows known origins summary (origins.foldl (Summary.step known) summary) := by
  induction origins with
  | nil => exact fun _ => ⟨rfl, le_rfl, le_rfl, by simp⟩
  | cons origin rest ih =>
    intro summary
    have hstep := summary.step_grows hclean origin
    have hrest := ih (summary.step known origin)
    refine ⟨hrest.failed.trans hstep.failed, hstep.allowed.trans hrest.allowed,
      hstep.successes.trans hrest.successes, ?_⟩
    rw [forall_mem_cons]
    refine ⟨fun current hknown => ?_, hrest.counted⟩
    obtain ⟨hcount, hsuccess⟩ := hstep.counted origin mem_cons_self current hknown
    exact ⟨hcount.trans hrest.allowed, fun h => (hsuccess h).trans hrest.successes⟩

theorem Summary.verdict_ok {summary : Summary} (hallowed : 1 ≤ summary.allowed)
    (hsuccess : 1 ≤ summary.authoritativeSuccesses) : summary.verdict = .ok () := by
  unfold Summary.verdict
  rw [if_neg (by omega), if_neg (by omega)]

/-! ## A published window -/

structure Published (request : CollectionRequest T) (origins : List Origin)
    (start cursor : CompositeCursor T) (outcomes : List (OriginOutcome T)) (result : ListResult T)
    (trace : Trace T) : Prop where
  start_eq : trace.start = start
  outcomes_eq : trace.outcomes = outcomes
  items_eq : result.items = trace.emitted.map (·.2)
  cursor_eq : result.cursor =
    if advertised (aggregates outcomes) trace.next then some trace.next else none
  merged : mergePreferredNamespace cursor request
    (summarize (aggregates outcomes) origins).allowedOrigins = .ok (trace.emitted, trace.next)
  valid : trace.next.Validate origins = .ok ()
  complete_eq : result.page.complete =
    (trace.next.Complete && (summarize (aggregates outcomes) origins).failed.isEmpty)

variable {request : CollectionRequest T}

theorem publish_ok {start cursor : CompositeCursor T} {result : ListResult T}
    {trace : Trace T} (h : publish request origins start cursor outcomes = .ok (result, trace)) :
    Published request origins start cursor outcomes result trace := by
  unfold publish at h
  split at h
  · cases h
  obtain ⟨_, _, h⟩ := except_bind_eq_ok h
  obtain ⟨⟨items, next⟩, hmerge, h⟩ := except_bind_eq_ok h
  obtain ⟨_, hvalid, h⟩ := except_bind_eq_ok h
  obtain ⟨rfl, rfl⟩ := h
  exact ⟨rfl, rfl, rfl, rfl, hmerge, hvalid, rfl⟩

theorem publish_eq_ok (start : CompositeCursor T) {cursor next : CompositeCursor T}
    {items : List (Nat × T)} (hexpired : outcomes.any isExpired = false)
    (hverdict : (summarize (aggregates outcomes) origins).verdict = .ok ())
    (hmerge : mergePreferredNamespace cursor request
      (summarize (aggregates outcomes) origins).allowedOrigins = .ok (items, next))
    (hvalid : next.Validate origins = .ok ()) :
    ∃ result trace, publish request origins start cursor outcomes = .ok (result, trace) := by
  unfold publish
  rw [if_neg (by simp [hexpired])]
  simp only [hverdict, hmerge, hvalid, bind, Except.bind, pure, Except.pure]
  exact ⟨_, _, rfl⟩

theorem advertised_of_clean (h : Clean known)
    (next : CompositeCursor T) : advertised known next = true := by
  unfold advertised
  cases hcomplete : next.Complete with
  | true => rfl
  | false =>
    rw [Bool.false_or, any_eq_true]
    obtain ⟨state, hmem, hopen⟩ := all_eq_false.mp hcomplete
    refine ⟨state, hmem, ?_⟩
    rw [Bool.and_eq_true]
    refine ⟨by simpa only [Bool.not_eq_true', Bool.not_eq_true] using hopen, ?_⟩
    split
    · rfl
    · next current hknown => simp [h _ _ hknown]

end Kubepeep.Resources
