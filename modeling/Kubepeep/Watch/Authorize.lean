import Kubepeep.Lib.Effect
import Kubepeep.Lib.Pool
import Kubepeep.Logs.Service
import Kubepeep.Watch.Types

/-!
# Authorization of a stream

`authorizeTopics` (`internal/services/resources/watch.go`) reviews `list` and `watch` for every
resource of the requested topics, cluster-wide or in every selected namespace.  The reviews of many
namespaces run in a pool of workers that is canceled by the first one that is not allowed.  A review
that was not made is never taken for an allowed one.
-/

open Kubepeep.Authorization Kubepeep.Resources Kubepeep.System
open Kubepeep.Logs (sanitizePortError)

namespace Kubepeep.Watch

/-! ## Topics -/

def topicOrder : List Topic :=
  [.TopicPods, .TopicEvents, .TopicWorkloads, .TopicServices, .TopicIngresses,
    .TopicEndpointSlices, .TopicConfigMaps, .TopicPVCs]

/-- A `schema.GroupVersionResource`; reviews do not name the version. -/
structure GroupResource where
  group : String
  resource : String
  deriving DecidableEq, Repr

def Topic.groupResources : Topic → List GroupResource
  | .TopicPods => [⟨"", "pods"⟩]
  | .TopicEvents => [⟨"", "events"⟩]
  | .TopicWorkloads =>
    [⟨"apps", "deployments"⟩, ⟨"apps", "statefulsets"⟩, ⟨"apps", "daemonsets"⟩, ⟨"batch", "jobs"⟩,
      ⟨"batch", "cronjobs"⟩]
  | .TopicServices => [⟨"", "services"⟩]
  | .TopicIngresses => [⟨"networking.k8s.io", "ingresses"⟩]
  | .TopicEndpointSlices => [⟨"discovery.k8s.io", "endpointslices"⟩]
  | .TopicConfigMaps => [⟨"", "configmaps"⟩]
  | .TopicPVCs => [⟨"", "persistentvolumeclaims"⟩]

def topicOf (text : String) : Option Topic := topicOrder.find? (·.text = text)

/-- The loop of `ValidateTopics`, which returns what it has seen. -/
def seenTopics : List String → List Topic → Except ReadError (List Topic)
  | [], seen => .ok seen
  | value :: rest, seen =>
    match topicOf value with
    | none => .error (validationError "topic is not supported")
    | some topic =>
      if topic ∈ seen then .error (validationError "topic must not contain duplicates")
      else seenTopics rest (topic :: seen)

def ValidateTopics (values : List String) : Except ReadError (List Topic) :=
  if values.length < 1 ∨ values.length > topicOrder.length then
    .error (validationError "topic cardinality must be between 1 and 8")
  else do
    let seen ← seenTopics values []
    return topicOrder.filter (· ∈ seen)

/-! ## Reviews -/

/-- `Selection` with the fields that the authorization reads. -/
structure StreamSelection where
  generation : String
  namespaces : List String
  deriving DecidableEq, Repr

def streamVerbs : List String := ["list", "watch"]

def reviewKey (generation namespaceName : String) (gvr : GroupResource) (verb : String) : Key :=
  { generation, namespaceName, apiGroup := gvr.group, resource := gvr.resource, verb }

/-- The keys of the loops over topics, resources, namespaces and verbs. -/
def reviewKeys (generation : String) (namespaces : List String) (topics : List Topic) : List Key :=
  topics.flatMap fun topic => topic.groupResources.flatMap fun gvr =>
    namespaces.flatMap fun namespaceName =>
      streamVerbs.map (reviewKey generation namespaceName gvr)

def refusal (capability : Capability) : ReadError :=
  match capability.decision with
  | .DecisionDenied =>
    domainError .CodeForbidden "Access to the requested resource stream was denied."
  | _ =>
    let failure := ReviewFailure capability
    domainError failure.code failure.message

/-- Reviews in order, up to the first that is not allowed; `answer` is asked with the number of the
review. -/
def reviewInOrder (answer : Nat → Key → Capability) :
    Nat → List Key → List (Key × Capability) × Option Capability
  | _, [] => ([], none)
  | index, key :: rest =>
    let capability := answer index key
    if capability.decision = .DecisionAllowed then
      let (reviews, failed) := reviewInOrder answer (index + 1) rest
      ((key, capability) :: reviews, failed)
    else
      ([(key, capability)], some capability)

/-! ## Concurrent reviews -/

def maximumConcurrentStreamAuthorizations : Nat := 16

/-- What ends the pool: the request's context, or a worker. -/
inductive ReviewSignal where
  | canceled
  | refused
  deriving DecidableEq

/-- A worker that has a key still waits for a slot, and drops the key when the context ends. -/
def reviewRules (keys : List Key) : Pool.Rules Capability ReviewSignal where
  jobs := keys.length
  outcome _ _ := True
  after capability :=
    if capability.decision = .DecisionAllowed then none else some .refused
  external signal := signal = .canceled
  drops := True

/-- The pool has come to its end with these reviews, and `ctx.Err()` is asked last. -/
def ConcurrentReview (keys : List Key) (finished : List (Nat × Capability))
    (ctxErr : Option ReadError) : Prop :=
  ∃ actions, ∃ pool : Pool.State
      (Fin (min maximumConcurrentStreamAuthorizations keys.length)) Capability ReviewSignal,
    Runs (Pool.Step (reviewRules keys)) Pool.start actions pool ∧
      (∀ w, pool.workers w = .stopped) ∧ pool.finished = finished ∧
      (pool.signals .canceled = true → ctxErr ≠ none)

/-- What `authorizeTopicsConcurrently` returns; `none` is nil. -/
def verdict (finished : List (Nat × Capability)) (ctxErr : Option ReadError) : Option ReadError :=
  match finished.find? fun entry => entry.2.decision = .DecisionDenied with
  | some entry => some (refusal entry.2)
  | none =>
    match finished.find? fun entry => entry.2.decision ≠ .DecisionAllowed with
    | some entry => some (refusal entry.2)
    | none => ctxErr.map sanitizePortError

def keyed (keys : List Key) (finished : List (Nat × Capability)) : List (Key × Capability) :=
  finished.filterMap fun entry => keys[entry.1]?.map fun key => (key, entry.2)

/-! ## The whole authorization -/

structure Reviewable (checker : Option (Nat → Key → Capability)) (selection : StreamSelection)
    (topics : List String) (canonical : List Topic) (answer : Nat → Key → Capability) : Prop where
  topics : ValidateTopics topics = .ok canonical
  checker : checker = some answer
  generation : selection.generation ≠ ""

/-- The reviews that `authorizeTopics` makes and what it returns. -/
inductive AuthorizeTopics (checker : Option (Nat → Key → Capability)) (selection : StreamSelection)
    (topics : List String) : List (Key × Capability) → Option ReadError → Prop
  | invalid {err : ReadError} (htopics : ValidateTopics topics = .error err) :
      AuthorizeTopics checker selection topics [] (some err)
  | unavailable {canonical : List Topic} (htopics : ValidateTopics topics = .ok canonical)
      (hchecker : checker = none) :
      AuthorizeTopics checker selection topics []
        (some (domainError .CodeFeatureUnavailable "Resource authorization is unavailable."))
  | incomplete {canonical : List Topic} (htopics : ValidateTopics topics = .ok canonical)
      (hchecker : checker ≠ none)
      (hselection : selection.generation = "" ∨ selection.namespaces = []) :
      AuthorizeTopics checker selection topics []
        (some (validationError "stream selection is incomplete"))
  -- The cluster-wide probe is allowed.
  | globally {canonical : List Topic} {answer : Nat → Key → Capability}
      {reviews : List (Key × Capability)}
      (hready : Reviewable checker selection topics canonical answer)
      (hmany : selection.namespaces.length > 1)
      (hprobe : reviewInOrder answer 0 (reviewKeys selection.generation [""] canonical) =
        (reviews, none)) :
      AuthorizeTopics checker selection topics reviews none
  -- It is not, and every namespace is reviewed.
  | probed {canonical : List Topic} {answer : Nat → Key → Capability}
      {probes : List (Key × Capability)} {failed : Capability}
      {finished : List (Nat × Capability)} {ctxErr : Option ReadError}
      (hready : Reviewable checker selection topics canonical answer)
      (hmany : selection.namespaces.length > 1)
      (hprobe : reviewInOrder answer 0 (reviewKeys selection.generation [""] canonical) =
        (probes, some failed))
      (hreview : ConcurrentReview
        (reviewKeys selection.generation selection.namespaces canonical) finished ctxErr) :
      AuthorizeTopics checker selection topics
        (probes ++ keyed (reviewKeys selection.generation selection.namespaces canonical) finished)
        (verdict finished ctxErr)
  | clusterWide {canonical : List Topic} {answer : Nat → Key → Capability}
      {finished : List (Nat × Capability)} {ctxErr : Option ReadError}
      (hready : Reviewable checker selection topics canonical answer)
      (hall : selection.namespaces = [""])
      (hreview : ConcurrentReview
        (reviewKeys selection.generation selection.namespaces canonical) finished ctxErr) :
      AuthorizeTopics checker selection topics
        (keyed (reviewKeys selection.generation selection.namespaces canonical) finished)
        (verdict finished ctxErr)
  | inOrder {canonical : List Topic} {answer : Nat → Key → Capability} {namespaceName : String}
      {reviews : List (Key × Capability)} {failed : Option Capability}
      (hready : Reviewable checker selection topics canonical answer)
      (hone : selection.namespaces = [namespaceName]) (hnamed : namespaceName ≠ "")
      (hreview : reviewInOrder answer 0
        (reviewKeys selection.generation selection.namespaces canonical) = (reviews, failed)) :
      AuthorizeTopics checker selection topics reviews (failed.map refusal)

/-! ## Nothing is allowed without a review -/

def AllowedIn (reviews : List (Key × Capability)) (key : Key) : Prop :=
  ∃ capability, (key, capability) ∈ reviews ∧ capability.decision = .DecisionAllowed

theorem AllowedIn.mono {reviews more : List (Key × Capability)} {key : Key}
    (h : AllowedIn reviews key) (hsub : reviews ⊆ more) : AllowedIn more key := by
  obtain ⟨capability, hmem, hallowed⟩ := h
  exact ⟨capability, hsub hmem, hallowed⟩

variable {keys : List Key}

theorem reviewInOrder_allowed {answer : Nat → Key → Capability} :
    ∀ {index : Nat} {reviews : List (Key × Capability)},
      reviewInOrder answer index keys = (reviews, none) → ∀ key ∈ keys, AllowedIn reviews key := by
  induction keys with
  | nil => exact fun _ key hkey => absurd hkey List.not_mem_nil
  | cons key rest ih =>
    intro index reviews h
    unfold reviewInOrder at h
    dsimp only at h
    split at h
    · next hallowed =>
      obtain ⟨rfl, hfailed⟩ := Prod.mk.inj h
      have hrest : ∀ other ∈ rest,
          AllowedIn (reviewInOrder answer (index + 1) rest).1 other :=
        ih (Prod.ext rfl hfailed)
      refine List.forall_mem_cons.mpr ⟨⟨_, List.mem_cons_self, hallowed⟩, fun other hother => ?_⟩
      exact (hrest other hother).mono (List.subset_cons_self _ _)
    · exact absurd (Prod.mk.inj h).2 (by simp)

variable {finished : List (Nat × Capability)} {ctxErr : Option ReadError}

theorem verdict_eq_none : verdict finished ctxErr = none ↔
      (∀ entry ∈ finished, entry.2.decision = .DecisionAllowed) ∧ ctxErr = none := by
  unfold verdict
  constructor
  · intro h
    split at h
    · cases h
    · split at h
      · cases h
      · next hnone =>
        rw [List.find?_eq_none] at hnone
        exact ⟨fun entry hentry => by simpa using hnone entry hentry, Option.map_eq_none_iff.mp h⟩
  · rintro ⟨hall, rfl⟩
    have hdenied : finished.find? (fun entry => entry.2.decision = .DecisionDenied) = none :=
      List.find?_eq_none.mpr fun entry hentry => by simp [hall entry hentry]
    have hrefused : finished.find? (fun entry => entry.2.decision ≠ .DecisionAllowed) = none :=
      List.find?_eq_none.mpr fun entry hentry => by simp [hall entry hentry]
    rw [hdenied, hrefused]
    rfl

def AllAllowed (keys : List Key) (finished : List (Nat × Capability)) : Prop :=
  ∀ job < keys.length, ∃ capability, (job, capability) ∈ finished ∧
    capability.decision = .DecisionAllowed

theorem AllAllowed.allowedIn
    (h : AllAllowed keys finished) : ∀ key ∈ keys, AllowedIn (keyed keys finished) key := by
  intro key hkey
  obtain ⟨job, hjob, rfl⟩ := List.getElem_of_mem hkey
  obtain ⟨capability, hmem, hallowed⟩ := h job hjob
  refine ⟨capability, List.mem_filterMap.mpr ⟨(job, capability), hmem, ?_⟩, hallowed⟩
  rw [List.getElem?_eq_getElem hjob]
  rfl

theorem ConcurrentReview.verdict_iff (h : ConcurrentReview keys finished ctxErr) :
    verdict finished ctxErr = none ↔ AllAllowed keys finished ∧ ctxErr = none := by
  obtain ⟨actions, pool, hpool, hstopped, rfl, hctx⟩ := h
  have hinv := Pool.inv_of_runs hpool
  rw [verdict_eq_none]
  constructor
  · rintro ⟨hall, rfl⟩
    -- Neither the context nor a worker has canceled the others, so that no key was left out.
    have hquiet : ¬pool.Signalled := by
      rintro ⟨signal, hsignal⟩
      rcases hinv.raised signal hsignal with hexternal | ⟨entry, hentry, hafter⟩
      · obtain rfl : signal = .canceled := hexternal
        exact hctx hsignal rfl
      · have hallowed := hall entry hentry
        simp [reviewRules, hallowed] at hafter
    have hsome : (reviewRules keys).jobs ≠ 0 →
        Nonempty (Fin (min maximumConcurrentStreamAuthorizations keys.length)) := by
      intro hjobs
      have hlength : keys.length ≠ 0 := hjobs
      refine ⟨⟨0, ?_⟩⟩
      rw [maximumConcurrentStreamAuthorizations]
      omega
    refine ⟨fun job hjob => ?_, rfl⟩
    obtain ⟨entry, hentry, rfl⟩ :=
      List.mem_map.mp (hinv.all_finished hsome hstopped hquiet job hjob)
    exact ⟨entry.2, hentry, hall entry hentry⟩
  · rintro ⟨hall, rfl⟩
    refine ⟨fun entry hentry => ?_, rfl⟩
    -- A job is finished once, so its review is the one that allowed it.
    have hjob : entry.1 < keys.length := (hinv.finished entry hentry).1.trans_le hinv.next
    obtain ⟨capability, hmem, hallowed⟩ := hall entry.1 hjob
    have hsame := List.inj_on_of_nodup_map hinv.nodup hentry hmem rfl
    rw [hsame]
    exact hallowed

variable {namespaces : List String}

variable {values : List String}

theorem seenTopics_mem : ∀ {seen result : List Topic},
    seenTopics values seen = .ok result → seen ⊆ result ∧
      ∀ value ∈ values, ∃ topic ∈ result, topicOf value = some topic := by
  induction values with
  | nil =>
    intro seen result h
    obtain rfl := Except.ok.inj h
    exact ⟨List.Subset.refl _, fun value hvalue => absurd hvalue List.not_mem_nil⟩
  | cons value rest ih =>
    intro seen result h
    unfold seenTopics at h
    split at h
    · cases h
    · next topic htopic =>
      split at h
      · cases h
      · obtain ⟨hsub, hall⟩ := ih h
        obtain ⟨hmem, hseen⟩ := List.cons_subset.mp hsub
        exact ⟨hseen, List.forall_mem_cons.mpr ⟨⟨topic, hmem, htopic⟩, hall⟩⟩

variable {canonical : List Topic}

theorem ValidateTopics_mem (h : ValidateTopics values = .ok canonical) :
    ∀ value ∈ values, ∃ topic ∈ canonical, topicOf value = some topic := by
  unfold ValidateTopics at h
  split at h
  · cases h
  · obtain ⟨seen, hseen, h⟩ := except_bind_eq_ok h
    obtain rfl := Except.ok.inj h
    intro value hvalue
    obtain ⟨topic, htopic, hvalue⟩ := (seenTopics_mem hseen).2 value hvalue
    have horder : topic ∈ topicOrder := by cases topic <;> decide
    exact ⟨topic, List.mem_filter.mpr ⟨horder, decide_eq_true htopic⟩, hvalue⟩

def Granted (selection : StreamSelection) (topics : List String)
    (reviews : List (Key × Capability)) : Prop :=
  ∀ text ∈ topics, ∃ topic, topicOf text = some topic ∧ ∀ gvr ∈ topic.groupResources,
    (∀ verb ∈ streamVerbs, AllowedIn reviews (reviewKey selection.generation "" gvr verb)) ∨
      ∀ namespaceName ∈ selection.namespaces, ∀ verb ∈ streamVerbs,
        AllowedIn reviews (reviewKey selection.generation namespaceName gvr verb)

variable {reviews : List (Key × Capability)} {selection : StreamSelection} {topics : List String}

theorem granted_of_allowed (htopics : ValidateTopics topics = .ok canonical)
    (hnamespaces : namespaces = [""] ∨ namespaces = selection.namespaces)
    (hall : ∀ key ∈ reviewKeys selection.generation namespaces canonical,
      AllowedIn reviews key) : Granted selection topics reviews := by
  intro text htext
  obtain ⟨topic, htopic, hname⟩ := ValidateTopics_mem htopics text htext
  refine ⟨topic, hname, fun gvr hgvr => ?_⟩
  have hkeys : ∀ namespaceName ∈ namespaces, ∀ verb ∈ streamVerbs,
      AllowedIn reviews (reviewKey selection.generation namespaceName gvr verb) :=
    fun namespaceName hnamespace verb hverb =>
      hall _ (List.mem_flatMap.mpr ⟨topic, htopic, List.mem_flatMap.mpr ⟨gvr, hgvr,
        List.mem_flatMap.mpr ⟨namespaceName, hnamespace, List.mem_map_of_mem hverb⟩⟩⟩)
  rcases hnamespaces with rfl | rfl
  · exact .inl (hkeys "" List.mem_cons_self)
  · exact .inr hkeys

theorem AuthorizeTopics.granted {checker : Option (Nat → Key → Capability)}
    {result : Option ReadError} (h : AuthorizeTopics checker selection topics reviews result)
    (hnil : result = none) : Granted selection topics reviews := by
  cases h with
  | invalid _ => cases hnil
  | unavailable _ _ => cases hnil
  | incomplete _ _ _ => cases hnil
  | globally hready _ hprobe =>
    exact granted_of_allowed hready.topics (.inl rfl) (reviewInOrder_allowed hprobe)
  | probed hready _ _ hreview =>
    have hall := (hreview.verdict_iff.mp hnil).1.allowedIn
    exact granted_of_allowed hready.topics (.inr rfl) fun key hkey =>
      (hall key hkey).mono (List.subset_append_right _ _)
  | clusterWide hready _ hreview =>
    exact granted_of_allowed hready.topics (.inr rfl)
      (hreview.verdict_iff.mp hnil).1.allowedIn
  | inOrder hready _ _ hreview =>
    obtain rfl := Option.map_eq_none_iff.mp hnil
    exact granted_of_allowed hready.topics (.inr rfl) (reviewInOrder_allowed hreview)

/-- Nil is returned only for a grant, and from concurrent reviews exactly when all of them allow and
the context is live. -/
theorem authorizeTopics_sound :
    (∀ (checker : Option (Nat → Key → Capability)) (selection : StreamSelection)
      (topics : List String) (reviews : List (Key × Capability)),
      AuthorizeTopics checker selection topics reviews none →
        Granted selection topics reviews) ∧
    ∀ (keys : List Key) (finished : List (Nat × Capability)) (ctxErr : Option ReadError),
      ConcurrentReview keys finished ctxErr →
        (verdict finished ctxErr = none ↔ AllAllowed keys finished ∧ ctxErr = none) :=
  ⟨fun _ _ _ _ h => h.granted rfl, fun _ _ _ h => h.verdict_iff⟩

theorem clusterWide_reviewed : ConcurrentReview (reviewKeys "g1" [""] [.TopicPods])
    [(0, ⟨.DecisionAllowed, none⟩), (1, ⟨.DecisionAllowed, none⟩)] none := by
  let allowed : Capability := ⟨.DecisionAllowed, none⟩
  let actions : List (Pool.Action (Fin 2) Capability ReviewSignal) :=
    [.take 0, .take 1, .finish 0 allowed, .finish 1 allowed, .close, .stop 0, .stop 1]
  refine ⟨actions, ?_⟩
  apply runs_cons (.take rfl rfl (by decide))
  apply runs_cons (.take rfl rfl (by decide))
  apply runs_cons (.finish rfl trivial)
  apply runs_cons (.finish rfl trivial)
  apply runs_cons (.close (.inl rfl))
  apply runs_cons (.stop rfl (.inl rfl))
  apply runs_cons (.stop rfl (.inl rfl))
  refine ⟨_, .nil _, Fin.forall_fin_two.mpr ⟨rfl, rfl⟩, rfl, fun h => ?_⟩
  exact absurd h (by decide)

theorem authorizeTopics_sound_pods :
    (∃ reviews, AuthorizeTopics (some fun _ _ => ⟨.DecisionAllowed, none⟩) ⟨"g1", [""]⟩ ["pods"]
        reviews none ∧ Granted ⟨"g1", [""]⟩ ["pods"] reviews) ∧
      AllAllowed (reviewKeys "g1" [""] [.TopicPods])
        [(0, ⟨.DecisionAllowed, none⟩), (1, ⟨.DecisionAllowed, none⟩)] := by
  have hready : Reviewable (some fun _ _ => ⟨.DecisionAllowed, none⟩) ⟨"g1", [""]⟩ ["pods"]
      [.TopicPods] fun _ _ => ⟨.DecisionAllowed, none⟩ := ⟨by decide, rfl, by decide⟩
  have hauthorized := AuthorizeTopics.clusterWide hready rfl clusterWide_reviewed
  refine ⟨⟨_, hauthorized, authorizeTopics_sound.1 _ _ _ _ hauthorized⟩, ?_⟩
  exact ((authorizeTopics_sound.2 _ _ _ clusterWide_reviewed).mp rfl).1

end Kubepeep.Watch
