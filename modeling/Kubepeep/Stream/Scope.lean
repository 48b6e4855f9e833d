import Kubepeep.Watch.Types

/-!
# The scope of a stream session

`filterScopedEvent` (`internal/api/handlers/resources_stream_session.go`).  A cluster-wide watch may
feed a session of a few namespaces; the filter keeps what belongs to them.
-/

open List Kubepeep.Watch

namespace Kubepeep.Stream

section

variable {B : Type}

/-- The switch names seven of the eight families, and none of the pointers. -/
def topicObjectNamespace (object : TopicObject B) : String :=
  if object.pointer then
    ""
  else
    match object.dto with
    | .PodDTO pod => pod.namespaceName
    | .EventDTO event => event.namespaceName
    | .WorkloadDTO _ workload => workload.namespaceName
    | .ServiceDTO service => service.namespaceName
    | .IngressDTO ingress => ingress.namespaceName
    | .EndpointSliceDTO slice => slice.namespaceName
    | .ConfigMapListDTO configMap => configMap.namespaceName
    | .PersistentVolumeClaimDTO _ => ""

/-- `none` is a nil map: the session has the scope of its watches. -/
def filterScopedEvent (allowedNamespaces : Option (List String)) (event : StreamEvent B) :
    StreamEvent B × Bool :=
  match allowedNamespaces with
  | none => (event, true)
  | some allowed =>
    if event.object.any fun object => !allowed.contains (topicObjectNamespace object) then
      (event, false)
    else if event.deleted.any fun ref => !allowed.contains ref.namespaceName then
      (event, false)
    else if (event.event = .added ∨ event.event = .modified) ∧ event.object = none then
      (event, false)
    else if event.event = .deleted ∧ event.deleted = none then
      (event, false)
    else if event.items.length > 0 then
      ({ event with
        items := event.items.filter fun item => allowed.contains (topicObjectNamespace item) },
        true)
    else
      (event, true)

/-! ## What the filter is for -/

def Shaped (event : StreamEvent B) : Prop :=
  match event.event with
  | .added | .modified => event.object.isSome ∧ event.deleted = none ∧ event.items = []
  | .deleted => event.deleted.isSome ∧ event.object = none ∧ event.items = []
  | .snapshot | .progress => event.object = none ∧ event.deleted = none
  | _ => event.object = none ∧ event.deleted = none ∧ event.items = []

/-- Keep a change if its object is in scope, and of a snapshot the items in scope. -/
def scopedTo (allowed : List String) (event : StreamEvent B) : StreamEvent B × Bool :=
  match event.event with
  | .added | .modified =>
    (event, event.object.all fun object => allowed.contains object.dto.namespaceName)
  | .deleted => (event, event.deleted.all fun ref => allowed.contains ref.namespaceName)
  | _ =>
    ({ event with items := event.items.filter fun item => allowed.contains item.dto.namespaceName },
      true)

def Projected (object : TopicObject B) : Prop :=
  object.pointer = false ∧ ∀ claim, object.dto ≠ .PersistentVolumeClaimDTO claim

variable {object : TopicObject B}

theorem topicObjectNamespace_of_projected (h : Projected object) :
    topicObjectNamespace object = object.dto.namespaceName := by
  obtain ⟨hvalue, hclaim⟩ := h
  unfold topicObjectNamespace DTO.namespaceName
  rw [hvalue]
  cases hdto : object.dto with
  | PersistentVolumeClaimDTO claim => exact absurd hdto (hclaim claim)
  | _ => rfl

theorem topicObjectNamespace_of_not_projected (h : ¬ Projected object) :
    topicObjectNamespace object = "" := by
  unfold topicObjectNamespace
  by_cases hpointer : object.pointer = true
  · rw [if_pos hpointer]
  rw [if_neg hpointer]
  cases hdto : object.dto with
  | PersistentVolumeClaimDTO claim => rfl
  | _ => exact absurd ⟨by simpa using hpointer, fun claim hclaim => by simp [hdto] at hclaim⟩ h

/-- The namespace is read off the object, or it makes no difference. -/
def Locatable (allowed : List String) (object : TopicObject B) : Prop :=
  Projected object ∨ (object.dto.namespaceName ∈ allowed ↔ "" ∈ allowed)

variable {allowed : List String}

theorem locatable_iff : Locatable allowed object ↔
      allowed.contains (topicObjectNamespace object) =
        allowed.contains object.dto.namespaceName := by
  unfold Locatable
  by_cases h : Projected object
  · simp [h, topicObjectNamespace_of_projected h]
  · rw [topicObjectNamespace_of_not_projected h, Bool.eq_iff_iff, contains_iff_mem,
      contains_iff_mem, or_iff_right h]
    exact iff_comm

theorem filter_eq_filter_iff {α : Type} {p q : α → Bool} {items : List α} :
    items.filter p = items.filter q ↔ ∀ item ∈ items, p item = q item := by
  constructor
  · intro h item hitem
    have hmem : item ∈ items.filter p ↔ item ∈ items.filter q := by rw [h]
    rw [mem_filter, mem_filter, and_iff_right hitem, and_iff_right hitem] at hmem
    exact Bool.eq_iff_iff.mpr hmem
  · exact filter_congr

def carried (event : StreamEvent B) : List (TopicObject B) :=
  event.items ++ event.object.toList

variable {event : StreamEvent B}

theorem filterScopedEvent_items (hobject : event.object = none) (hdeleted : event.deleted = none)
    (hevent : event.event ≠ .added ∧ event.event ≠ .modified ∧ event.event ≠ .deleted) :
    filterScopedEvent (some allowed) event =
      ({ event with
        items := event.items.filter fun item => allowed.contains (topicObjectNamespace item) },
        true) := by
  unfold filterScopedEvent
  dsimp only
  rw [if_neg (by simp [hobject]), if_neg (by simp [hdeleted]), if_neg (by simp [hevent]),
    if_neg (by simp [hevent])]
  by_cases hitems : event.items.length > 0
  · rw [if_pos hitems]
  · have hnil : event.items = [] := by simpa using hitems
    rw [if_neg hitems, hnil, filter_nil, ← hnil]

theorem filterScopedEvent_object
    (hobject : event.object = some object) (hdeleted : event.deleted = none)
    (hitems : event.items = []) (hevent : event.event ≠ .deleted) :
    filterScopedEvent (some allowed) event =
      (event, allowed.contains (topicObjectNamespace object)) := by
  unfold filterScopedEvent
  dsimp only
  by_cases hallowed : allowed.contains (topicObjectNamespace object) = true
  · rw [if_neg (by simpa [hobject] using hallowed), if_neg (by simp [hdeleted]),
      if_neg (by simp [hobject]), if_neg (by simp [hevent]), if_neg (by simp [hitems]), hallowed]
  · rw [if_pos (by simpa [hobject] using hallowed), Bool.eq_false_iff.mpr hallowed]

theorem scoped_items_iff (hobject : event.object = none) (hdeleted : event.deleted = none)
    (hevent : event.event ≠ .added ∧ event.event ≠ .modified ∧ event.event ≠ .deleted) :
    filterScopedEvent (some allowed) event = scopedTo allowed event ↔
      ∀ object ∈ carried event, Locatable allowed object := by
  have hscoped : scopedTo allowed event = ({ event with
      items := event.items.filter fun item => allowed.contains item.dto.namespaceName }, true) := by
    unfold scopedTo
    split <;> simp_all
  rw [filterScopedEvent_items hobject hdeleted hevent, hscoped, Prod.mk.injEq,
    StreamEvent.mk.injEq]
  simp only [true_and, and_true, filter_eq_filter_iff, carried, hobject, Option.toList_none,
    List.append_nil, locatable_iff]

theorem scoped_object_iff (hobject : event.object = some object)
    (hdeleted : event.deleted = none) (hnil : event.items = [])
    (hevent : event.event = .added ∨ event.event = .modified) :
    filterScopedEvent (some allowed) event = scopedTo allowed event ↔
      ∀ object ∈ carried event, Locatable allowed object := by
  have hscoped : scopedTo allowed event = (event, allowed.contains object.dto.namespaceName) := by
    unfold scopedTo
    rcases hevent with hevent | hevent <;> simp [hevent, hobject]
  rw [filterScopedEvent_object hobject hdeleted hnil
    (by rcases hevent with hevent | hevent <;> simp [hevent]), hscoped]
  simp [carried, hobject, hnil, locatable_iff]

theorem filterScopedEvent_scoped (h : Shaped event) :
    filterScopedEvent (some allowed) event = scopedTo allowed event ↔
      ∀ object ∈ carried event, Locatable allowed object := by
  unfold Shaped at h
  cases hevent : event.event with
  | added =>
    rw [hevent] at h
    obtain ⟨object, hobject⟩ := Option.isSome_iff_exists.mp h.1
    exact scoped_object_iff hobject h.2.1 h.2.2 (.inl hevent)
  | modified =>
    rw [hevent] at h
    obtain ⟨object, hobject⟩ := Option.isSome_iff_exists.mp h.1
    exact scoped_object_iff hobject h.2.1 h.2.2 (.inr hevent)
  | deleted =>
    -- A deletion names its namespace itself, so the switch is not used.
    rw [hevent] at h
    obtain ⟨ref, href⟩ := Option.isSome_iff_exists.mp h.1
    have hcarried : carried event = [] := by simp [carried, h.2.1, h.2.2]
    rw [hcarried]
    unfold filterScopedEvent scopedTo
    by_cases hallowed : ref.namespaceName ∈ allowed <;> simp [hevent, h.2.1, h.2.2, href, hallowed]
  | _ =>
    rw [hevent] at h
    exact scoped_items_iff h.1 (by simp_all) (by simp [hevent])

/-- For every event of a source: the filter keeps what is in scope exactly if each object it carries
is a value of a family with a case in the switch, or is in scope just when `""` is. -/
theorem filterScopedEvent_eq_scopedTo_iff (allowed : List String) (event : StreamEvent B)
    (h : Shaped event) :
    filterScopedEvent (some allowed) event = scopedTo allowed event ↔
      ∀ object ∈ carried event, Locatable allowed object :=
  filterScopedEvent_scoped h

end

def claimAdded : StreamEvent Unit :=
  { event := .added, topic := .TopicPVCs, generation := "generation"
    object := some ⟨.PersistentVolumeClaimDTO ⟨"shop", "data", ()⟩, false⟩ }

/-- The addition is dropped although its namespace is allowed. -/
theorem filterScopedEvent_drops_claim :
    Shaped claimAdded ∧ scopedTo ["shop"] claimAdded = (claimAdded, true) ∧
      filterScopedEvent (some ["shop"]) claimAdded = (claimAdded, false) := by
  refine ⟨⟨rfl, rfl, rfl⟩, ?_, ?_⟩ <;> decide

def podSnapshot : StreamEvent Unit :=
  { event := .snapshot, topic := .TopicPods, generation := "generation", chunk := 2, final := true
    items := [⟨.PodDTO ⟨"bank", "api", ()⟩, false⟩, ⟨.PodDTO ⟨"shop", "api", ()⟩, false⟩] }

theorem filterScopedEvent_pods :
    filterScopedEvent (some ["shop"]) podSnapshot = scopedTo ["shop"] podSnapshot ∧
      (scopedTo ["shop"] podSnapshot).1.items = [⟨.PodDTO ⟨"shop", "api", ()⟩, false⟩] := by
  refine ⟨(filterScopedEvent_eq_scopedTo_iff ["shop"] podSnapshot ⟨rfl, rfl⟩).mpr ?_, by decide⟩
  intro object hobject
  rcases mem_pair.mp hobject with rfl | rfl <;> exact .inl ⟨rfl, nofun⟩

end Kubepeep.Stream
