import Kubepeep.Dashboard.Blocks

/-!
# The coverage of the problem block

`PodService.Problems` (`internal/services/dashboard/pods.go`) joins two sources, the pods and the
events, which are collected over the same namespaces.  `mergeCoverage` takes the lower of the two
counts of completed namespaces.  That is at most the number of namespaces that both sources
completed exactly when one source completed all that the other did.
-/

open List

namespace Kubepeep.Dashboard

structure ListBudget where
  pageSize : Int
  maxItems : Int
  maxPages : Int

/-! ## One namespace -/

structure Page (T : Type) where
  items : List T
  continuation : String

/-- A list port and the context of its calls: what each page of a namespace is answered with, given
the page's number and its continuation, and the answer of `ctx.Err()` before it. -/
structure ListPort (T : Type) where
  ctxErr : String → Nat → Option Failure
  list : String → Nat → (limit : Int) → String → Except Failure (Page T)

structure Loaded (T : Type) where
  items : List T
  complete : Bool
  truncated : Bool
  err : Option Failure

section

variable {T : Type} (port : ListPort T) (budget : ListBudget)

/-- The loop of `loadPodNamespace` and of `EventService.loadNamespace`; the first argument is the
number of pages that are left. -/
def loadPages (namespaceName : String) (maximumItems : Int) :
    Nat → Nat → List T → String → Loaded T
  | 0, _, result, continuation => ⟨result, false, continuation ≠ "", none⟩
  | left + 1, page, result, continuation =>
    let remaining := maximumItems - result.length
    if remaining ≤ 0 then ⟨result, false, true, none⟩
    else
      match port.ctxErr namespaceName page with
      | some err => ⟨result, false, false, some err⟩
      | none =>
        match port.list namespaceName page budget.pageSize continuation with
        | .error err => ⟨result, false, false, some err⟩
        | .ok response =>
          if response.items.length > remaining then
            ⟨result ++ response.items.take remaining.toNat, false, true, none⟩
          else if response.continuation = "" then
            ⟨result ++ response.items, true, false, none⟩
          else
            loadPages namespaceName maximumItems left (page + 1) (result ++ response.items)
              response.continuation

def loadNamespace (namespaceName : String) (maximumItems : Int) : Loaded T :=
  loadPages port budget namespaceName maximumItems budget.maxPages.toNat 0 [] ""

/-! ## All namespaces -/

def addLoaded (block : DashboardBlockDTO (List T)) (namespaceName : String) (loaded : Loaded T) :
    DashboardBlockDTO (List T) :=
  let block := { block with value := block.value ++ loaded.items }
  match loaded.err with
  | some err => addBlockError block namespaceName err
  | none =>
    let block :=
      if loaded.complete then
        { block with
          coverage := { block.coverage with
            completedNamespaces := block.coverage.completedNamespaces + 1 } }
      else block
    if loaded.truncated then block.cut else block

/-- The loop of `loadPods` and of `loadEvents`. -/
def loadNamespaces : List String → DashboardBlockDTO (List T) → DashboardBlockDTO (List T)
  | [], block => block
  | namespaceName :: rest, block =>
    let remaining := budget.maxItems - block.value.length
    if remaining ≤ 0 then block.cut
    else
      loadNamespaces rest
        (addLoaded block namespaceName (loadNamespace port budget namespaceName remaining))

def loadSource (source : Option (ListPort T)) (selected : List String) :
    DashboardBlockDTO (List T) :=
  let namespaces := canonicalNamespaces selected
  let block := blockWithValue [] (emptyCoverage namespaces.length)
  match source with
  | none => addBlockError block "" NewFeatureUnavailableError
  | some port => loadNamespaces port budget namespaces block

end

/-! ## The block -/

/-- `corev1.Pod` with the fields it is sorted by; the rest is what the classification reads. -/
structure Pod (R : Type) where
  namespaceName : String
  name : String
  uid : String
  rest : R

def lessPod {R : Type} (left right : Pod R) : Bool :=
  if left.namespaceName ≠ right.namespaceName then left.namespaceName < right.namespaceName
  else if left.name ≠ right.name then left.name < right.name
  else left.uid < right.uid

/-- The service; `classify` is `ClassifyProblemPod` with the resolved owner at the captured time. -/
structure PodService (R E P : Type) where
  pods : Option (ListPort (Pod R))
  events : Option (ListPort E)
  budget : ListBudget
  classify : Pod R → List E → Option P
  sortProblems : List P → List P

def mergeCoverage (destination source : CoverageDTO) : CoverageDTO where
  requestedNamespaces :=
    if source.requestedNamespaces > destination.requestedNamespaces then
      source.requestedNamespaces
    else destination.requestedNamespaces
  completedNamespaces :=
    if source.completedNamespaces < destination.completedNamespaces then
      source.completedNamespaces
    else destination.completedNamespaces
  deniedNamespaces := source.deniedNamespaces.foldl appendUnique destination.deniedNamespaces
  failed := destination.failed ++ source.failed

section

variable {R E P : Type} (service : PodService R E P) (selected : List String)

def PodService.loadPods : DashboardBlockDTO (List (Pod R)) :=
  let block := loadSource service.budget service.pods selected
  { block with value := block.value.mergeSort fun left right => !lessPod right left }

def PodService.loadEvents : DashboardBlockDTO (List E) :=
  loadSource service.budget service.events selected

/-- `copyBlockState` from the pods, then `mergeBlockState` and `mergeCoverage` with the events. -/
def PodService.Problems : DashboardBlockDTO (List P) :=
  let pods := service.loadPods selected
  let events := service.loadEvents selected
  { value := service.sortProblems
      (pods.value.filterMap fun pod => service.classify pod events.value)
    complete := pods.complete && events.complete
    truncated := pods.truncated || events.truncated
    coverage := mergeCoverage pods.coverage events.coverage
    errors := pods.errors ++ events.errors }

end

/-! ## Completed namespaces -/

section

variable {T : Type} {port : ListPort T} {budget : ListBudget}

def Loaded.completed (loaded : Loaded T) : Bool := loaded.err.isNone && loaded.complete

def completedOf (port : ListPort T) (budget : ListBudget) : List String → Nat → List String
  | [], _ => []
  | namespaceName :: rest, used =>
    let remaining := budget.maxItems - used
    if remaining ≤ 0 then []
    else
      let loaded := loadNamespace port budget namespaceName remaining
      let later := completedOf port budget rest (used + loaded.items.length)
      if loaded.completed then namespaceName :: later else later

variable (block : DashboardBlockDTO (List T))

theorem addLoaded_value (namespaceName : String) (loaded : Loaded T) :
    (addLoaded block namespaceName loaded).value = block.value ++ loaded.items := by
  unfold addLoaded
  cases loaded.err with
  | some err => rfl
  | none =>
    dsimp only
    split <;> split <;> rfl

theorem addLoaded_completedNamespaces (namespaceName : String) (loaded : Loaded T) :
    (addLoaded block namespaceName loaded).coverage.completedNamespaces =
      block.coverage.completedNamespaces + if loaded.completed then 1 else 0 := by
  unfold addLoaded Loaded.completed
  cases loaded.err with
  | some err =>
    dsimp only [addBlockError]
    split <;> rfl
  | none => cases loaded.complete <;> cases loaded.truncated <;> rfl

variable {namespaces : List String}

theorem loadNamespaces_completedNamespaces :
    ∀ block : DashboardBlockDTO (List T),
      (loadNamespaces port budget namespaces block).coverage.completedNamespaces =
        block.coverage.completedNamespaces +
          (completedOf port budget namespaces block.value.length).length := by
  induction namespaces with
  | nil => exact fun _ => rfl
  | cons namespaceName rest ih =>
    intro block
    unfold loadNamespaces completedOf
    dsimp only
    split
    · rfl
    · rw [ih, addLoaded_completedNamespaces, addLoaded_value, length_append]
      split
      · rw [length_cons]
        omega
      · omega

theorem completedOf_sublist :
    ∀ used : Nat, (completedOf port budget namespaces used).Sublist namespaces := by
  induction namespaces with
  | nil => exact fun _ => .slnil
  | cons namespaceName rest ih =>
    intro used
    unfold completedOf
    dsimp only
    split
    · exact nil_sublist _
    · split
      · exact (ih _).cons_cons namespaceName
      · exact (ih _).cons namespaceName

theorem canonicalNamespaces_nodup (values : List String) : (canonicalNamespaces values).Nodup :=
  (mergeSort_perm _ _).nodup_iff.mpr (nodup_dedup _)

def completedBy (budget : ListBudget) (selected : List String) :
    Option (ListPort T) → Finset String
  | none => ∅
  | some port => (completedOf port budget (canonicalNamespaces selected) 0).toFinset

theorem loadSource_completedNamespaces (source : Option (ListPort T)) (selected : List String) :
    (loadSource budget source selected).coverage.completedNamespaces =
      (completedBy budget selected source).card := by
  cases source with
  | none => rfl
  | some port =>
    have hsublist : (completedOf port budget (canonicalNamespaces selected) 0).Sublist
        (canonicalNamespaces selected) := completedOf_sublist 0
    have hnodup := (canonicalNamespaces_nodup selected).sublist hsublist
    rw [completedBy, toFinset_card_of_nodup hnodup]
    exact (loadNamespaces_completedNamespaces _).trans (Nat.zero_add _)

end

theorem min_card_le_card_inter_iff {s t : Finset String} :
    min s.card t.card ≤ (s ∩ t).card ↔ s ⊆ t ∨ t ⊆ s := by
  constructor
  · intro h
    rcases min_le_iff.mp h with hs | ht
    · exact .inl (Finset.inter_eq_left.mp (Finset.eq_of_subset_of_card_le
        Finset.inter_subset_left hs))
    · exact .inr (Finset.inter_eq_right.mp (Finset.eq_of_subset_of_card_le
        Finset.inter_subset_right ht))
  · rintro (hs | ht)
    · rw [Finset.inter_eq_left.mpr hs]
      exact min_le_left _ _
    · rw [Finset.inter_eq_right.mpr ht]
      exact min_le_right _ _

theorem mergeCoverage_completedNamespaces (destination source : CoverageDTO) :
    (mergeCoverage destination source).completedNamespaces =
      min destination.completedNamespaces source.completedNamespaces := by
  unfold mergeCoverage
  dsimp only
  split <;> omega

/-- The reported count keeps to the namespaces that both sources completed exactly if one of the
sources completed all that the other did. -/
theorem problems_completed_iff {R E P : Type} (service : PodService R E P)
    (selected : List String) :
    (service.Problems selected).coverage.completedNamespaces ≤
        (completedBy service.budget selected service.pods ∩
          completedBy service.budget selected service.events).card ↔
      completedBy service.budget selected service.pods ⊆
          completedBy service.budget selected service.events ∨
        completedBy service.budget selected service.events ⊆
          completedBy service.budget selected service.pods := by
  rw [← min_card_le_card_inter_iff, ← loadSource_completedNamespaces,
    ← loadSource_completedNamespaces]
  show (mergeCoverage _ _).completedNamespaces ≤ _ ↔ _
  rw [mergeCoverage_completedNamespaces]
  rfl

def answersOnly (T : Type) (namespaceName : String) : ListPort T where
  ctxErr _ _ := none
  list requested _ _ _ := if requested = namespaceName then .ok ⟨[], ""⟩ else .error .other

def crossedService : PodService Unit Unit Unit where
  pods := some (answersOnly _ "a")
  events := some (answersOnly _ "b")
  budget := ⟨100, 5000, 50⟩
  classify _ _ := none
  sortProblems problems := problems

theorem canonicalNamespaces_pair : canonicalNamespaces ["a", "b"] = ["a", "b"] := by
  have hsorted : (["a", "b"] : List String).mergeSort (· ≤ ·) = ["a", "b"] :=
    mergeSort_of_pairwise (by decide)
  rw [canonicalNamespaces, show ((["a", "b"] : List String).filter (· ≠ "")).dedup = ["a", "b"] by
    decide, hsorted]

/-- No namespace is completed by both, and one is reported. -/
theorem problems_completed_crossed :
    (crossedService.Problems ["a", "b"]).coverage.completedNamespaces = 1 ∧
      (completedBy crossedService.budget ["a", "b"] crossedService.pods ∩
        completedBy crossedService.budget ["a", "b"] crossedService.events).card = 0 := by
  constructor
  · show (mergeCoverage (loadSource _ _ _).coverage (loadSource _ _ _).coverage).completedNamespaces
      = 1
    rw [mergeCoverage_completedNamespaces, loadSource_completedNamespaces,
      loadSource_completedNamespaces]
    unfold crossedService completedBy
    rw [canonicalNamespaces_pair]
    decide
  · unfold crossedService completedBy
    rw [canonicalNamespaces_pair]
    decide

end Kubepeep.Dashboard
