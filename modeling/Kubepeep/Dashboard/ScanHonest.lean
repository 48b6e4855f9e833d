import Kubepeep.Dashboard.Scan
import Kubepeep.Lib.Effect

/-!
# Complete scans

A scan that reports itself complete has read every log whole: no target was left out, every pod was
allowed, and every line of every log was examined uncut.  The one assumption is that pods are told
apart by their key, a namespace and a name with a NUL between them, as they are when names contain
no NUL.
-/

open Except Option List Kubepeep.Go.Bufio Kubepeep.Logs Kubepeep.System

namespace Kubepeep.Dashboard

/-! ## Selection -/

variable {targets : List ScanTarget} {maximumPods maximumContainers : Int}

theorem selectTargets_whole :
    ∀ {selected : List ScanTarget} {pods : List String} {seen : List TargetKey} {truncated : Bool},
    (selectTargets maximumPods maximumContainers targets selected pods seen truncated).2 = false →
    truncated = false ∧ ∃ more, (selectTargets maximumPods maximumContainers targets selected pods
        seen truncated).1 = selected ++ more ∧ (∀ target ∈ more, target ∈ targets) ∧
      ∀ target ∈ targets, target.key ∈ seen ∨ ∃ other ∈ more, other.key = target.key := by
  induction targets with
  | nil => exact fun h => ⟨h, [], (append_nil _).symm, by simp, by simp⟩
  | cons target targets ih =>
    intro selected pods seen truncated h
    unfold selectTargets at h ⊢
    split at h
    · exact absurd (ih h).1 (by simp)
    · next hnamed =>
      rw [if_neg hnamed]
      split at h
      · next hseen =>
        rw [if_pos hseen]
        obtain ⟨htruncated, more, hmore, hmem, hall⟩ := ih h
        refine ⟨htruncated, more, hmore, fun t ht => mem_cons_of_mem _ (hmem t ht), ?_⟩
        exact forall_mem_cons.mpr ⟨.inl hseen, hall⟩
      · next hnew =>
        rw [if_neg hnew]
        split at h
        · exact absurd (ih h).1 (by simp)
        · next hpods =>
          rw [if_neg hpods]
          split at h
          · cases h
          · next hroom =>
            rw [if_neg hroom]
            obtain ⟨htruncated, more, hmore, hmem, hall⟩ := ih h
            refine ⟨htruncated, target :: more, ?_, ?_, ?_⟩
            · rw [hmore, append_assoc]
              rfl
            · exact forall_mem_cons.mpr ⟨mem_cons_self,
                fun t ht => mem_cons_of_mem _ (hmem t ht)⟩
            · refine forall_mem_cons.mpr ⟨.inr ⟨target, mem_cons_self, rfl⟩,
                fun t ht => ?_⟩
              rcases hall t ht with hkey | ⟨other, hother, hkey⟩
              · rcases mem_cons.mp hkey with hthis | hseen
                · exact .inr ⟨target, mem_cons_self, hthis.symm⟩
                · exact .inl hseen
              · exact .inr ⟨other, mem_cons_of_mem _ hother, hkey⟩

theorem limitExplicitTargets_whole
    (h : (limitExplicitTargets targets maximumPods maximumContainers).2 = false) :
    (∀ target ∈ (limitExplicitTargets targets maximumPods maximumContainers).1,
        target ∈ targets) ∧
      ∀ target ∈ targets, ∃ other ∈
        (limitExplicitTargets targets maximumPods maximumContainers).1,
        other.key = target.key := by
  obtain ⟨_, more, hmore, hmem, hall⟩ := selectTargets_whole h
  have hlimited : (limitExplicitTargets targets maximumPods maximumContainers).1 = more :=
    hmore.trans (nil_append more)
  rw [hlimited]
  refine ⟨fun target htarget => mem_mergeSort.mp (hmem target htarget), ?_⟩
  intro target htarget
  rcases hall target (mem_mergeSort.mpr htarget) with hseen | hother
  · exact absurd hseen not_mem_nil
  · exact hother

/-! ## Authorization -/

section

variable {service : ScanService} {ctxErr : Nat → Option Failure}

structure Trusted (service : ScanService) (seen : List ScanTarget) (state : Reviewed) : Prop where
  failed : state.block.complete = true → ∀ key, state.failed key = false
  decisions : state.block.complete = true → ∀ key decision, state.decisions key = some decision →
    ∃ target ∈ seen, target.podKey = key ∧
      service.canReadPodLogs target.namespaceName target.pod = .ok decision

def AllowedBy (service : ScanService) (seen : List ScanTarget) (target : ScanTarget) : Prop :=
  ∃ other ∈ seen, other.podKey = target.podKey ∧
    service.canReadPodLogs other.namespaceName other.pod = .ok .allowed

variable {target : ScanTarget} {state : Reviewed} {decision : PermissionDecision}

theorem settleTarget_complete (h : (settleTarget state target decision).block.complete = true)
    (hfailed : state.failed target.podKey = false) :
    decision = .allowed ∧
      settleTarget state target decision = { state with allowed := state.allowed ++ [target] } := by
  unfold settleTarget at h ⊢
  rw [hfailed] at h ⊢
  cases decision with
  | allowed => exact ⟨rfl, rfl⟩
  | denied => exact absurd h (by simp)
  | unknown => exact absurd h (by simp)
  | other => exact absurd h (by simp)

theorem settleTarget_mono (h : (settleTarget state target decision).block.complete = true) :
    state.block.complete = true := by
  unfold settleTarget at h
  split at h
  · exact h
  · cases decision with
    | allowed => exact h
    | denied => exact absurd h (by simp)
    | unknown => exact absurd h (by simp)
    | other => exact absurd h (by simp)

theorem reviewTarget_complete {seen : List ScanTarget} (htrusted : Trusted service seen state)
    (h : (reviewTarget service state target).block.complete = true) :
    state.block.complete = true ∧ AllowedBy service (seen ++ [target]) target ∧
      (reviewTarget service state target).allowed = state.allowed ++ [target] ∧
      Trusted service (seen ++ [target]) (reviewTarget service state target) := by
  have hgrows : ∀ {key : String} {decision : PermissionDecision}, (∃ other ∈ seen,
      other.podKey = key ∧ service.canReadPodLogs other.namespaceName other.pod = .ok decision) →
      ∃ other ∈ seen ++ [target], other.podKey = key ∧
        service.canReadPodLogs other.namespaceName other.pod = .ok decision :=
    fun ⟨other, hother, hfacts⟩ => ⟨other, mem_append_left _ hother, hfacts⟩
  unfold reviewTarget at h ⊢
  cases hknown : state.decisions target.podKey with
  | some decision =>
    rw [hknown] at h
    have hcomplete := settleTarget_mono h
    obtain ⟨rfl, hsettled⟩ :=
      settleTarget_complete h (htrusted.failed hcomplete target.podKey)
    have hallowed := hgrows (htrusted.decisions hcomplete _ _ hknown)
    dsimp only
    rw [hsettled]
    exact ⟨hcomplete, hallowed, rfl, htrusted.failed,
      fun hc key decision hkey => hgrows (htrusted.decisions hc key decision hkey)⟩
  | none =>
    rw [hknown] at h
    cases hreview : service.canReadPodLogs target.namespaceName target.pod with
    | error err =>
      rw [hreview] at h
      exact absurd h (by simp)
    | ok decision =>
      rw [hreview] at h
      have hcomplete : state.block.complete = true := (settleTarget_mono h :)
      obtain ⟨rfl, hsettled⟩ :=
        settleTarget_complete h (htrusted.failed hcomplete target.podKey)
      have hthis : AllowedBy service (seen ++ [target]) target :=
        ⟨target, mem_append_right _ mem_cons_self, rfl, hreview⟩
      dsimp only
      rw [hsettled]
      refine ⟨hcomplete, hthis, rfl, htrusted.failed, fun hc key decision hkey => ?_⟩
      rcases update_cases state.decisions (· = some decision) hkey with ⟨rfl, hsame⟩ | ⟨_, hold⟩
      · obtain rfl := some.inj hsame
        exact hthis
      · exact hgrows (htrusted.decisions hc key decision hold)

theorem authorizeTargets_complete {targets : List ScanTarget} : ∀ {index : Nat}
    {seen : List ScanTarget} {state : Reviewed}, Trusted service seen state →
    (authorizeTargets service ctxErr index targets state).block.complete = true →
    state.block.complete = true ∧
      (authorizeTargets service ctxErr index targets state).allowed = state.allowed ++ targets ∧
      ∀ target ∈ targets, AllowedBy service (seen ++ targets) target := by
  induction targets with
  | nil => exact fun _ h => ⟨h, (append_nil _).symm, by simp⟩
  | cons target targets ih =>
    intro index seen state htrusted h
    unfold authorizeTargets at h ⊢
    cases hctx : ctxErr index with
    | some err =>
      rw [hctx] at h
      exact absurd h (by simp)
    | none =>
      rw [hctx] at h
      have htrusted' : Trusted service (seen ++ [target]) (reviewTarget service state target) :=
        ⟨fun hc => (reviewTarget_complete htrusted hc).2.2.2.failed hc,
          fun hc => (reviewTarget_complete htrusted hc).2.2.2.decisions hc⟩
      obtain ⟨hreviewed, hallowed, hall⟩ := ih htrusted' h
      obtain ⟨hcomplete, hthis, happended, _⟩ := reviewTarget_complete htrusted hreviewed
      rw [append_assoc, singleton_append] at hall
      refine ⟨hcomplete, ?_, forall_mem_cons.mpr ⟨?_, hall⟩⟩
      · rw [hallowed, happended, append_assoc]
        rfl
      · obtain ⟨other, hother, hfacts⟩ := hthis
        have hmem : other ∈ (seen ++ [target]) ++ targets := mem_append_left _ hother
        rw [append_assoc] at hmem
        exact ⟨other, hmem, hfacts⟩

end

/-! ## Results -/

section

variable {service : ScanService} {allowed : List ScanTarget}

theorem addResult_complete {state : Block × (String → Nat)} {entry : Nat × TargetScanResult}
    (h : (addResult allowed state entry).1.complete = true) :
    state.1.complete = true ∧ entry.2.err = none ∧ entry.2.truncated = false ∧
      (addResult allowed state entry).1.value = state.1.value ++ entry.2.matched := by
  unfold addResult at h ⊢
  cases herr : entry.2.err with
  | some err =>
    rw [herr] at h
    exact absurd h (by simp)
  | none =>
    rw [herr] at h
    cases htruncated : entry.2.truncated with
    | true =>
      rw [htruncated] at h
      exact absurd h (by simp [DashboardBlockDTO.cut])
    | false =>
      rw [htruncated] at h
      exact ⟨h, rfl, rfl, rfl⟩

variable {ordered : List (Nat × TargetScanResult)}

theorem addResults_complete : ∀ {state : Block × (String → Nat)},
    (ordered.foldl (addResult allowed) state).1.complete = true →
    state.1.complete = true ∧
      (∀ entry ∈ ordered, entry.2.err = none ∧ entry.2.truncated = false) ∧
      (ordered.foldl (addResult allowed) state).1.value =
        state.1.value ++ ordered.flatMap (·.2.matched) := by
  induction ordered with
  | nil => exact fun h => ⟨h, by simp, by simp⟩
  | cons entry ordered ih =>
    intro state h
    obtain ⟨hcomplete, hall, hvalue⟩ := ih h
    obtain ⟨hstate, herr, htruncated, hthis⟩ := addResult_complete hcomplete
    refine ⟨hstate, forall_mem_cons.mpr ⟨⟨herr, htruncated⟩, hall⟩, ?_⟩
    rw [foldl_cons, hvalue, hthis, flatMap_cons, append_assoc]

theorem capMatches_whole {maximum : Int} {values : List LogMatchDTO} :
    ∀ {result : List LogMatchDTO} {used : Int},
    (capMatches service maximum values result used).2 = false →
    (capMatches service maximum values result used).1 = result ++ values := by
  induction values with
  | nil => exact fun _ => (append_nil _).symm
  | cons value values ih =>
    intro result used h
    unfold capMatches at h ⊢
    cases hsize : service.encodedSize value with
    | none =>
      rw [hsize] at h
      cases h
    | some size =>
      rw [hsize] at h
      dsimp only at h ⊢
      generalize (if result.length > 0 then (1 : Int) else 0) = separator at h ⊢
      split at h
      · cases h
      · next hroom =>
        rw [if_neg hroom, ih h, append_assoc]
        rfl

variable {block : Block}

theorem capOutput_complete (h : (capOutput service block).complete = true) :
    block.complete = true ∧ (capOutput service block).value = block.value := by
  unfold capOutput at h ⊢
  cases hcap : capSerializedMatches service block.value service.budget.maxScanBytes with
  | mk value outputTruncated =>
    rw [hcap] at h
    cases outputTruncated with
    | true => exact absurd h (by simp [DashboardBlockDTO.cut])
    | false =>
      have hwhole : (capSerializedMatches service block.value service.budget.maxScanBytes).2 =
          false := by rw [hcap]
      have hvalue := capMatches_whole hwhole
      rw [nil_append] at hvalue
      refine ⟨h, ?_⟩
      show value = block.value
      rw [← hvalue]
      exact (congrArg Prod.fst hcap).symm

variable {ctxErr : Option Failure}

theorem noteContext_complete {missing : Bool}
    (h : (noteContext missing ctxErr block).complete = true) :
    (missing = true → ctxErr = none) ∧ noteContext missing ctxErr block = block := by
  unfold noteContext at h ⊢
  cases ctxErr with
  | none => exact ⟨fun _ => rfl, rfl⟩
  | some err =>
    cases missing with
    | true => exact absurd h (by simp)
    | false => exact ⟨fun h => absurd h Bool.false_ne_true, rfl⟩

theorem noteBudget_complete {exhausted missing : Bool}
    (h : (noteBudget exhausted missing ctxErr block).complete = true) :
    exhausted = false ∧ (missing = true → ctxErr ≠ none) ∧
      noteBudget exhausted missing ctxErr block = block := by
  unfold noteBudget at h ⊢
  split at h
  · exact absurd h (by simp [DashboardBlockDTO.cut])
  · next hquiet =>
    rw [Bool.or_eq_true, not_or, Bool.not_eq_true, Bool.and_eq_true] at hquiet
    refine ⟨hquiet.1, fun hmissing hnone => hquiet.2 ⟨hmissing, by rw [hnone]; rfl⟩, ?_⟩
    rw [if_neg (by simpa using hquiet)]

theorem finishScan_complete {namespaces : List String} {selectionTruncated exhausted : Bool}
    {ctxErr laterCtxErr : Option Failure}
    (h : (finishScan service namespaces selectionTruncated allowed block ordered exhausted ctxErr
      laterCtxErr).complete = true) :
    block.complete = true ∧ exhausted = false ∧
      (ordered.length < allowed.length → ctxErr = none ∧ laterCtxErr ≠ none) ∧
      (∀ entry ∈ ordered, entry.2.err = none ∧ entry.2.truncated = false) ∧
      (finishScan service namespaces selectionTruncated allowed block ordered exhausted ctxErr
        laterCtxErr).value = block.value ++ ordered.flatMap (·.2.matched) := by
  unfold finishScan at h ⊢
  obtain ⟨hcovered, hvalue⟩ := capOutput_complete h
  rw [hvalue]
  obtain ⟨hexhausted, hmissing, hbudget⟩ := noteBudget_complete hcovered
  rw [addCoverage, hbudget] at hcovered
  obtain ⟨hcontext, hsame⟩ := noteContext_complete hcovered
  rw [hsame] at hcovered
  obtain ⟨hcomplete, hwhole, hmatches⟩ := addResults_complete hcovered
  refine ⟨hcomplete, hexhausted, fun hless => ⟨hcontext (decide_eq_true hless),
    hmissing (decide_eq_true hless)⟩, hwhole, ?_⟩
  show (noteBudget exhausted _ laterCtxErr (noteContext _ ctxErr _)).value = _
  rw [hbudget, hsame, hmatches]

def examineLog (service : ScanService) (request : ResolvedLogScanRequest) (target : ScanTarget) :
    List LogMatchDTO :=
  examine service target ((logLines (service.log (readRequest request target))).map wholeLine)

variable {request : ResolvedLogScanRequest}

theorem Outcome.whole {target : ScanTarget}
    {result : TargetScanResult} (h : Outcome service request target result)
    (herr : result.err = none) (htruncated : result.truncated = false) :
    result.matched = examineLog service request target := by
  obtain ⟨run, hdelivers, hscan⟩ := h
  unfold scanOne at hscan
  split at hscan
  · rw [← some.inj hscan] at htruncated
    cases htruncated
  · cases hopened : run.opened with
    | error err =>
      rw [hopened] at hscan
      rw [← some.inj hscan] at herr
      cases herr
    | ok source =>
      rw [hopened] at hscan
      obtain ⟨lines, hlines, hscan⟩ := bind_eq_some_iff.mp hscan
      cases hfailed : lines.err with
      | some err =>
        rw [hfailed] at hscan
        rw [← some.inj hscan] at herr
        cases herr
      | none =>
        rw [hfailed] at hscan
        rw [← some.inj hscan] at htruncated ⊢
        obtain ⟨heof, hwhole⟩ := readBoundedLogLines_whole hlines htruncated hfailed
        have hlog := (hdelivers source hopened).2 heof
        show examine service target lines.lines = _
        rw [hwhole, hlog]
        rfl

theorem resolveField_pos {value : Option Int} {default maximum result : Int} {message : String}
    (hdefault : 0 < default) (h : resolveField value default maximum message = .ok result) :
    0 < result := by
  unfold resolveField at h
  cases value with
  | none => exact ok.inj h ▸ hdefault
  | some value =>
    dsimp only at h
    split at h
    · cases h
    · rw [← ok.inj h]
      omega

theorem ResolveLogScanRequest_workers {request : LogScanRequest}
    {resolved : ResolvedLogScanRequest} (h : ResolveLogScanRequest request = .ok resolved) :
    0 < resolved.maxConcurrentContainers := by
  unfold ResolveLogScanRequest at h
  obtain ⟨window, _, h⟩ := except_bind_eq_ok h
  obtain ⟨tailLines, _, h⟩ := except_bind_eq_ok h
  obtain ⟨maxPods, _, h⟩ := except_bind_eq_ok h
  obtain ⟨workers, hworkers, h⟩ := except_bind_eq_ok h
  rw [← ok.inj h]
  exact resolveField_pos (by decide) hworkers

theorem ordered_indices {n : Nat} {finished : List (Nat × TargetScanResult)}
    (h : (finished.map Prod.fst).Perm (range n)) :
    (finished.mergeSort fun left right => left.1 ≤ right.1).map Prod.fst = range n := by
  have hsorted : (finished.mergeSort fun left right => left.1 ≤ right.1).Pairwise
      fun left right => decide (left.1 ≤ right.1) = true :=
    pairwise_mergeSort (by simp only [decide_eq_true_eq]; omega)
      (by simp only [Bool.or_eq_true, decide_eq_true_eq]; omega) finished
  have hpairs : ((finished.mergeSort fun left right => left.1 ≤ right.1).map Prod.fst).Pairwise
      (· ≤ ·) := pairwise_map.mpr (hsorted.imp fun hle => of_decide_eq_true hle)
  have hrange : (range n).Pairwise (· ≤ ·) :=
    pairwise_lt_range.imp fun hlt => Nat.le_of_lt hlt
  have hperm := ((mergeSort_perm finished fun left right => left.1 ≤ right.1).map
    Prod.fst).trans h
  exact hperm.eq_of_pairwise (fun _ _ _ _ hle hge => Nat.le_antisymm hle hge) hpairs hrange

theorem ordered_matches (hindices : ordered.map Prod.fst = range allowed.length)
    (houtcome : ∀ entry ∈ ordered, ∃ target, allowed[entry.1]? = some target ∧
      Outcome service request target entry.2)
    (hwhole : ∀ entry ∈ ordered, entry.2.err = none ∧ entry.2.truncated = false) :
    ordered.flatMap (·.2.matched) = allowed.flatMap (examineLog service request) := by
  have hlength : ordered.length = allowed.length := by
    rw [← length_map (f := Prod.fst), hindices, length_range]
  have hmatched : ordered.map (·.2.matched) = allowed.map (examineLog service request) := by
    apply ext_getElem (by rw [length_map, length_map, hlength])
    intro i hi hi'
    rw [length_map] at hi hi'
    rw [getElem_map, getElem_map]
    have hmem : ordered[i] ∈ ordered := getElem_mem hi
    have hindex : ordered[i].1 = i := by
      have hget : (ordered.map Prod.fst)[i]? = (range allowed.length)[i]? := by rw [hindices]
      rw [getElem?_map, getElem?_eq_getElem hi, getElem?_range hi'] at hget
      exact some.inj hget
    obtain ⟨target, htarget, houtcome⟩ := houtcome _ hmem
    rw [hindex, getElem?_eq_getElem hi'] at htarget
    rw [some.inj htarget]
    exact houtcome.whole (hwhole _ hmem).1 (hwhole _ hmem).2
  rw [flatMap_def, flatMap_def, hmatched]

end

/-! ## The whole scan -/

/-- Different pods have different keys, as they have when names contain no NUL. -/
def Separated (targets : List ScanTarget) : Prop :=
  ∀ target ∈ targets, ∀ other ∈ targets, other.podKey = target.podKey →
    other.namespaceName = target.namespaceName ∧ other.pod = target.pod

theorem separated_of_namespaces
    (h : ∀ target ∈ targets, '\x00' ∉ target.namespaceName.toList) : Separated targets := by
  intro target htarget other hother hkey
  have hchars : other.namespaceName.toList ++ '\x00' :: other.pod.toList =
      target.namespaceName.toList ++ '\x00' :: target.pod.toList := by
    have hlists := congrArg String.toList hkey
    simpa [ScanTarget.podKey] using hlists
  -- The first NUL stands where the namespace ends.
  have hlength := congrArg (idxOf '\x00') hchars
  rw [idxOf_append_of_notMem (h other hother), idxOf_append_of_notMem (h target htarget),
    idxOf_cons_self, idxOf_cons_self] at hlength
  obtain ⟨hnamespace, hpod⟩ := append_inj hchars hlength
  exact ⟨String.toList_inj.mp hnamespace, String.toList_inj.mp (cons.inj hpod).2⟩

/-- Every requested pod is allowed, and the value is what all lines of all requested logs, uncut,
give; targets with one key are one target.  A log is what the port serves for the window and the
last lines that the request asks for. -/
structure Honest (service : ScanService) (request : ResolvedLogScanRequest)
    (targets : List ScanTarget) (block : Block) : Prop where
  allowed : ∀ target ∈ targets,
    service.canReadPodLogs target.namespaceName target.pod = .ok .allowed
  examined : ∃ selected : List ScanTarget, (∀ target ∈ selected, target ∈ targets) ∧
    (∀ target ∈ targets, ∃ other ∈ selected, other.key = target.key) ∧
    block.value = selected.flatMap (examineLog service request)

variable {service : ScanService} {request : LogScanRequest} {targets : List ScanTarget}
  {block : Block} {resolved : ResolvedLogScanRequest} {ctxErr : Nat → Option Failure}

theorem reviewed_complete (h : (reviewed service resolved targets ctxErr).block.complete = true) :
    (limitExplicitTargets targets resolved.maxPods service.budget.maxContainers).2 = false ∧
      (reviewed service resolved targets ctxErr).allowed =
        (limitExplicitTargets targets resolved.maxPods service.budget.maxContainers).1 ∧
      ∀ target ∈ (reviewed service resolved targets ctxErr).allowed,
        AllowedBy service (reviewed service resolved targets ctxErr).allowed target := by
  unfold reviewed at h ⊢
  cases hlimited : limitExplicitTargets targets resolved.maxPods service.budget.maxContainers with
  | mk limited selectionTruncated =>
    rw [hlimited] at h
    have htrusted : ∀ block : Block,
        Trusted service [] ⟨block, [], fun _ => none, fun _ => false⟩ := fun block =>
      ⟨fun _ _ => rfl, fun _ _ _ h => absurd h (by simp)⟩
    obtain ⟨hcomplete, hallowed, hall⟩ := authorizeTargets_complete (htrusted _) h
    rw [hallowed]
    refine ⟨?_, rfl, hall⟩
    cases selectionTruncated with
    | false => rfl
    | true => exact absurd hcomplete (by simp [DashboardBlockDTO.cut])

theorem settleTarget_value (state : Reviewed) (target : ScanTarget)
    (decision : PermissionDecision) :
    (settleTarget state target decision).block.value = state.block.value := by
  unfold settleTarget
  split
  · rfl
  · cases decision <;> simp

theorem reviewTarget_value (state : Reviewed) (target : ScanTarget) :
    (reviewTarget service state target).block.value = state.block.value := by
  unfold reviewTarget
  split
  · exact settleTarget_value _ _ _
  · split
    · simp
    · exact settleTarget_value _ _ _

theorem authorizeTargets_value : ∀ (index : Nat) (state : Reviewed),
      (authorizeTargets service ctxErr index targets state).block.value = state.block.value := by
  induction targets with
  | nil => exact fun _ _ => rfl
  | cons target targets ih =>
    intro index state
    unfold authorizeTargets
    split
    · simp
    · rw [ih, reviewTarget_value]

theorem reviewed_value (resolved : ResolvedLogScanRequest) (ctxErr : Nat → Option Failure) :
    (reviewed service resolved targets ctxErr).block.value = [] := by
  unfold reviewed
  rw [authorizeTargets_value]
  split <;> rfl

theorem pool_finished {allowed : List ScanTarget} {pool : PoolState (workerCount resolved allowed)}
    (hrequest : ResolveLogScanRequest request = .ok resolved)
    (hinv : Pool.Inv (scanRules service resolved allowed) pool)
    (hstopped : ∀ w, pool.workers w = .stopped)
    (hquiet : ∀ signal, pool.signals signal = false) :
    allowed.length ≤ pool.finished.length := by
  have hworkers := ResolveLogScanRequest_workers hrequest
  have hsome : (scanRules service resolved allowed).jobs ≠ 0 →
      Nonempty (Fin (workerCount resolved allowed)) := by
    intro hjobs
    have hlength : allowed.length ≠ 0 := hjobs
    refine ⟨⟨0, ?_⟩⟩
    rw [workerCount]
    omega
  refine Pool.jobs_le_length (hinv.all_finished hsome hstopped ?_)
  rintro ⟨signal, hsignal⟩
  exact absurd hsignal (by rw [hquiet signal]; exact Bool.false_ne_true)

/-- A scan that reports itself complete is honest, for every timing. -/
theorem scan_honest (hseparated : Separated targets) (h : Scans service request targets block)
    (hcomplete : block.complete = true) :
    ∃ resolved, ResolveLogScanRequest request = .ok resolved ∧
      Honest service resolved targets block := by
  cases h with
  | invalid _ => cases hcomplete
  | unavailable _ _ => cases hcomplete
  | @scanned resolved hrequest _ reviewCtx allowed hallowed actions pool hpool hstopped ctxErr
      laterCtxErr hctx hlater =>
    obtain ⟨hreviewed, hexhausted, hmissing, hwhole, hvalue⟩ := finishScan_complete hcomplete
    obtain ⟨hselection, hlimited, hall⟩ := reviewed_complete hreviewed
    rw [← hallowed] at hlimited hall
    obtain ⟨hmem, hcovers⟩ := limitExplicitTargets_whole hselection
    rw [← hlimited] at hmem hcovers
    have hinv := Pool.inv_of_runs hpool
    have hcount : allowed.length ≤ pool.finished.length := by
      by_contra hless
      have hordered : (pool.finished.mergeSort fun left right => left.1 ≤ right.1).length <
          allowed.length := by
        rw [List.length_mergeSort]
        omega
      -- A missing result would mean that the context had ended, and then it was reported.
      have hlive := (hmissing hordered).1
      refine hless (pool_finished hrequest hinv hstopped fun signal => ?_)
      cases signal with
      | canceled => exact Bool.eq_false_iff.mpr fun hcanceled => hctx hcanceled hlive
      | exhausted => exact hexhausted
    refine ⟨resolved, hrequest, ?_, ?_⟩
    · intro target htarget
      obtain ⟨selected, hselected, hkey⟩ := hcovers target htarget
      obtain ⟨other, hother, hpod, hdecision⟩ := hall selected hselected
      obtain ⟨hnamespace, hname⟩ :=
        hseparated selected (hmem _ hselected) other (hmem _ hother) hpod
      rw [hnamespace, hname] at hdecision
      have hsame : selected.namespaceName = target.namespaceName ∧ selected.pod = target.pod :=
        ⟨congrArg TargetKey.namespaceName hkey, congrArg TargetKey.pod hkey⟩
      rwa [hsame.1, hsame.2] at hdecision
    · refine ⟨allowed, hmem, hcovers, ?_⟩
      have houtcome : ∀ entry ∈ pool.finished.mergeSort fun left right => left.1 ≤ right.1,
          ∃ target, allowed[entry.1]? = some target ∧ Outcome service resolved target entry.2 :=
        fun entry hentry => (hinv.finished entry (List.mem_mergeSort.mp hentry)).2
      rw [hvalue, reviewed_value, List.nil_append]
      exact ordered_matches (ordered_indices (hinv.finished_perm hcount)) houtcome hwhole

/-! ## Scans of two pods -/

/-- `ready` and `panic`, each on a line. -/
def apiLog : List UInt8 := [114, 101, 97, 100, 121, 10, 112, 97, 110, 105, 99, 10]

/-- Only the pod `api` has written a log. -/
def podLogs (canRead : String → String → Bool) : ScanService where
  available := true
  canReadPodLogs namespaceName pod :=
    .ok (if canRead namespaceName pod then .allowed else .denied)
  log request := if request.target.pod = "api" then apiLog else []
  budget := DefaultLogBudget
  detect line _ :=
    if line = "panic".toList then some ⟨none, line, .Panic, false, false⟩ else none
  text bytes := bytes.map fun byte => Char.ofNat byte.toNat
  encodedSize _ := some 0

def podTarget (namespaceName pod : String) (priority : Int) : ScanTarget :=
  ⟨namespaceName, pod, "app", .regular, none, false, priority, 0⟩

def defaultScan : ResolvedLogScanRequest := ⟨15, 200, 20, 4⟩

def apiMatch : LogMatchDTO :=
  ⟨"team", "api", "app", none, none, "panic".toList, .Panic, false, false⟩

theorem apiLog_outcome : Outcome (podLogs fun _ _ => true) defaultScan (podTarget "team" "api" 0)
    ⟨[apiMatch], false, none⟩ := by
  refine ⟨⟨false, .ok ⟨[⟨apiLog, by decide⟩], .eof, false⟩, ⟨fun _ => none, .eof⟩⟩,
    fun source hsource => ?_, by decide +kernel⟩
  obtain rfl := ok.inj hsource
  exact ⟨List.prefix_refl _, fun _ => rfl⟩

variable (canRead : String → String → Bool)

theorem emptyLog_outcome {target : ScanTarget} (h : target.pod ≠ "api") :
    Outcome (podLogs canRead) defaultScan target ⟨[], false, none⟩ := by
  refine ⟨⟨false, .ok ⟨[], .eof, false⟩, ⟨fun _ => none, .eof⟩⟩, fun source hsource => ?_, rfl⟩
  obtain rfl := ok.inj hsource
  exact ⟨List.nil_prefix, fun _ => (if_neg h).symm⟩

theorem podLogs_pool {first second : ScanTarget} {left right : TargetScanResult}
    (hleft : Outcome (podLogs canRead) defaultScan first left)
    (hright : Outcome (podLogs canRead) defaultScan second right) :
    ∃ pool : PoolState 2,
      Runs (Pool.Step (scanRules (podLogs canRead) defaultScan [first, second])) Pool.start
        [.take 0, .take 1, .finish 0 left, .finish 1 right, .close, .stop 0, .stop 1] pool ∧
      (∀ w, pool.workers w = .stopped) ∧ pool.finished = [(0, left), (1, right)] ∧
      pool.signals = fun _ => false := by
  apply runs_cons (.take rfl rfl Nat.zero_lt_two)
  apply runs_cons (.take rfl rfl Nat.one_lt_two)
  apply runs_cons (.finish rfl ⟨first, rfl, hleft⟩)
  apply runs_cons (.finish rfl ⟨second, rfl, hright⟩)
  apply runs_cons (.close (.inl rfl))
  apply runs_cons (.stop rfl (.inl rfl))
  apply runs_cons (.stop rfl (.inl rfl))
  exact ⟨_, .nil _, Fin.forall_fin_two.mpr ⟨rfl, rfl⟩, rfl, rfl⟩

theorem podLogs_scans {canRead : String → String → Bool} {first second : ScanTarget}
    {found : List LogMatchDTO}
    (hfirst : Outcome (podLogs canRead) defaultScan first ⟨found, false, none⟩)
    (hsecond : second.pod ≠ "api") (hfound : found = [] ∨ found = [apiMatch])
    (hallowed : (reviewed (podLogs canRead) defaultScan [first, second] fun _ => none).allowed =
      [first, second])
    (hcomplete : (reviewed (podLogs canRead) defaultScan [first, second] fun _ =>
      none).block.complete = true)
    (htruncated : (reviewed (podLogs canRead) defaultScan [first, second] fun _ =>
      none).block.truncated = false) :
    ∃ block, Scans (podLogs canRead) ⟨none, none, none, none⟩ [first, second] block ∧
      block.complete = true ∧ block.truncated = false ∧ block.value = found := by
  obtain ⟨pool, hpool, hworkers, hfinished, hsignals⟩ :=
    podLogs_pool canRead hfirst (emptyLog_outcome canRead hsecond)
  have hlive : pool.signals .canceled = true → (none : Option Failure) ≠ none := by
    rw [hsignals]
    exact fun h => absurd h Bool.false_ne_true
  refine ⟨_, @Scans.scanned (podLogs canRead) _ _ defaultScan rfl rfl (fun _ => none) _
    hallowed.symm _ pool hpool hworkers none none hlive (fun h => h), ?_⟩
  have hsorted : ([(0, ⟨found, false, none⟩), (1, ⟨[], false, none⟩)] :
      List (Nat × TargetScanResult)).mergeSort (fun left right => left.1 ≤ right.1) =
        [(0, ⟨found, false, none⟩), (1, ⟨[], false, none⟩)] :=
    mergeSort_of_pairwise (by simp)
  rw [hfinished, hsignals, hsorted]
  have hvalue := @reviewed_value (podLogs canRead) [first, second] defaultScan fun _ => none
  revert hcomplete htruncated hvalue
  generalize (reviewed (podLogs canRead) defaultScan [first, second] fun _ => none).block = block
  intro hcomplete htruncated hvalue
  obtain ⟨value, complete, truncated, coverage, errors⟩ := block
  obtain rfl : value = [] := hvalue
  rcases hfound with rfl | rfl
  · exact ⟨hcomplete, htruncated, rfl⟩
  · exact ⟨hcomplete, htruncated, rfl⟩

theorem limitExplicitTargets_sorted
    (h : targets.Pairwise fun left right => !lessLogTarget right left) :
    limitExplicitTargets targets maximumPods maximumContainers =
      selectTargets maximumPods maximumContainers targets [] [] [] false := by
  rw [limitExplicitTargets, mergeSort_of_pairwise h]

def twoPods : List ScanTarget := [podTarget "team" "api" 0, podTarget "team" "web" 1]

theorem twoPods_scanned : ∃ block,
    Scans (podLogs fun _ _ => true) ⟨none, none, none, none⟩ twoPods block ∧
      block.complete = true ∧ block.truncated = false ∧ block.value = [apiMatch] := by
  refine podLogs_scans apiLog_outcome (by decide) (.inr rfl) ?_ ?_ ?_ <;>
    rw [reviewed, limitExplicitTargets_sorted (by decide)]
  · decide +kernel
  · rfl
  · rfl

/-- Two pods, one of which has a line that matches. -/
theorem scan_honest_twoPods : ∃ block,
    Scans (podLogs fun _ _ => true) ⟨none, none, none, none⟩ twoPods block ∧
      block.complete = true ∧ block.value = [apiMatch] ∧
      ∃ resolved, ResolveLogScanRequest ⟨none, none, none, none⟩ = .ok resolved ∧
        Honest (podLogs fun _ _ => true) resolved twoPods block := by
  obtain ⟨block, hscans, hcomplete, _, hvalue⟩ := twoPods_scanned
  have hseparated : Separated twoPods := separated_of_namespaces (by decide)
  exact ⟨block, hscans, hcomplete, hvalue, scan_honest hseparated hscans hcomplete⟩

def oneKey : List ScanTarget := [podTarget "a" "b\x00c" 0, podTarget "a\x00b" "c" 1]

/-- The review of the first pod also lets the second through, which would be denied. -/
theorem scan_dishonest_oneKey : ∃ block,
    Scans (podLogs fun namespaceName _ => namespaceName = "a") ⟨none, none, none, none⟩ oneKey
        block ∧
      block.complete = true ∧ block.truncated = false ∧
      podTarget "a\x00b" "c" 1 ∈ oneKey ∧
      (podLogs fun namespaceName _ => namespaceName = "a").canReadPodLogs "a\x00b" "c" =
        .ok .denied := by
  have hscanned : ∃ block, Scans (podLogs fun namespaceName _ => namespaceName = "a")
      ⟨none, none, none, none⟩ oneKey block ∧ block.complete = true ∧
        block.truncated = false ∧ block.value = [] := by
    refine podLogs_scans (emptyLog_outcome _ (by decide)) (by decide) (.inl rfl) ?_ ?_ ?_ <;>
      rw [reviewed, limitExplicitTargets_sorted (by decide)]
    · decide +kernel
    · rfl
    · rfl
  obtain ⟨block, hscans, hcomplete, htruncated, _⟩ := hscanned
  exact ⟨block, hscans, hcomplete, htruncated, List.mem_cons_of_mem _ List.mem_cons_self, rfl⟩

end Kubepeep.Dashboard
