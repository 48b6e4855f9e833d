import Kubepeep.Authorization.Flights

/-!
# Decisions behind an invalidation

A check that starts behind an invalidation of its key never returns the decision of a review that
was sent before it, neither from the cache nor from a flight.
-/

open Option Function

namespace Kubepeep.Authorization

open Kubepeep.System

variable {request : Nat → Request} {service : Service}

def Phase.source : Phase → Option Nat
  | .waiting leader => some leader
  | phase => phase.verdict?.bind (·.review)

variable {phase : Phase} {verdict : Verdict}

theorem source_of_verdict? (h : phase.verdict? = some verdict) :
    phase.source = verdict.review := by
  cases phase <;> simp_all [Phase.source, Phase.verdict?]

/-- What holds of a key from a state `base` on in which nothing of it is cached and every flight of
it has an older stamp. -/
structure Since (request : Nat → Request) (base : Service) (key : Key) (service : Service) :
    Prop where
  stamp : (base.revisionLocked key).le (service.revisionLocked key)
  sent : ∀ {id}, base.Sent id → service.Sent id
  cache : ∀ {verdict id}, service.cache key = some verdict → verdict.review = some id →
    ¬base.Sent id
  pending : ∀ {id revision}, (request id).key = key →
    (service.call id).revision? = some revision → (base.revisionLocked key).le revision →
      ¬base.Sent id
  late : ∀ {id leader}, base.call id = .idle → (request id).key = key →
    (service.call id).source = some leader → ¬base.Sent leader

namespace Since

variable {base : Service} {key : Key} (h : Since request base key service)
include h

variable {next : Service}

theorem frame (hcall : next.call = service.call) (hresult : next.result = service.result)
    (hcache : ∀ verdict, next.cache key = some verdict → service.cache key = some verdict)
    (hstamp : (service.revisionLocked key).le (next.revisionLocked key)) :
    Since request base key next where
  stamp := RevisionStamp.le_trans h.stamp hstamp
  sent hsent := by
    rw [Service.Sent, hcall, hresult]
    exact h.sent hsent
  cache hcached := h.cache (hcache _ hcached)
  pending hkey hrevision := h.pending hkey (hcall ▸ hrevision)
  late hidle hkey hsource := h.late hidle hkey (hcall ▸ hsource)

variable {id : Nat}

theorem setCall (hrevision : phase.revision? = (service.call id).revision?)
    (hsent : (service.call id).sent = true → phase.sent = true)
    (hsource : base.call id = .idle → (request id).key = key →
      ∀ leader, phase.source = some leader → ¬base.Sent leader) :
    Since request base key (service.setCall id phase) := by
  refine ⟨h.stamp, ?_, h.cache, ?_, ?_⟩
  · intro other hother
    rcases h.sent hother with hphase | hresult
    · exact .inl (imp_update service.call (·.sent = true) hsent other hphase)
    · exact .inr hresult
  · intro other revision hkey hother
    rcases update_cases service.call (fun phase => phase.revision? = _) hother with
      ⟨rfl, hnew⟩ | ⟨-, hold⟩
    · rw [hrevision] at hnew
      exact h.pending hkey hnew
    · exact h.pending hkey hold
  · intro other leader hidle hkey hother
    rcases update_cases service.call (fun phase => phase.source = _) hother with
      ⟨rfl, hnew⟩ | ⟨-, hold⟩
    · exact hsource hidle hkey leader hnew
    · exact h.late hidle hkey hold

theorem setQuiet (hrevision : phase.revision? = (service.call id).revision?)
    (hsent : (service.call id).sent = true → phase.sent = true) (hquiet : phase.source = none) :
    Since request base key (service.setCall id phase) := by
  apply h.setCall hrevision hsent
  intro _ _ leader hleader
  rw [hquiet] at hleader
  cases hleader

theorem setSame (hnone : (service.call id).revision? = none)
    (hsent : (service.call id).sent = false) (hrevision : phase.revision? = none)
    (hsame : phase.source = (service.call id).source) :
    Since request base key (service.setCall id phase) := by
  refine h.setCall (hrevision.trans hnone.symm) ?_ ?_
  · intro htrue
    rw [hsent] at htrue
    cases htrue
  · intro hidle hkey leader hleader
    exact h.late hidle hkey (hsame ▸ hleader)

theorem proceed {verdict later : Verdict}
    (hbefore : (service.call id).verdict? = some verdict) (hafter : phase.verdict? = some later)
    (hreview : later.review = verdict.review) :
    Since request base key (service.setCall id phase) := by
  have hpast : (service.call id).verdict?.isSome = true := by rw [hbefore, isSome_some]
  apply h.setSame (revision?_eq_none_of_verdict? hpast) (sent_eq_false_of_verdict? hpast)
  · exact revision?_eq_none_of_verdict? (by rw [hafter, isSome_some])
  · rw [source_of_verdict? hafter, source_of_verdict? hbefore, hreview]

theorem enter (hinv : Inv request service) {now : Nat} (hphase : service.call id = .started now) :
    Since request base key (service.enter id (request id) now) := by
  have hnone : (service.call id).revision? = none := by
    rw [hphase]
    rfl
  have hsent : (service.call id).sent = false := by
    rw [hphase]
    rfl
  have hnotSent : (service.call id).sent = true → ∀ {p : Prop}, p := by
    intro htrue
    rw [hsent] at htrue
    cases htrue
  have hdropped : Since request base key (service.dropCached (request id).key) := by
    refine h.frame rfl rfl ?_ (RevisionStamp.le_refl _)
    intro verdict hcached
    exact of_update service.cache (· = some verdict) hcached nofun
  unfold Service.enter
  split
  case h_1 verdict hcached =>
    refine h.setCall hnone.symm (fun htrue => hnotSent htrue) ?_
    intro _ hkey leader hleader
    -- a hit is a decision of the cache
    exact h.cache (hkey ▸ Service.cache_of_cached hcached) hleader
  case h_2 =>
    dsimp only
    split
    case h_1 leader hflight =>
      refine hdropped.setCall hnone.symm (fun htrue => hnotSent htrue) ?_
      intro _ hkey other hother
      cases hother
      -- the flight has the current stamp, which is not older than the one of `base`
      have ⟨hsame, hrevision⟩ := hinv.flight hflight
      refine h.pending (hsame.trans hkey) hrevision ?_
      exact hkey ▸ h.stamp
    case h_2 hflight =>
      refine ⟨h.stamp, ?_, hdropped.cache, ?_, ?_⟩
      · intro other hother
        rcases h.sent hother with hother | hresult
        · left
          show (update service.call id _ other).sent = true
          have heq : other ≠ id := by
            rintro rfl
            exact hnotSent hother
          rw [update_of_ne heq]
          exact hother
        · exact .inr hresult
      · intro other revision hkey hother
        replace hother : (update service.call id _ other).revision? = _ := hother
        by_cases heq : other = id
        · subst heq
          intro _ hbase
          rcases h.sent hbase with hother | hresult
          · exact hnotSent hother
          · exact hresult (hinv.result_eq_none (by rw [hphase]; rfl))
        · rw [update_of_ne heq] at hother
          exact h.pending hkey hother
      · intro other leader hidle hkey hother
        replace hother := of_update service.call (fun phase => phase.source = _) hother nofun
        exact h.late hidle hkey hother

theorem publish (hinv : Inv request service) (hbase : ∀ id, base.call id = .idle → ¬base.Sent id)
    {revision : RevisionStamp} {response : Response}
    (hphase : service.call id = .responded revision response verdict) :
    Since request base key
      (service.publish id (request id).key revision response verdict) := by
  have hrevision : (service.call id).revision? = some revision := by
    rw [hphase]
    rfl
  have hreview : verdict.review = some id := (hinv.response (by rw [hphase]; rfl)).1
  refine ⟨h.stamp, ?_, ?_, ?_, ?_⟩
  · intro other hother
    show (update service.call id _ other).sent = true ∨
      update service.result id _ other ≠ none
    by_cases heq : other = id
    · right
      rw [heq, update_self]
      nofun
    · rw [update_of_ne heq, update_of_ne heq]
      exact h.sent hother
  · intro found other hfound hother
    rcases Service.cache_publish hfound with hold | ⟨rfl, rfl, hcurrent, -⟩
    · exact h.cache hold hother
    · -- only a review with the current stamp is cached
      cases hreview.symm.trans hother
      exact h.pending rfl hrevision (hcurrent ▸ h.stamp)
  · intro other stamp hkey hother
    exact h.pending hkey (of_update service.call (fun phase => phase.revision? = _) hother nofun)
  · intro other leader hidle hkey hother
    rcases update_cases service.call (fun phase => phase.source = _) hother with
      ⟨rfl, hnew⟩ | ⟨-, hold⟩
    · cases hreview.symm.trans hnew
      exact hbase _ hidle
    · exact h.late hidle hkey hold

theorem invalidateKey (other : Key) : Since request base key (service.invalidateKey other) := by
  refine h.frame rfl rfl ?_ (service.revisionLocked_le_key key other)
  intro verdict hcached
  exact of_update service.cache (· = some verdict) hcached nofun

theorem step {validation : Validation} {ttl : Nat} {action : Action} (hinv : Inv request service)
    (hbase : ∀ id, base.call id = .idle → ¬base.Sent id)
    (hstep : Step validation ttl request service action next) : Since request base key next := by
  cases hstep with
  | advance duration => exact h.frame rfl rfl (fun _ hcached => hcached) (RevisionStamp.le_refl _)
  | cancel id => exact h.frame rfl rfl (fun _ hcached => hcached) (RevisionStamp.le_refl _)
  | start hphase =>
    split
    · exact h.setQuiet (by rw [hphase]; rfl) (by rw [hphase]; nofun) rfl
    · exact h.setQuiet (by rw [hphase]; rfl) (by rw [hphase]; nofun) rfl
  | enter hphase => exact h.enter hinv hphase
  | review hphase => exact h.setQuiet (by rw [hphase]; rfl) (by rw [hphase]; nofun) rfl
  | respond response hphase => exact h.setQuiet (by rw [hphase]; rfl) (fun _ => rfl) rfl
  | interrupt hphase hcanceled hcode =>
    exact h.setQuiet (by rw [hphase]; rfl) (fun _ => rfl) rfl
  | publish hphase => exact h.publish hinv hbase hphase
  | wake hphase hresult =>
    apply h.setSame (by rw [hphase]; rfl) (by rw [hphase]; rfl) rfl
    rw [hphase]
    exact hinv.own hresult
  | giveUp hphase hcanceled => exact h.setQuiet (by rw [hphase]; rfl) (by rw [hphase]; nofun) rfl
  | settle hphase =>
    refine h.proceed (by rw [hphase]; rfl) (Program.settle_verdict ..) rfl
  | @operate id verdict err hphase =>
    have ⟨later, hlater, hreview, _⟩ := afterOperation_verdict verdict service.now err
    exact h.proceed (by rw [hphase]; rfl) hlater hreview
  | @invalidateKey id verdict err hphase =>
    have hbefore : (service.call id).verdict? = some verdict := by rw [hphase]; rfl
    exact (h.invalidateKey _).proceed hbefore rfl rfl
  | invalidateGeneration generation =>
    exact h.frame rfl rfl (fun _ hcached => Service.cache_of_generation hcached)
      (service.revisionLocked_le_generation key generation)
  | invalidateAll => exact h.frame rfl rfl nofun (service.revisionLocked_le_all key)

end Since

def Action.Covers (request : Nat → Request) (key : Key) : Action → Prop
  | .invalidateAll => True
  | .invalidateGeneration generation => key.generation = generation
  | .invalidateKey id => (request id).key = key
  | _ => False

section Invalidations

variable {validation : Validation} {ttl : Nat} {before base final : Service} {action : Action}
  {key : Key}

theorem Step.covers (hstep : Step validation ttl request before action base)
    (hcovers : action.Covers request key) :
    base.cache key = none ∧ ¬(base.revisionLocked key).le (before.revisionLocked key) := by
  cases hstep with
  | invalidateAll =>
    refine ⟨rfl, ?_⟩
    simp [RevisionStamp.le, Service.revisionLocked, Service.InvalidateAll]
  | invalidateGeneration generation =>
    have hgeneration : key.generation = generation := hcovers
    subst hgeneration
    refine ⟨if_pos rfl, ?_⟩
    simp [RevisionStamp.le, Service.revisionLocked, Service.InvalidateGeneration]
  | invalidateKey hphase =>
    have hkey : (request _).key = key := hcovers
    subst hkey
    refine ⟨update_self .., ?_⟩
    simp [RevisionStamp.le, Service.revisionLocked, Service.invalidateKey, Service.setCall]
  | advance | cancel | start | enter | review | respond | interrupt | publish | wake | giveUp
  | settle | operate => exact hcovers.elim

theorem Step.covers_revision (hstep : Step validation ttl request before action base)
    (hcovers : action.Covers request key) {id : Nat} {revision : RevisionStamp}
    (hrevision : (base.call id).revision? = some revision) :
    (before.call id).revision? = some revision := by
  cases hstep with
  | invalidateAll => exact hrevision
  | invalidateGeneration generation => exact hrevision
  | @invalidateKey other verdict err hphase =>
    exact of_update before.call (fun phase => phase.revision? = _) hrevision nofun
  | advance | cancel | start | enter | review | respond | interrupt | publish | wake | giveUp
  | settle | operate => exact hcovers.elim

theorem Since.refl (hinv : Inv request before)
    (hstep : Step validation ttl request before action base)
    (hcovers : action.Covers request key) : Since request base key base := by
  have ⟨hcache, hstamp⟩ := hstep.covers hcovers
  refine ⟨RevisionStamp.le_refl _, id, ?_, ?_, ?_⟩
  · intro verdict id hcached
    rw [hcache] at hcached
    cases hcached
  · intro id revision hkey hrevision hle
    have hold := hinv.current (hstep.covers_revision hcovers hrevision)
    rw [hkey] at hold
    exact absurd (RevisionStamp.le_trans hle hold) hstamp
  · intro id leader hidle _ hsource
    rw [hidle] at hsource
    cases hsource

/-- The decision of a check that starts behind an invalidation of its key does not come from a
review that was sent before. -/
theorem check_after_invalidation {initial : Service} {actions later : List Action}
    {id leader : Nat} {verdict : Verdict} (hnew : initial.New)
    (hbefore : Runs (Step validation ttl request) initial actions before)
    (hstep : Step validation ttl request before action base)
    (hcovers : action.Covers request (request id).key)
    (hlater : Runs (Step validation ttl request) base later final) (hidle : base.call id = .idle)
    (hverdict : (final.call id).verdict? = some verdict) (hreview : verdict.review = some leader) :
    ¬base.Sent leader := by
  have hinv : Inv request before := hbefore.invariant hnew.inv fun h hstep => hstep.inv h
  have hbase : Inv request base := hstep.inv hinv
  have hnotSent : ∀ other, base.call other = .idle → ¬base.Sent other := by
    intro other hother hsent
    rcases hsent with hsent | hresult
    · rw [hother] at hsent
      cases hsent
    · exact hresult (hbase.result_eq_none (by rw [hother]; rfl))
  have hfinal : Inv request final ∧ Since request base (request id).key final := by
    refine hlater.invariant
      (I := fun final => Inv request final ∧ Since request base (request id).key final)
      ⟨hbase, .refl hinv hstep hcovers⟩ ?_
    intro middle action next h hnext
    exact ⟨hnext.inv h.1, h.2.step h.1 hnotSent hnext⟩
  apply hfinal.2.late hidle rfl
  rw [source_of_verdict? hverdict, hreview]

end Invalidations

/-! ## A review that is overtaken -/

def podsKey : Key := { generation := "g1", apiGroup := "", resource := "pods", verb := "get" }

theorem podsKey_valid : ValidateKey documentedValidation podsKey = true := by decide +kernel

def checkPods (_ : Nat) : Request := ⟨.Check, podsKey⟩

def emptyService : Service where
  now := 0
  cache _ := none
  inflight _ := none
  globalRevision := 0
  generationRevisions _ := 0
  keyRevisions _ := 0
  call _ := .idle
  result _ := none
  canceled _ := false

theorem emptyService_new : emptyService.New :=
  ⟨fun _ => rfl, fun _ => rfl, fun _ => rfl, fun _ => rfl⟩

theorem Step.start_pods {ttl id : Nat} (h : service.call id = .idle) :
    Step documentedValidation ttl checkPods service (.start id)
      (service.setCall id (.started service.now)) := by
  have hstep : Step documentedValidation ttl checkPods service (.start id) _ := .start h
  rwa [if_pos (show ValidateKey documentedValidation (checkPods id).key = true from podsKey_valid)]
    at hstep

theorem Step.enter_uncached {ttl id now : Nat} {flight : Option Nat}
    (h : service.call id = .started now) (hcache : service.cache (request id).key = none)
    (hflight : service.inflight ⟨(request id).key, service.revisionLocked (request id).key⟩ =
      flight) :
    Step validation ttl request service (.enter id)
      (flight.elim ((service.dropCached (request id).key).lead id
      ⟨(request id).key, service.revisionLocked (request id).key⟩)
      fun leader => (service.dropCached (request id).key).setCall id (.waiting leader)) := by
  have hcached : service.cached (request id) now = none := by
    rw [Service.cached, hcache, filter_none, ite_self]
  have hstep : Step validation ttl request service (.enter id) _ := .enter h
  unfold Service.enter at hstep
  rw [hcached] at hstep
  dsimp only at hstep
  rw [Service.revisionLocked_dropCached, Service.inflight_dropCached, hflight] at hstep
  cases flight <;> exact hstep

def reviewedService : Service :=
  (((emptyService.setCall 0 (.started 0)).dropCached podsKey).lead 0 ⟨podsKey, ⟨0, 0, 0⟩⟩).setCall 0
    (.reviewing ⟨0, 0, 0⟩)

theorem reviewedService_runs :
    Runs (Step documentedValidation 45 checkPods) emptyService [.start 0, .enter 0, .review 0]
      reviewedService :=
  ((Runs.single (.start_pods rfl)).snoc (.enter_uncached rfl rfl rfl)).snoc (.review rfl)

/-- The first review is in flight while everything is invalidated, and the second check sends its
own. -/
theorem check_after_invalidation_second : ∃ final,
    Runs (Step documentedValidation 45 checkPods) reviewedService.InvalidateAll
      [.start 1, .enter 1, .review 1, .respond 1 (.answered ⟨true, false, true⟩), .publish 1]
      final ∧
    (final.call 1).verdict? = some ⟨.DecisionAllowed, .ReasonSARAllowed, 45, some 1, false⟩ ∧
    reviewedService.InvalidateAll.Sent 0 ∧ ¬reviewedService.InvalidateAll.Sent 1 := by
  apply runs_with
  apply runs_cons (.start_pods rfl)
  apply runs_cons (.enter_uncached rfl rfl rfl)
  apply runs_cons (.review rfl)
  apply runs_cons (.respond _ rfl)
  apply runs_cons (.publish rfl)
  refine ⟨_, .nil _, fun hruns => ⟨rfl, .inl rfl, ?_⟩⟩
  have hidle : reviewedService.InvalidateAll.call 1 = .idle := rfl
  apply check_after_invalidation emptyService_new reviewedService_runs .invalidateAll trivial hruns
    hidle <;> rfl

end Kubepeep.Authorization
