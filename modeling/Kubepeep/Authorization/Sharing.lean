import Kubepeep.Authorization.Freshness

/-!
# Shared reviews

A review runs under the context of the call that leads it, and the calls that have joined it get
its result whatever that result is.  If the leader's context ends the review, the others get the
unknown decision of a cancellation that is not theirs.
-/

open Bool Function

namespace Kubepeep.Authorization

open Kubepeep.System

variable {request : Nat → Request} {service : Service} {validation : Validation} {ttl : Nat}

/-- A call whose own context is not done has the decision of a review that another call's context
has ended. -/
def Service.Disturbed (service : Service) : Prop :=
  ∃ id verdict leader, (service.call id).verdict? = some verdict ∧ verdict.interrupted = true ∧
    verdict.review = some leader ∧ leader ≠ id ∧ service.canceled id = false

/-- An interrupted review is published only when no call with a live context waits for it. -/
def Spares (service : Service) (action : Action) : Prop :=
  ∀ leader revision response verdict, action = .publish leader →
    service.call leader = .responded revision response verdict → verdict.interrupted = true →
      ∀ id, service.call id = .waiting leader → service.canceled id = true

def Action.isPublish : Action → Bool
  | .publish _ => true
  | _ => false

variable {action : Action}

theorem spares_of_not_publish (h : action.isPublish = false) :
    Spares service action := by
  intro leader revision response verdict haction
  rw [haction] at h
  cases h

structure Calm (service : Service) : Prop where
  cache : ∀ {key verdict}, service.cache key = some verdict → verdict.interrupted = false
  result : ∀ {leader verdict id}, service.result leader = some verdict →
    verdict.interrupted = true → service.call id = .waiting leader → service.canceled id = true
  verdict : ∀ {id verdict}, (service.call id).verdict? = some verdict →
    verdict.interrupted = true → verdict.review = some id ∨ service.canceled id = true

theorem Service.New.calm (h : service.New) : Calm service where
  cache hcached := by
    rw [h.cache] at hcached
    cases hcached
  result hresult := by
    rw [h.result] at hresult
    cases hresult
  verdict hverdict := by
    rw [h.call] at hverdict
    cases hverdict

namespace Calm

variable (h : Calm service)
include h

theorem not_disturbed : ¬service.Disturbed := by
  rintro ⟨id, verdict, leader, hverdict, hinterrupted, hreview, hne, hlive⟩
  rcases h.verdict hverdict hinterrupted with hown | hcanceled
  · exact hne (Option.some.inj (hreview.symm.trans hown))
  · exact false_ne_true (hlive.symm.trans hcanceled)

variable {next : Service}

theorem frame (hcall : next.call = service.call) (hresult : next.result = service.result)
    (hcache : ∀ key verdict, next.cache key = some verdict → service.cache key = some verdict)
    (hcanceled : ∀ id, service.canceled id = true → next.canceled id = true) : Calm next where
  cache hcached := h.cache (hcache _ _ hcached)
  result hleader hinterrupted hwaiting := by
    rw [hresult] at hleader
    rw [hcall] at hwaiting
    exact hcanceled _ (h.result hleader hinterrupted hwaiting)
  verdict hverdict hinterrupted := by
    rw [hcall] at hverdict
    rcases h.verdict hverdict hinterrupted with hown | hdone
    · exact .inl hown
    · exact .inr (hcanceled _ hdone)

variable {phase : Phase} {id : Nat}

theorem setCall (hwaiting : ∀ leader verdict, phase = .waiting leader →
      service.result leader = some verdict → verdict.interrupted = true →
        service.canceled id = true)
    (hverdict : ∀ verdict, phase.verdict? = some verdict → verdict.interrupted = true →
      verdict.review = some id ∨ service.canceled id = true) :
    Calm (service.setCall id phase) := by
  refine ⟨h.cache, ?_, ?_⟩
  · intro leader verdict other hresult hinterrupted hother
    rcases update_cases service.call (· = .waiting leader) hother with ⟨rfl, hnew⟩ | ⟨-, hold⟩
    · exact hwaiting _ _ hnew hresult hinterrupted
    · exact h.result hresult hinterrupted hold
  · intro other verdict hother hinterrupted
    rcases update_cases service.call (fun phase => phase.verdict? = some verdict) hother with
      ⟨rfl, hnew⟩ | ⟨-, hold⟩
    · exact hverdict _ hnew hinterrupted
    · exact h.verdict hold hinterrupted

theorem setQuiet (hwaiting : ∀ leader, phase ≠ .waiting leader)
    (hverdict : phase.verdict? = none) : Calm (service.setCall id phase) := by
  apply h.setCall (fun leader _ heq => absurd heq (hwaiting leader))
  intro verdict hsome
  rw [hverdict] at hsome
  cases hsome

variable {verdict : Verdict}

theorem setVerdict
    (hphase : phase.verdict? = some verdict) (hinterrupted : verdict.interrupted = false) :
    Calm (service.setCall id phase) := by
  refine h.setCall ?_ ?_
  · intro leader _ heq
    rw [heq] at hphase
    cases hphase
  · intro other hother htrue
    cases hphase.symm.trans hother
    exact absurd (hinterrupted.symm.trans htrue) false_ne_true

theorem proceed {verdict later : Verdict}
    (hbefore : (service.call id).verdict? = some verdict) (hafter : phase.verdict? = some later)
    (hreview : later.review = verdict.review) (hsame : later.interrupted = verdict.interrupted) :
    Calm (service.setCall id phase) := by
  refine h.setCall ?_ ?_
  · intro leader _ heq
    rw [heq] at hafter
    cases hafter
  · intro other hother htrue
    cases hafter.symm.trans hother
    rw [hreview]
    exact h.verdict hbefore (hsame ▸ htrue)

theorem enter (hinv : Inv request service) (id now : Nat) :
    Calm (service.enter id (request id) now) := by
  have hdropped : Calm (service.dropCached (request id).key) := by
    refine h.frame rfl rfl ?_ fun _ hid => hid
    intro key verdict hcached
    exact of_update service.cache (· = some verdict) hcached nofun
  unfold Service.enter
  split
  case h_1 verdict hcached => exact h.setVerdict rfl (h.cache (Service.cache_of_cached hcached))
  case h_2 =>
    dsimp only
    split
    case h_1 leader hflight =>
      refine hdropped.setCall ?_ nofun
      intro other verdict heq hresult
      cases heq
      -- a review in flight has no result
      have hsome : service.result leader ≠ none := by
        rw [show service.result leader = some verdict from hresult]
        nofun
      have hnone := revision?_eq_none_of_verdict? (hinv.past hsome)
      rw [(hinv.flight hflight).2] at hnone
      cases hnone
    case h_2 =>
      have hleading : Calm ((service.dropCached (request id).key).setCall id
          (.leading (service.revisionLocked (request id).key))) :=
        hdropped.setQuiet nofun rfl
      exact hleading.frame rfl rfl (fun _ _ hcached => hcached) fun _ hid => hid

theorem publish (hinv : Inv request service) {revision : RevisionStamp} {response : Response}
    (hphase : service.call id = .responded revision response verdict)
    (hspares : Spares service (.publish id)) :
    Calm (service.publish id (request id).key revision response verdict) := by
  have hresponse : (service.call id).response? = some verdict := by
    rw [hphase]
    rfl
  have ⟨hreview, hinterrupted⟩ := hinv.response hresponse
  refine ⟨?_, ?_, ?_⟩
  · intro key found hfound
    rcases Service.cache_publish hfound with hold | ⟨-, rfl, -, hcanceled⟩
    · exact h.cache hold
    · -- the context of an interrupted leader is done, so its result is not cached
      by_contra htrue
      rw [Service.errorsCanceled, hinterrupted (not_eq_false _ ▸ htrue)] at hcanceled
      cases hcanceled
  · intro leader found other hresult htrue hother
    replace hresult : update service.result id (some verdict) leader = some found :=
      hresult
    replace hother := of_update service.call (· = .waiting leader) hother nofun
    by_cases heq : leader = id
    · subst heq
      rw [update_self] at hresult
      cases hresult
      exact hspares _ _ _ _ rfl hphase htrue other hother
    · rw [update_of_ne heq] at hresult
      exact h.result hresult htrue hother
  · intro other found hother htrue
    rcases update_cases service.call (fun phase => phase.verdict? = some found) hother with
      ⟨rfl, hnew⟩ | ⟨-, hold⟩
    · cases hnew
      exact .inl hreview
    · exact h.verdict hold htrue

theorem invalidateKey (key : Key) : Calm (service.invalidateKey key) := by
  refine h.frame rfl rfl ?_ fun _ hid => hid
  intro other verdict hcached
  exact of_update service.cache (· = some verdict) hcached nofun

theorem step (hinv : Inv request service)
    (hstep : Step validation ttl request service action next) (hspares : Spares service action) :
    Calm next := by
  cases hstep with
  | advance duration => exact h.frame rfl rfl (fun _ _ hcached => hcached) fun _ hid => hid
  | cancel id =>
    refine h.frame rfl rfl (fun _ _ hcached => hcached) ?_
    exact fun _ => holds_update service.canceled (· = true) rfl
  | start hphase =>
    split
    · exact h.setQuiet nofun rfl
    · exact h.setVerdict rfl rfl
  | enter hphase => exact h.enter hinv _ _
  | review hphase => exact h.setQuiet nofun rfl
  | respond response hphase => exact h.setQuiet nofun rfl
  | interrupt hphase hcanceled hcode => exact h.setQuiet nofun rfl
  | publish hphase => exact h.publish hinv hphase hspares
  | wake hphase hresult =>
    refine h.setCall nofun ?_
    intro verdict heq htrue
    cases heq
    exact .inr (h.result hresult htrue hphase)
  | giveUp hphase hcanceled => exact h.setVerdict rfl rfl
  | settle hphase =>
    exact h.proceed (by rw [hphase]; rfl) (Program.settle_verdict ..) rfl rfl
  | @operate id verdict err hphase =>
    have ⟨later, hlater, hreview, hsame⟩ := afterOperation_verdict verdict service.now err
    exact h.proceed (by rw [hphase]; rfl) hlater hreview hsame
  | @invalidateKey id verdict err hphase =>
    have hbefore : (service.call id).verdict? = some verdict := by rw [hphase]; rfl
    exact (h.invalidateKey _).proceed hbefore rfl rfl rfl
  | invalidateGeneration generation =>
    exact h.frame rfl rfl (fun _ _ hcached => Service.cache_of_generation hcached) fun _ hid => hid
  | invalidateAll => exact h.frame rfl rfl nofun fun _ hid => hid

end Calm

/-! ## Runs -/

/-- In a run that never publishes an interrupted review to a live waiter, no live call is disturbed;
and where such a review is published, the waiter is disturbed as soon as it goes on. -/
theorem check_undisturbed {initial : Service} (hnew : initial.New) :
    (∀ actions final,
      Runs (fun service action next =>
        Step validation ttl request service action next ∧ Spares service action)
        initial actions final →
      ¬final.Disturbed) ∧
    ∀ actions middle action next, Runs (Step validation ttl request) initial actions middle →
      Step validation ttl request middle action next → ¬Spares middle action →
        ∃ id last, Step validation ttl request next (.wake id) last ∧ last.Disturbed := by
  constructor
  · intro actions final hruns
    have hfinal : Inv request final ∧ Calm final := by
      refine hruns.invariant (I := fun final => Inv request final ∧ Calm final)
        ⟨hnew.inv, hnew.calm⟩ ?_
      intro middle action next h hstep
      exact ⟨hstep.1.inv h.1, h.2.step h.1 hstep.1 hstep.2⟩
    exact hfinal.2.not_disturbed
  · intro actions middle action next hruns hstep hspares
    have hinv : Inv request middle := hruns.invariant hnew.inv fun h hstep => hstep.inv h
    simp only [Spares, not_forall] at hspares
    have ⟨leader, revision, response, verdict, haction, hphase, hinterrupted, id, hwaiting,
        hlive⟩ :=
      hspares
    subst haction
    have hne : id ≠ leader := by
      rintro rfl
      cases hwaiting.symm.trans hphase
    cases hstep with
    | publish hresponded =>
      cases hphase.symm.trans hresponded
      have hresponse : (middle.call leader).response? = some verdict := by
        rw [hphase]
        rfl
      have hreview := (hinv.response hresponse).1
      have hlater : (middle.publish leader (request leader).key revision response verdict).call id =
          .waiting leader := by
        show Function.update middle.call leader _ id = .waiting leader
        rw [Function.update_of_ne hne, hwaiting]
      refine ⟨id, _, .wake hlater (Function.update_self ..), id, verdict, leader, ?_,
        hinterrupted, hreview, hne.symm, Bool.eq_false_iff.mpr hlive⟩
      rw [Service.setCall_self]
      rfl

def joinedService : Service :=
  ((reviewedService.setCall 1 (.started 0)).dropCached podsKey).setCall 1 (.waiting 0)

theorem joinedService_step :
    Step documentedValidation 45 checkPods (reviewedService.setCall 1 (.started 0)) (.enter 1)
      joinedService := by
  refine Step.enter_uncached rfl ?_ (?_ : _ = some 0)
  · show update emptyService.cache podsKey none podsKey = none
    rw [update_self]
  · show update emptyService.inflight ⟨podsKey, ⟨0, 0, 0⟩⟩ (some 0)
      ⟨podsKey, ⟨0, 0, 0⟩⟩ = some 0
    rw [update_self]

/-- Two checks of one key share a review that is answered. -/
theorem check_undisturbed_shared : ∃ final,
    Runs (fun service action next =>
        Step documentedValidation 45 checkPods service action next ∧ Spares service action)
      emptyService [.start 0, .enter 0, .review 0, .start 1, .enter 1,
        .respond 0 (.answered ⟨true, false, true⟩), .publish 0, .wake 1] final ∧
    ¬final.Disturbed ∧
    final.call 1 = .checked ⟨.DecisionAllowed, .ReasonSARAllowed, 45, some 0, false⟩ := by
  apply runs_with
  apply runs_cons ⟨.start_pods rfl, spares_of_not_publish rfl⟩
  apply runs_cons ⟨.enter_uncached rfl rfl rfl, spares_of_not_publish rfl⟩
  apply runs_cons ⟨.review rfl, spares_of_not_publish rfl⟩
  apply runs_cons ⟨.start_pods rfl, spares_of_not_publish rfl⟩
  apply runs_cons ⟨joinedService_step, spares_of_not_publish rfl⟩
  apply runs_cons ⟨.respond _ rfl, spares_of_not_publish rfl⟩
  refine runs_cons ⟨.publish rfl, ?_⟩ ?_
  · intro leader revision response verdict haction hphase hinterrupted
    cases haction
    cases hphase
    cases hinterrupted
  apply runs_cons ⟨.wake rfl rfl, spares_of_not_publish rfl⟩
  exact ⟨_, .nil _, fun hruns => ⟨(check_undisturbed emptyService_new).1 _ _ hruns, rfl⟩⟩

/-- The context of the leader ends the review, and the call that has joined it gets the unknown
decision of a cancellation. -/
theorem canceled_leader_disturbs : ∃ final,
    Runs (Step documentedValidation 45 checkPods) emptyService
      [.start 0, .enter 0, .review 0, .start 1, .enter 1,
      .cancel 0, .interrupt 0 .CodeClientCanceled, .publish 0, .wake 1] final ∧
    final.call 1 = .checked ⟨.DecisionUnknown, .ReasonRequestCanceled, UnknownTTL, some 0, true⟩ ∧
    final.canceled 1 = false ∧ final.Disturbed := by
  apply runs_cons (.start_pods rfl)
  apply runs_cons (.enter_uncached rfl rfl rfl)
  apply runs_cons (.review rfl)
  apply runs_cons (.start_pods rfl)
  apply runs_cons joinedService_step
  apply runs_cons (.cancel 0)
  apply runs_cons (.interrupt rfl rfl (.inl rfl))
  apply runs_cons (.publish rfl)
  apply runs_cons (.wake rfl rfl)
  exact ⟨_, .nil _, rfl, rfl, 1, _, 0, rfl, rfl, rfl, by decide, rfl⟩

end Kubepeep.Authorization
