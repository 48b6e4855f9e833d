import Kubepeep.Authorization.Reviews

/-!
# Reviews in flight

Revision counters are deleted when everything is invalidated, but then the global revision has
grown, so the stamp of a key never takes an old value again.  A flight belongs to a call that has
not published, under a stamp that is not newer than the current one.
-/

open Nat Function

namespace Kubepeep.Authorization

open Kubepeep.System

/-! ## Stamps -/

def RevisionStamp.le (stamp later : RevisionStamp) : Prop :=
  stamp.global < later.global ∨
    (stamp.global = later.global ∧ stamp.generation ≤ later.generation ∧ stamp.key ≤ later.key)

namespace RevisionStamp

theorem le_refl (stamp : RevisionStamp) : stamp.le stamp :=
  .inr ⟨rfl, Nat.le_refl _, Nat.le_refl _⟩

theorem le_trans {stamp middle later : RevisionStamp} (h : stamp.le middle)
    (h' : middle.le later) : stamp.le later := by
  unfold RevisionStamp.le at *
  omega

end RevisionStamp

namespace Service

variable (service : Service) (key : Key)

theorem revisionLocked_le_generation (generation : String) :
    (service.revisionLocked key).le
      ((service.InvalidateGeneration generation).revisionLocked key) := by
  refine .inr ⟨rfl, ?_, le_refl _⟩
  exact System.le_update_succ service.generationRevisions generation key.generation

theorem revisionLocked_le_all :
    (service.revisionLocked key).le (service.InvalidateAll.revisionLocked key) :=
  .inl (lt_succ_self _)

theorem revisionLocked_le_key (other : Key) :
    (service.revisionLocked key).le ((service.invalidateKey other).revisionLocked key) := by
  refine .inr ⟨rfl, le_refl _, ?_⟩
  exact System.le_update_succ service.keyRevisions other key

variable {service key}

/-! What the cache holds behind a section was in it before, or has just been published. -/

theorem cache_of_cached {request : Request} {now : Nat} {verdict : Verdict}
    (h : service.cached request now = some verdict) : service.cache request.key = some verdict := by
  unfold cached at h
  split at h
  · cases h
  · exact (Option.filter_eq_some_iff.mp h).1

theorem cache_of_generation {generation : String} {verdict : Verdict}
    (h : (service.InvalidateGeneration generation).cache key = some verdict) :
    service.cache key = some verdict := by
  unfold InvalidateGeneration at h
  dsimp only at h
  split at h
  · cases h
  · exact h

theorem cache_publish {id : Nat} {other : Key} {revision : RevisionStamp} {response : Response}
    {verdict found : Verdict}
    (h : (service.publish id key revision response verdict).cache other = some found) :
    service.cache other = some found ∨ (other = key ∧ verdict = found ∧
      revision = service.revisionLocked key ∧ service.errorsCanceled id response = false) := by
  unfold publish at h
  dsimp only at h
  split at h
  · next hcurrent =>
    rcases update_cases service.cache (· = some found) h with ⟨hkey, hnew⟩ | ⟨-, hold⟩
    · exact .inr ⟨hkey, Option.some.inj hnew, hcurrent⟩
    · exact .inl hold
  · exact .inl h

end Service

/-! ## Phases -/

def Phase.revision? : Phase → Option RevisionStamp
  | .leading revision => some revision
  | .reviewing revision => some revision
  | .responded revision _ _ => some revision
  | _ => none

def Phase.response? : Phase → Option Verdict
  | .responded _ _ verdict => some verdict
  | _ => none

def Phase.verdict? : Phase → Option Verdict
  | .checked verdict => some verdict
  | .operating verdict => some verdict
  | .forbidden verdict _ => some verdict
  | .returned verdict _ _ => some verdict
  | _ => none

def Phase.sent : Phase → Bool
  | .reviewing _ => true
  | .responded _ _ _ => true
  | _ => false

def Service.Sent (service : Service) (id : Nat) : Prop :=
  (service.call id).sent = true ∨ service.result id ≠ none

theorem Program.settle_verdict (program : Program) (verdict : Verdict) :
    (program.settle verdict).verdict? = some verdict := by
  cases program with
  | Check => rfl
  | Refresh => rfl
  | Revalidate kind => rfl
  | Guard kind =>
    unfold Program.settle
    dsimp only
    split <;> rfl

theorem afterOperation_verdict (verdict : Verdict) (now : Nat) (err : Option PublicError) :
    ∃ later, (afterOperation verdict now err).verdict? = some later ∧
      later.review = verdict.review ∧ later.interrupted = verdict.interrupted := by
  unfold afterOperation
  split
  · split
    · exact ⟨_, rfl, rfl, rfl⟩
    · exact ⟨_, rfl, rfl, rfl⟩
  · split
    · exact ⟨_, rfl, rfl, rfl⟩
    · exact ⟨_, rfl, rfl, rfl⟩

variable {phase : Phase}

theorem revision?_eq_none_of_verdict? (h : phase.verdict?.isSome = true) :
    phase.revision? = none := by
  cases phase <;> simp_all [Phase.verdict?, Phase.revision?]

theorem response?_eq_none_of_verdict? (h : phase.verdict?.isSome = true) :
    phase.response? = none := by
  cases phase <;> simp_all [Phase.verdict?, Phase.response?]

theorem sent_eq_false_of_verdict? (h : phase.verdict?.isSome = true) :
    phase.sent = false := by
  cases phase <;> simp_all [Phase.verdict?, Phase.sent]

/-! ## Flights -/

section Flights

variable (request : Nat → Request)

structure Inv (service : Service) : Prop where
  flight : ∀ {flight id}, service.inflight flight = some id →
    (request id).key = flight.key ∧ (service.call id).revision? = some flight.revision
  current : ∀ {id revision}, (service.call id).revision? = some revision →
    revision.le (service.revisionLocked (request id).key)
  past : ∀ {id}, service.result id ≠ none → (service.call id).verdict?.isSome = true
  own : ∀ {id verdict}, service.result id = some verdict → verdict.review = some id
  response : ∀ {id verdict}, (service.call id).response? = some verdict →
    verdict.review = some id ∧ (verdict.interrupted = true → service.canceled id = true)

end Flights

variable {request : Nat → Request} {service : Service}

theorem Service.New.inv (h : service.New) : Inv request service where
  flight hflight := by
    rw [h.inflight] at hflight
    cases hflight
  current hcall := by
    rw [h.call] at hcall
    cases hcall
  past hresult := absurd (h.result _) hresult
  own hresult := by
    rw [h.result] at hresult
    cases hresult
  response hcall := by
    rw [h.call] at hcall
    cases hcall

namespace Inv

variable (h : Inv request service)
include h

variable {id : Nat}

theorem result_eq_none (hcall : (service.call id).verdict? = none) : service.result id = none := by
  by_contra hresult
  have hpast := h.past hresult
  rw [hcall] at hpast
  cases hpast

theorem frame {next : Service} (hinflight : next.inflight = service.inflight)
    (hcall : next.call = service.call) (hresult : next.result = service.result)
    (hcanceled : ∀ id, service.canceled id = true → next.canceled id = true)
    (hstamp : ∀ key, (service.revisionLocked key).le (next.revisionLocked key)) :
    Inv request next where
  flight hflight := by
    rw [hinflight] at hflight
    rw [hcall]
    exact h.flight hflight
  current hrevision := by
    rw [hcall] at hrevision
    exact RevisionStamp.le_trans (h.current hrevision) (hstamp _)
  past hpast := by
    rw [hresult] at hpast
    rw [hcall]
    exact h.past hpast
  own hown := h.own (hresult ▸ hown)
  response hresponse := by
    rw [hcall] at hresponse
    have ⟨hreview, hinterrupted⟩ := h.response hresponse
    exact ⟨hreview, fun hflag => hcanceled _ (hinterrupted hflag)⟩

theorem setCall (hrevision : phase.revision? = (service.call id).revision?)
    (hpast : (service.call id).verdict?.isSome = true → phase.verdict?.isSome = true)
    (hresponse : ∀ verdict, phase.response? = some verdict →
      verdict.review = some id ∧ (verdict.interrupted = true → service.canceled id = true)) :
    Inv request (service.setCall id phase) := by
  have hcall : ∀ other, ((service.setCall id phase).call other).revision? =
      (service.call other).revision? := update_same service.call (·.revision?) hrevision
  refine ⟨?_, ?_, ?_, h.own, ?_⟩
  · intro flight other hflight
    rw [hcall]
    exact h.flight hflight
  · intro other revision hother
    rw [hcall] at hother
    exact h.current hother
  · intro other hresult
    exact imp_update service.call (·.verdict?.isSome = true) hpast other (h.past hresult)
  · intro other verdict hother
    rcases update_cases service.call (fun phase => phase.response? = _) hother with
      ⟨rfl, hnew⟩ | ⟨-, hold⟩
    · exact hresponse _ hnew
    · exact h.response hold

theorem move (hbefore : (service.call id).verdict? = none)
    (hrevision : phase.revision? = (service.call id).revision?)
    (hresponse : ∀ verdict, phase.response? = some verdict →
      verdict.review = some id ∧ (verdict.interrupted = true → service.canceled id = true)) :
    Inv request (service.setCall id phase) := by
  refine h.setCall hrevision ?_ hresponse
  intro hpast
  rw [hbefore] at hpast
  cases hpast

theorem moveQuiet (hbefore : (service.call id).verdict? = none)
    (hrevision : phase.revision? = (service.call id).revision?) (hquiet : phase.response? = none) :
    Inv request (service.setCall id phase) := by
  apply h.move hbefore hrevision
  intro verdict hverdict
  rw [hquiet] at hverdict
  cases hverdict

theorem proceed (hbefore : (service.call id).verdict?.isSome = true)
    (hafter : phase.verdict?.isSome = true) : Inv request (service.setCall id phase) := by
  refine h.setCall ?_ (fun _ => hafter) ?_
  · rw [revision?_eq_none_of_verdict? hbefore, revision?_eq_none_of_verdict? hafter]
  · intro verdict hverdict
    rw [response?_eq_none_of_verdict? hafter] at hverdict
    cases hverdict

theorem dropCached (key : Key) : Inv request (service.dropCached key) :=
  h.frame rfl rfl rfl (fun _ hid => hid) fun _ => RevisionStamp.le_refl _

theorem lead (hbefore : (service.call id).verdict? = none)
    (hnone : (service.call id).revision? = none) :
    Inv request (service.lead id
      ⟨(request id).key, service.revisionLocked (request id).key⟩) := by
  refine ⟨?_, ?_, ?_, h.own, ?_⟩
  · intro flight other hflight
    replace hflight : update service.inflight _ (some id) flight = some other := hflight
    show _ ∧ (update service.call id _ other).revision? = _
    by_cases heq : flight = ⟨(request id).key, service.revisionLocked (request id).key⟩
    · subst heq
      rw [update_self] at hflight
      cases hflight
      rw [update_self]
      exact ⟨rfl, rfl⟩
    · rw [update_of_ne heq] at hflight
      have ⟨hkey, hrevision⟩ := h.flight hflight
      refine ⟨hkey, ?_⟩
      by_cases hother : other = id
      · -- the call had no flight before
        subst hother
        rw [hnone] at hrevision
        cases hrevision
      · rw [update_of_ne hother]
        exact hrevision
  · intro other revision hother
    rcases update_cases service.call (fun phase => phase.revision? = some revision) hother with
      ⟨rfl, hnew⟩ | ⟨-, hold⟩
    · cases hnew
      exact RevisionStamp.le_refl _
    · exact h.current hold
  · intro other hresult
    have hother : other ≠ id := by
      rintro rfl
      exact hresult (h.result_eq_none hbefore)
    show (update service.call id _ other).verdict?.isSome = true
    rw [update_of_ne hother]
    exact h.past hresult
  · intro other verdict hother
    exact h.response (of_update service.call (fun phase => phase.response? = _) hother nofun)

theorem enter {now : Nat} (hphase : service.call id = .started now) :
    Inv request (service.enter id (request id) now) := by
  have hbefore : (service.call id).verdict? = none := by
    rw [hphase]
    rfl
  have hnone : (service.call id).revision? = none := by
    rw [hphase]
    rfl
  have hdropped := h.dropCached (request id).key
  unfold Service.enter
  split
  · exact h.moveQuiet hbefore hnone.symm rfl
  · dsimp only
    split
    · exact hdropped.moveQuiet hbefore hnone.symm rfl
    · exact hdropped.lead hbefore hnone

theorem publish {revision : RevisionStamp} {response : Response} {verdict : Verdict}
    (hphase : service.call id = .responded revision response verdict) :
    Inv request (service.publish id (request id).key revision response verdict) := by
  refine ⟨?_, ?_, ?_, ?_, ?_⟩
  · intro flight other hflight
    replace hflight : update service.inflight ⟨(request id).key, revision⟩ none flight =
      some other := hflight
    by_cases heq : flight = ⟨(request id).key, revision⟩
    · rw [heq, update_self] at hflight
      cases hflight
    · rw [update_of_ne heq] at hflight
      have ⟨hkey, hrevision⟩ := h.flight hflight
      -- a call has one flight only, and the one of this call is gone
      have hother : other ≠ id := by
        rintro rfl
        rw [hphase] at hrevision
        cases hrevision
        exact heq (by rw [hkey])
      refine ⟨hkey, ?_⟩
      show (update service.call id _ other).revision? = _
      rw [update_of_ne hother]
      exact hrevision
  · intro other stamp hother
    exact h.current (of_update service.call (·.revision? = some stamp) hother nofun)
  · intro other hresult
    show (update service.call id _ other).verdict?.isSome = true
    by_cases hne : other = id
    · rw [hne, update_self]
      rfl
    · rw [update_of_ne hne]
      exact h.past fun hnone => hresult (by
        show update service.result id _ other = none
        rw [update_of_ne hne, hnone])
  · intro other found hfound
    rcases update_cases service.result (· = some found) hfound with ⟨rfl, hnew⟩ | ⟨-, hold⟩
    · cases hnew
      exact (h.response (by rw [hphase]; rfl)).1
    · exact h.own hold
  · intro other found hother
    exact h.response (of_update service.call (·.response? = some found) hother nofun)

theorem invalidateKey (key : Key) : Inv request (service.invalidateKey key) :=
  h.frame rfl rfl rfl (fun _ hid => hid) fun other => service.revisionLocked_le_key other key

end Inv

theorem Step.inv {validation : Validation} {ttl : Nat} {next : Service} {action : Action}
    (h : Inv request service)
    (hstep : Step validation ttl request service action next) : Inv request next := by
  cases hstep with
  | advance duration =>
    exact h.frame rfl rfl rfl (fun _ hid => hid) fun _ => RevisionStamp.le_refl _
  | cancel id =>
    refine h.frame rfl rfl rfl ?_ fun _ => RevisionStamp.le_refl _
    exact fun _ => holds_update service.canceled (· = true) rfl
  | start hphase =>
    split
    · exact h.moveQuiet (by rw [hphase]; rfl) (by rw [hphase]; rfl) rfl
    · exact h.moveQuiet (by rw [hphase]; rfl) (by rw [hphase]; rfl) rfl
  | enter hphase => exact h.enter hphase
  | review hphase => exact h.moveQuiet (by rw [hphase]; rfl) (by rw [hphase]; rfl) rfl
  | respond response hphase =>
    apply h.move (by rw [hphase]; rfl) (by rw [hphase]; rfl)
    intro verdict heq
    cases heq
    exact ⟨rfl, nofun⟩
  | interrupt hphase hcanceled hcode =>
    apply h.move (by rw [hphase]; rfl) (by rw [hphase]; rfl)
    intro verdict heq
    cases heq
    exact ⟨rfl, fun _ => hcanceled⟩
  | publish hphase => exact h.publish hphase
  | wake hphase hresult => exact h.moveQuiet (by rw [hphase]; rfl) (by rw [hphase]; rfl) rfl
  | giveUp hphase hcanceled => exact h.moveQuiet (by rw [hphase]; rfl) (by rw [hphase]; rfl) rfl
  | settle hphase =>
    refine h.proceed ?_ ?_
    · rw [hphase]
      rfl
    · rw [Program.settle_verdict, Option.isSome_some]
  | @operate _ verdict err hphase =>
    refine h.proceed ?_ ?_
    · rw [hphase]
      rfl
    · have ⟨later, hlater, _⟩ := afterOperation_verdict verdict service.now err
      rw [hlater, Option.isSome_some]
  | @invalidateKey id _ _ hphase =>
    have hbefore : (service.call id).verdict?.isSome = true := by rw [hphase]; rfl
    exact (h.invalidateKey _).proceed hbefore rfl
  | invalidateGeneration generation =>
    exact h.frame rfl rfl rfl (fun _ hid => hid) fun key =>
      service.revisionLocked_le_generation key generation
  | invalidateAll =>
    exact h.frame rfl rfl rfl (fun _ hid => hid) fun key => service.revisionLocked_le_all key

end Kubepeep.Authorization
