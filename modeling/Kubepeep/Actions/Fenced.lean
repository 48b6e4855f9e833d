import Kubepeep.Actions.Guarded

/-!
# Mutations of an old generation

When a sweep has returned, no operation of a generation it covers runs or starts with a live
context, and an operation that ends behind the end of its generation does not report success.
-/

open List Bool Function

namespace Kubepeep.Actions.Guarded

open Kubepeep.System

variable {E : Type}

namespace Phase

def operation? : Phase E → Option Nat
  | .begun operation => some operation
  | .cleared operation => some operation
  | .running operation => some operation
  | .ended operation _ _ => some operation
  | .closing operation _ _ => some operation
  | .closed operation _ _ => some operation
  | _ => none

def isCleared : Phase E → Bool
  | .cleared _ => true
  | .running _ => true
  | _ => false

def isStale : Phase E → Bool
  | .ended _ stale _ => stale
  | .closing _ stale _ => stale
  | .closed _ stale _ => stale
  | .finished stale _ => stale
  | _ => false

def succeeds : Phase E → Bool
  | .closing _ _ err => err.isNone
  | .closed _ _ err => err.isNone
  | .finished _ err => err.isNone
  | _ => false

def isBegun : Phase E → Bool
  | .begun _ => true
  | _ => false

/-- The phases in which a sweep has to reach a mutation.  Behind a shutdown nothing registers, so
there the mutations that have registered are all that can run. -/
def exposed (phase : Phase E) : Scope → Bool
  | .older _ _ => phase.isCleared
  | .all => phase.isCleared || phase.isBegun

theorem exists_operation {phase : Phase E} {scope : Scope} (h : phase.exposed scope = true) :
    ∃ operation, phase.operation? = some operation := by
  cases phase with
  | begun operation | cleared operation | running operation => exact ⟨operation, rfl⟩
  | _ => cases scope <;> cases h

end Phase

def Sweep.scope? : Sweep → Option Scope
  | .sweeping scope _ => some scope
  | .returned scope => some scope
  | _ => none

def Sweep.pending : Sweep → List Nat
  | .sweeping _ pending => pending
  | _ => []

structure Inv (generation : Nat → String) (service : Service E) : Prop where
  row : ∀ {id operation}, (service.call id).operation? = some operation →
    service.operations.lookup operation = some ⟨generation id, id⟩
  bound : ∀ {operation row}, service.operations.lookup operation = some row →
    operation ≤ service.nextOperation
  seen : ∀ {id}, (service.call id).isCleared = true → generation id ∈ service.generations.seen
  stale : ∀ {id}, (service.call id).isStale = true →
    generation id ∈ service.generations.retired ∧ (service.call id).succeeds = false
  older : ∀ {sweep retired current}, (service.sweep sweep).scope? = some (.older retired current) →
    ∀ old ∈ retired, old ∈ service.generations.retired
  all : ∀ {sweep}, (service.sweep sweep).scope? = some .all → service.shutdown = true
  swept : ∀ {sweep scope id}, (service.sweep sweep).scope? = some scope →
    scope.covers (generation id) = true → (service.call id).exposed scope = true →
      service.canceled id = true ∨ id ∈ (service.sweep sweep).pending

variable {generation : Nat → String} {service : Service E}

theorem Service.New.inv (h : service.New) : Inv generation service where
  row hcall := by
    rw [h.call] at hcall
    cases hcall
  bound hrow := by
    rw [h.operations, AList.lookup_empty] at hrow
    cases hrow
  seen hcall := by
    rw [h.call] at hcall
    cases hcall
  stale hcall := by
    rw [h.call] at hcall
    cases hcall
  older hsweep := by
    rw [h.sweep] at hsweep
    cases hsweep
  all hsweep := by
    rw [h.sweep] at hsweep
    cases hsweep
  swept hsweep := by
    rw [h.sweep] at hsweep
    cases hsweep

variable {sweep : Nat}

theorem Inv.not_current (h : Inv generation service) {retired : List String}
    {current : String} {id : Nat}
    (hsweep : (service.sweep sweep).scope? = some (.older retired current))
    (hcovers : (Scope.older retired current).covers (generation id) = true) :
    service.generations.requireCurrent (generation id) = false := by
  rw [Scope.covers, and_eq_true, contains_iff_mem] at hcovers
  exact Generations.requireCurrent_of_mem_retired (h.older hsweep _ hcovers.1)

namespace Inv

variable (h : Inv generation service)
include h

theorem frame {next : Service E} (hoperations : next.operations = service.operations)
    (hnext : next.nextOperation = service.nextOperation) (hcall : next.call = service.call)
    (hsweep : next.sweep = service.sweep) (hshutdown : next.shutdown = service.shutdown)
    (hgenerations : service.generations.Le next.generations)
    (hcanceled : ∀ id, service.canceled id = true → next.canceled id = true) :
    Inv generation next where
  row hoperation := by
    rw [hcall] at hoperation
    rw [hoperations]
    exact h.row hoperation
  bound hrow := by
    rw [hoperations] at hrow
    rw [hnext]
    exact h.bound hrow
  seen hcleared := hgenerations.seen _ (h.seen (hcall ▸ hcleared))
  stale hstale := by
    rw [hcall] at hstale ⊢
    exact ⟨hgenerations.retired _ (h.stale hstale).1, (h.stale hstale).2⟩
  older hscope old hold := hgenerations.retired _ (h.older (hsweep ▸ hscope) old hold)
  all hscope := by
    rw [hsweep] at hscope
    rw [hshutdown]
    exact h.all hscope
  swept hscope hcovers hexposed := by
    rw [hsweep] at hscope ⊢
    rw [hcall] at hexposed
    rcases h.swept hscope hcovers hexposed with hdone | hpending
    · exact .inl (hcanceled _ hdone)
    · exact .inr hpending

theorem cancel (id : Nat) : Inv generation (service.cancel id) := by
  refine h.frame rfl rfl rfl rfl rfl (.refl _) ?_
  exact fun _ => holds_update service.canceled (· = true) rfl

variable {id : Nat} {phase : Phase E}

theorem setCall (hoperation : ∀ operation, phase.operation? = some operation →
      (service.call id).operation? = some operation)
    (hseen : phase.isCleared = true → generation id ∈ service.generations.seen)
    (hstale : phase.isStale = true →
      generation id ∈ service.generations.retired ∧ phase.succeeds = false)
    (hexposed : ∀ sweep scope, (service.sweep sweep).scope? = some scope →
      scope.covers (generation id) = true → phase.exposed scope = true →
        (service.call id).exposed scope = true) :
    Inv generation (service.setCall id phase) := by
  refine ⟨?_, h.bound, ?_, ?_, h.older, h.all, ?_⟩
  · intro other operation hcall
    rcases update_cases service.call (·.operation? = some operation) hcall with
      ⟨rfl, hnew⟩ | ⟨-, hold⟩
    · exact h.row (hoperation _ hnew)
    · exact h.row hold
  · intro other hcall
    rcases update_cases service.call (·.isCleared = true) hcall with ⟨rfl, hnew⟩ | ⟨-, hold⟩
    · exact hseen hnew
    · exact h.seen hold
  · intro other
    exact (forall_update_iff service.call fun other phase => phase.isStale = true →
      generation other ∈ service.generations.retired ∧ phase.succeeds = false).mpr
      ⟨hstale, fun _ _ => h.stale⟩ other
  · intro sweep scope other hscope hcovers hcall
    rcases update_cases service.call (·.exposed scope = true) hcall with ⟨rfl, hnew⟩ | ⟨-, hold⟩
    · exact h.swept hscope hcovers (hexposed sweep scope hscope hcovers hnew)
    · exact h.swept hscope hcovers hold

theorem leave (hoperation : ∀ operation, phase.operation? = some operation →
      (service.call id).operation? = some operation)
    (hexposed : phase.exposed .all = false)
    (hstale : phase.isStale = true →
      generation id ∈ service.generations.retired ∧ phase.succeeds = false) :
    Inv generation (service.setCall id phase) := by
  have hcleared : phase.isCleared = false := by
    rw [Phase.exposed, or_eq_false_iff] at hexposed
    exact hexposed.1
  refine h.setCall hoperation ?_ hstale ?_
  · intro hcall
    rw [hcleared] at hcall
    cases hcall
  · intro sweep scope _ _ hcall
    cases scope with
    | older retired current =>
      rw [Phase.exposed, hcleared] at hcall
      cases hcall
    | all =>
      rw [hexposed] at hcall
      cases hcall

theorem beginOperation (id : Nat) :
    Inv generation (service.beginOperation id (generation id)) := by
  unfold Service.beginOperation
  split
  case isTrue =>
    exact h.leave nofun rfl nofun
  case isFalse hopen =>
    refine ⟨?_, ?_, ?_, ?_, h.older, h.all, ?_⟩
    · intro other operation hcall
      refine Table.lookup_insert_eq_some_iff.mpr ?_
      rcases update_cases service.call (·.operation? = some operation) hcall with
        ⟨rfl, hnew⟩ | ⟨-, hold⟩
      · cases hnew
        exact .inl ⟨rfl, rfl⟩
      · have hrow := h.row hold
        exact .inr ⟨Nat.ne_of_lt (Nat.lt_succ_of_le (h.bound hrow)), hrow⟩
    · intro operation row hrow
      rcases Table.lookup_insert_eq_some_iff.mp hrow with ⟨rfl, _⟩ | ⟨_, hrow⟩
      · exact Nat.le_refl _
      · exact Nat.le_succ_of_le (h.bound hrow)
    · intro other hcall
      exact h.seen (of_update service.call (·.isCleared = true) hcall false_ne_true)
    · intro other
      exact (forall_update_iff service.call fun other phase => phase.isStale = true →
        generation other ∈ service.generations.retired ∧ phase.succeeds = false).mpr
        ⟨fun hstale => (by cases hstale), fun _ _ => h.stale⟩ other
    · intro sweep scope other hscope hcovers hcall
      rcases update_cases service.call (·.exposed scope = true) hcall with
        ⟨rfl, hnew⟩ | ⟨hne, hold⟩
      · -- an operation that has only registered concerns a shutdown, and there is none
        cases scope with
        | older retired current => cases hnew
        | all => exact absurd (h.all hscope) hopen
      · dsimp only
        rw [update_of_ne hne]
        exact h.swept hscope hcovers hold

variable {operation : Nat}

theorem check (hphase : service.call id = .begun operation) : Inv generation (service.setCall id
      (if service.generations.requireCurrent (generation id) then .cleared operation
        else .closing operation false (some .CodeGenerationChanged))) := by
  have hoperation : (service.call id).operation? = some operation := by
    rw [hphase]
    rfl
  split
  case isTrue hcurrent =>
    refine h.setCall ?_ ?_ nofun ?_
    · intro found hfound
      cases hfound
      exact hoperation
    · intro _
      rw [← Generations.eq_of_requireCurrent hcurrent]
      exact List.mem_cons_self
    · intro sweep scope hscope hcovers _
      cases scope with
      | older retired current =>
        rw [h.not_current hscope hcovers] at hcurrent
        cases hcurrent
      | all =>
        rw [hphase]
        rfl
  case isFalse =>
    refine h.leave ?_ rfl nofun
    intro found hfound
    cases hfound
    exact hoperation

theorem run (hphase : service.call id = .cleared operation) :
    Inv generation (service.setCall id (.running operation)) := by
  refine h.setCall ?_ ?_ nofun ?_
  · intro found hfound
    cases hfound
    rw [hphase]
    rfl
  · intro _
    apply h.seen
    rw [hphase]
    rfl
  · intro sweep scope _ _ _
    rw [hphase]
    cases scope <;> rfl

theorem complete (hphase : service.call id = .running operation) (err : Option E) :
    Inv generation (service.setCall id
      (.ended operation (service.generations.current != generation id) err)) := by
  refine h.leave ?_ rfl ?_
  · intro found hfound
    cases hfound
    rw [hphase]
    rfl
  · intro hstale
    have hne : generation id ≠ service.generations.current := (bne_iff_ne.mp hstale).symm
    have hseen : generation id ∈ service.generations.seen := by
      apply h.seen
      rw [hphase]
      rfl
    exact ⟨(List.mem_cons.mp hseen).resolve_left hne, rfl⟩

theorem recheck {stale : Bool} {err : Option E}
    (hphase : service.call id = .ended operation stale err) :
    Inv generation (service.setCall id (.closing operation stale
      (if service.generations.requireCurrent (generation id) then err.map .operation
        else some .CodeGenerationChanged))) := by
  refine h.leave ?_ rfl ?_
  · intro found hfound
    cases hfound
    rw [hphase]
    rfl
  · intro hstale
    -- a stale operation belongs to a retired generation, which the second check refuses
    have hretired : generation id ∈ service.generations.retired := by
      refine (h.stale ?_).1
      rw [hphase]
      exact hstale
    refine ⟨hretired, ?_⟩
    rw [Generations.requireCurrent_of_mem_retired hretired]
    rfl

theorem unregister {stale : Bool} {err : Option (ActionError E)}
    (hphase : service.call id = .closed operation stale err) :
    Inv generation (service.unregister id operation stale err) := by
  have hfinished : Inv generation (service.setCall id (.finished stale err)) := by
    refine h.leave nofun rfl ?_
    intro hstale
    have hclosed := @h.stale id
    rw [hphase] at hclosed
    exact hclosed hstale
  have hrow := h.row (by rw [hphase]; rfl : (service.call id).operation? = some operation)
  refine ⟨?_, ?_, hfinished.seen, hfinished.stale, h.older, h.all, hfinished.swept⟩
  · intro other found hcall
    have hfound := hfinished.row hcall
    refine Table.lookup_erase_eq_some_iff.mpr ⟨?_, hfound⟩
    -- two mutations have not registered under one number
    rintro rfl
    have hid : id = other :=
      congrArg GenerationOperation.mutation (Option.some.inj (hrow.symm.trans hfound))
    subst hid
    replace hcall : (update service.call id _ id).operation? = some found := hcall
    rw [update_self] at hcall
    cases hcall
  · intro found row hfound
    exact h.bound (Table.lookup_erase_eq_some_iff.mp hfound).2

theorem setSweep {phase : Sweep}
    (holder : ∀ retired current, phase.scope? = some (.older retired current) →
      ∀ old ∈ retired, old ∈ service.generations.retired)
    (hall : phase.scope? = some .all → service.shutdown = true)
    (hswept : ∀ scope id, phase.scope? = some scope → scope.covers (generation id) = true →
      (service.call id).exposed scope = true →
        service.canceled id = true ∨ id ∈ phase.pending) :
    Inv generation (service.setSweep sweep phase) := by
  refine ⟨h.row, h.bound, h.seen, h.stale, ?_, ?_, ?_⟩
  · intro other retired current
    exact holds_update service.sweep (fun phase => phase.scope? = some (.older retired current) →
      ∀ old ∈ retired, old ∈ service.generations.retired) (holder _ _) h.older
  · intro other
    exact holds_update service.sweep (fun phase => phase.scope? = some .all →
      service.shutdown = true) hall h.all
  · intro other scope id
    exact holds_update service.sweep (fun phase => phase.scope? = some scope →
      scope.covers (generation id) = true → (service.call id).exposed scope = true →
        service.canceled id = true ∨ id ∈ phase.pending) (hswept _ _) h.swept

variable {scope : Scope}

theorem mem_sweepable (keep : String → Bool) (hexposed : (service.call id).exposed scope = true)
    (hkeep : keep (generation id) = false) : id ∈ service.sweepable keep := by
  have ⟨operation, hoperation⟩ := Phase.exists_operation hexposed
  have hrow := Table.lookup_eq_some_iff.mp (h.row hoperation)
  refine mem_map.mpr ⟨⟨operation, generation id, id⟩, mem_filter.mpr ⟨hrow, ?_⟩, rfl⟩
  show (!keep (generation id)) = true
  rw [hkeep]
  rfl

theorem onGeneration (sweep : Nat) (current : String) :
    Inv generation (service.OnGeneration sweep current) := by
  refine h.setSweep ?_ nofun ?_
  · intro retired found hscope
    cases hscope
    exact fun _ hold => hold
  · intro scope id hscope hcovers hcall
    cases hscope
    right
    rw [Scope.covers, and_eq_true] at hcovers
    exact h.mem_sweepable (· == current) hcall
      (beq_eq_false_iff_ne.mpr (bne_iff_ne.mp hcovers.2))

theorem shutdown (sweep : Nat) : Inv generation (service.Shutdown sweep) := by
  unfold Service.Shutdown
  split
  case isTrue => exact h.setSweep nofun nofun nofun
  case isFalse hopen =>
    have hclosed : Inv generation { service with shutdown := true } :=
      ⟨h.row, h.bound, h.seen, h.stale, h.older, fun _ => rfl, h.swept⟩
    refine hclosed.setSweep nofun (fun _ => rfl) ?_
    intro scope id hscope _ hcall
    cases hscope
    exact .inr (h.mem_sweepable (fun _ => false) hcall rfl)

theorem advance {phase : Sweep} (hscope : (service.sweep sweep).scope? = some scope)
    (hphase : phase.scope? = some scope)
    (hswept : ∀ id, scope.covers (generation id) = true → (service.call id).exposed scope = true →
      service.canceled id = true ∨ id ∈ phase.pending) :
    Inv generation (service.setSweep sweep phase) := by
  refine h.setSweep ?_ ?_ ?_
  · exact fun _ _ hsame => h.older (hscope.trans (hphase.symm.trans hsame))
  · exact fun hsame => h.all (hscope.trans (hphase.symm.trans hsame))
  · intro found id hsame
    cases hphase.symm.trans hsame
    exact hswept id

theorem cancelNext {sweep mutation : Nat} {pending : List Nat}
    (hphase : service.sweep sweep = .sweeping scope (mutation :: pending)) :
    Inv generation
      ((service.cancel mutation).setSweep sweep (.sweeping scope pending)) := by
  have hscope : (service.sweep sweep).scope? = some scope := by
    rw [hphase]
    rfl
  refine (h.cancel mutation).advance hscope rfl ?_
  intro id hcovers hcall
  show update service.canceled mutation true id = true ∨ id ∈ pending
  by_cases hid : id = mutation
  · rw [hid, update_self]
    exact .inl rfl
  · rw [update_of_ne hid]
    have hswept := h.swept hscope hcovers hcall
    rw [hphase] at hswept
    exact hswept.imp_right fun hmem => (mem_cons.mp hmem).resolve_left hid

theorem returnSweep (hphase : service.sweep sweep = .sweeping scope []) :
    Inv generation (service.setSweep sweep (.returned scope)) := by
  have hscope : (service.sweep sweep).scope? = some scope := by
    rw [hphase]
    rfl
  refine h.advance hscope rfl fun id hcovers hcall => ?_
  have hswept := h.swept hscope hcovers hcall
  rwa [hphase] at hswept

end Inv

theorem Step.inv {next : Service E} {action : Action E} (h : Inv generation service)
    (hstep : Step generation service action next) : Inv generation next := by
  cases hstep with
  | rotate next hfresh =>
    exact h.frame rfl rfl rfl rfl rfl (Generations.le_rotate next hfresh) fun _ hid => hid
  | abandon id => exact (h.cancel id).frame rfl rfl rfl rfl rfl (.refl _) fun _ hid => hid
  | expire id => exact h.cancel id
  | start hphase => exact h.leave nofun rfl nofun
  | refuse hphase => exact h.leave nofun rfl nofun
  | permit hphase => exact h.leave nofun rfl nofun
  | withdraw hphase habandoned => exact h.leave nofun rfl nofun
  | enter hphase => exact h.beginOperation _
  | check hphase => exact h.check hphase
  | run hphase => exact h.run hphase
  | complete err hphase => exact h.complete hphase err
  | recheck hphase => exact h.recheck hphase
  | @close id operation stale err hphase =>
    refine (h.cancel id).leave ?_ rfl ?_
    · intro found hfound
      cases hfound
      show (service.call id).operation? = some operation
      rw [hphase]
      rfl
    · intro hstale
      have hclosing := @h.stale id
      rw [hphase] at hclosing
      exact hclosing hstale
  | unregister hphase => exact h.unregister hphase
  | onGeneration current hphase hseen => exact h.onGeneration _ current
  | shutdown hphase => exact h.shutdown _
  | cancelNext hphase => exact h.cancelNext hphase
  | returnSweep hphase => exact h.returnSweep hphase

/-! ## Runs -/

structure Guarantees (generation : Nat → String) (service : Service E) : Prop where
  /-- No operation that a returned sweep covers runs with a live context. -/
  running : ∀ {sweep scope id operation}, service.sweep sweep = .returned scope →
    scope.covers (generation id) = true → service.call id = .running operation →
      service.canceled id = true
  /-- None starts with a live context. -/
  starting : ∀ {sweep scope id next}, service.sweep sweep = .returned scope →
    scope.covers (generation id) = true → Step generation service (.run id) next →
      next.canceled id = true
  /-- A mutation whose operation has ended behind its generation reports no success. -/
  success : ∀ {id stale}, service.call id = .finished stale none → stale = false

theorem Inv.canceled_of_returned (h : Inv generation service) {sweep id : Nat} {scope : Scope}
    (hsweep : service.sweep sweep = .returned scope) (hcovers : scope.covers (generation id) = true)
    (hexposed : (service.call id).exposed scope = true) : service.canceled id = true := by
  have hswept := h.swept (by rw [hsweep]; rfl) hcovers hexposed
  rw [hsweep] at hswept
  exact hswept.resolve_right not_mem_nil

/-- Every interleaving of mutations with changes of the generation and with shutdowns. -/
theorem guarded_guarantees {initial final : Service E} {actions : List (Action E)}
    (hnew : initial.New) (hruns : Runs (Step generation) initial actions final) :
    Guarantees generation final := by
  have h : Inv generation final := hruns.invariant hnew.inv fun h hstep => hstep.inv h
  refine ⟨?_, ?_, ?_⟩
  · intro sweep scope id operation hsweep hcovers hphase
    apply h.canceled_of_returned hsweep hcovers
    rw [hphase]
    cases scope <;> rfl
  · intro sweep scope id next hsweep hcovers hstep
    cases hstep with
    | run hphase =>
      apply h.canceled_of_returned hsweep hcovers
      rw [hphase]
      cases scope <;> rfl
  · intro id stale hphase
    by_contra hstale
    have hfinished := @h.stale id
    rw [hphase] at hfinished
    have hsuccess := (hfinished (Bool.not_eq_false _ ▸ hstale)).2
    cases hsuccess

/-! ## Three runs -/

def firstService : Service String where
  generations := ⟨"g1", [], List.not_mem_nil⟩
  shutdown := false
  nextOperation := 0
  operations := ∅
  call _ := .idle
  abandoned _ := false
  canceled _ := false
  sweep _ := .idle

theorem firstService_new : firstService.New :=
  ⟨rfl, rfl, fun _ => rfl, fun _ => rfl⟩

/-- The operation starts when the sweep for the next generation has returned, with a context that is
done. -/
theorem guarded_guarantees_overtaken : ∃ final,
    Runs (Step fun _ => "g1") firstService [.start 0, .permit 0, .enter 0, .check 0, .rotate "g2",
      .onGeneration 0 "g2", .cancelNext 0, .returnSweep 0, .run 0] final ∧
    Guarantees (fun _ => "g1") final ∧ final.call 0 = .running 1 ∧
    final.sweep 0 = .returned (.older ["g1"] "g2") ∧ final.canceled 0 = true := by
  apply runs_with
  apply runs_cons (.start rfl)
  apply runs_cons (.permit rfl)
  apply runs_cons (.enter rfl)
  apply runs_cons (.check rfl)
  apply runs_cons (.rotate "g2" (by decide))
  apply runs_cons (.onGeneration "g2" rfl (by decide))
  apply runs_cons (.cancelNext rfl)
  apply runs_cons (.returnSweep rfl)
  apply runs_cons (.run rfl)
  refine ⟨_, .nil _, fun hruns => ?_⟩
  have hguarantees := guarded_guarantees firstService_new hruns
  exact ⟨hguarantees, rfl, rfl,
    @hguarantees.running 0 (.older ["g1"] "g2") 0 1 rfl rfl rfl⟩

/-- An operation can start behind the return of `OnGeneration`, a `Shutdown` that finds the service
shut down returns while an operation runs with a live context, and a mutation whose last check has
passed reports success although its generation has ended before it returns. -/
theorem guarded_windows :
    (∃ before final, Runs (Step fun _ => "g1") firstService [.start 0, .permit 0, .enter 0,
        .check 0, .rotate "g2", .onGeneration 0 "g2", .cancelNext 0, .returnSweep 0] before ∧
      before.sweep 0 = .returned (.older ["g1"] "g2") ∧
      Step (fun _ => "g1") before (.run 0) final) ∧
    (∃ final, Runs (Step fun _ => "g1") firstService [.start 0, .permit 0, .enter 0, .check 0,
        .run 0, .shutdown 0, .shutdown 1] final ∧
      final.sweep 1 = .early ∧ final.call 0 = .running 1 ∧ final.canceled 0 = false) ∧
    (∃ final, Runs (Step fun _ => "g1") firstService [.start 0, .permit 0, .enter 0, .check 0,
        .run 0, .complete 0 none, .recheck 0, .rotate "g2", .close 0, .unregister 0] final ∧
      final.call 0 = .finished false none ∧ final.generations.current = "g2") := by
  refine ⟨?_, ?_, ?_⟩
  · simp only [exists_and_left]
    apply runs_cons (.start rfl)
    apply runs_cons (.permit rfl)
    apply runs_cons (.enter rfl)
    apply runs_cons (.check rfl)
    apply runs_cons (.rotate "g2" (by decide))
    apply runs_cons (.onGeneration "g2" rfl (by decide))
    apply runs_cons (.cancelNext rfl)
    apply runs_cons (.returnSweep rfl)
    exact ⟨_, .nil _, rfl, _, .run rfl⟩
  · apply runs_cons (.start rfl)
    apply runs_cons (.permit rfl)
    apply runs_cons (.enter rfl)
    apply runs_cons (.check rfl)
    apply runs_cons (.run rfl)
    apply runs_cons (.shutdown rfl)
    apply runs_cons (.shutdown rfl)
    exact ⟨_, .nil _, rfl, rfl, rfl⟩
  · apply runs_cons (.start rfl)
    apply runs_cons (.permit rfl)
    apply runs_cons (.enter rfl)
    apply runs_cons (.check rfl)
    apply runs_cons (.run rfl)
    apply runs_cons (.complete none rfl)
    apply runs_cons (.recheck rfl)
    apply runs_cons (.rotate "g2" (by decide))
    apply runs_cons (.close rfl)
    apply runs_cons (.unregister rfl)
    exact ⟨_, .nil _, rfl, rfl⟩

end Kubepeep.Actions.Guarded
