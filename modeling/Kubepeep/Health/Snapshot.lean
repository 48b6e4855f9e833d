import Kubepeep.Lib.System

/-!
# Health snapshots

`CheckerSnapshotProvider` of `internal/api/snapshot.go`.  A call of `Snapshot` starts one goroutine
for every registered check and collects their results; a flag per component, shared by all calls,
keeps a check from running twice at a time.  Calls and goroutines run in any order.
-/

open List Function

namespace Kubepeep.Health

open Kubepeep.System

inductive ComponentStatus where
  | StatusHealthy
  | StatusDegraded
  | StatusUnhealthy
  | StatusUnknown
  deriving DecidableEq, Repr

inductive Component where
  | ComponentApplication
  | ComponentSQLite
  | ComponentKubeconfig
  | ComponentContext
  | ComponentCluster
  | ComponentMetrics
  deriving DecidableEq, Repr

def componentOrder : List Component :=
  [.ComponentApplication, .ComponentSQLite, .ComponentKubeconfig, .ComponentContext,
    .ComponentCluster, .ComponentMetrics]

structure ComponentState where
  status : ComponentStatus
  code : String
  message : String
  checkedAt : Option Nat
  deriving DecidableEq, Repr

/-- The checker itself is the environment of the steps below. -/
structure CheckDefinition where
  component : Component
  failureStatus : ComponentStatus
  failureCode : String
  failureMessage : String
  successMessage : String
  deriving DecidableEq, Repr

def validateCheckDefinition (definition : CheckDefinition) : Bool :=
  definition.successMessage != "" && definition.failureCode != "" &&
    definition.failureMessage != "" &&
    (definition.failureStatus == .StatusDegraded || definition.failureStatus == .StatusUnhealthy) &&
    ((definition.component != .ComponentApplication && definition.component != .ComponentSQLite) ||
      definition.failureStatus == .StatusUnhealthy)

def validateState (state : ComponentState) : Bool :=
  state.code != "" && state.message != ""

def checkFailureState (now : Nat) (definition : CheckDefinition) : ComponentState :=
  ⟨definition.failureStatus, definition.failureCode, definition.failureMessage, some now⟩

/-- How a check ends.  `late` is a context that was done before the check began. -/
inductive CheckOutcome where
  | ok
  | failed
  | panicked
  | late
  deriving DecidableEq, Repr

def runCheck (now : Nat) (definition : CheckDefinition) (outcome : CheckOutcome) :
    ComponentState :=
  if outcome = .ok then ⟨.StatusHealthy, "OK", definition.successMessage, some now⟩
  else checkFailureState now definition

/-- The goroutine of a check: `published` still has to run the deferred `finishCheck`. -/
inductive Goroutine where
  | idle
  | running (definition : CheckDefinition)
  | checked (state : ComponentState)
  | published
  deriving DecidableEq, Repr

/-- A call of `Snapshot`.  `checked` are the definitions it has read, `definitions` those that its
first loop has not reached yet. -/
structure Call where
  checked : List CheckDefinition
  definitions : List CheckDefinition
  components : Component → ComponentState
  pending : Component → Option CheckDefinition
  results : List (Component × ComponentState)
  goroutine : Component → Goroutine
  done : Bool
  returned : Bool

structure Provider where
  base : Component → ComponentState
  checks : Component → Option CheckDefinition
  inFlight : Component → Bool
  call : Nat → Option Call

variable (provider : Provider)

def Provider.setCall (id : Nat) (call : Call) : Provider :=
  { provider with call := update provider.call id (some call) }

variable (provider : Provider)

@[simp] theorem Provider.setCall_self (id : Nat) (call : Call) :
    (provider.setCall id call).call id = some call :=
  update_self ..

variable (call : Call)

theorem Provider.setCall_of_ne {id other : Nat}
    (h : other ≠ id) : (provider.setCall id call).call other = provider.call other :=
  update_of_ne h ..

def Provider.newCall : Call where
  checked := componentOrder.filterMap provider.checks
  definitions := componentOrder.filterMap provider.checks
  components := provider.base
  pending _ := none
  results := []
  goroutine _ := .idle
  done := false
  returned := false

namespace Call

def skip (now : Nat) (definition : CheckDefinition) (rest : List CheckDefinition) :
    Call :=
  { call with
    definitions := rest
    components := update call.components definition.component
      (checkFailureState now definition) }

def start (definition : CheckDefinition) (rest : List CheckDefinition) : Call :=
  { call with
    definitions := rest
    pending := update call.pending definition.component (some definition)
    goroutine := update call.goroutine definition.component (.running definition) }

def setGoroutine (component : Component) (goroutine : Goroutine) : Call :=
  { call with goroutine := update call.goroutine component goroutine }

def publish (component : Component) (state : ComponentState) : Call :=
  { call.setGoroutine component .published with results := call.results ++ [(component, state)] }

def receive (component : Component) (state : ComponentState)
    (rest : List (Component × ComponentState)) : Call :=
  match call.pending component with
  | none => { call with results := rest }
  | some _ =>
    { call with
      results := rest
      components := update call.components component state
      pending := update call.pending component none }

def timeout (now : Nat) : Call :=
  { call with
    components := fun component => match call.pending component with
      | none => call.components component
      | some definition => checkFailureState now definition
    returned := true }

def finish : Call :=
  { call with done := true, returned := true }

end Call

/-! ## Steps -/

inductive Action where
  | call (id : Nat)
  | begin (id now : Nat)
  | check (id : Nat) (component : Component) (outcome : CheckOutcome) (now : Nat)
  | publish (id : Nat) (component : Component)
  | finishCheck (id : Nat) (component : Component)
  | receive (id : Nat)
  | expire (id : Nat)
  | timeout (id now : Nat)
  | finish (id : Nat)
  | SetState (component : Component) (state : ComponentState)
  | SetChecker (definition : CheckDefinition)

inductive Step : Provider → Action → Provider → Prop where
  | call {provider : Provider} {id : Nat} :
    provider.call id = none → Step provider (.call id) (provider.setCall id provider.newCall)
  /-- `beginCheck` refuses, or is not asked. -/
  | skip {provider : Provider} {id now : Nat} {call : Call} {definition : CheckDefinition}
      {rest : List CheckDefinition} :
    provider.call id = some call → call.definitions = definition :: rest →
    call.done = true ∨ provider.inFlight definition.component = true →
    Step provider (.begin id now) (provider.setCall id (call.skip now definition rest))
  | start {provider : Provider} {id now : Nat} {call : Call} {definition : CheckDefinition}
      {rest : List CheckDefinition} :
    provider.call id = some call → call.definitions = definition :: rest →
    call.done = false → provider.inFlight definition.component = false →
    Step provider (.begin id now)
      { provider.setCall id (call.start definition rest) with
        inFlight := update provider.inFlight definition.component true }
  | check {provider : Provider} {id now : Nat} {component : Component} {outcome : CheckOutcome}
      {call : Call} {definition : CheckDefinition} :
    provider.call id = some call → call.goroutine component = .running definition →
    (outcome = .late → call.done = true) →
    Step provider (.check id component outcome now)
      (provider.setCall id
        (call.setGoroutine component (.checked (runCheck now definition outcome))))
  | publish {provider : Provider} {id : Nat} {component : Component} {call : Call}
      {state : ComponentState} :
    provider.call id = some call → call.goroutine component = .checked state →
    Step provider (.publish id component) (provider.setCall id (call.publish component state))
  | finishCheck {provider : Provider} {id : Nat} {component : Component} {call : Call} :
    provider.call id = some call → call.goroutine component = .published →
    Step provider (.finishCheck id component)
      { provider.setCall id (call.setGoroutine component .idle) with
        inFlight := update provider.inFlight component false }
  | receive {provider : Provider} {id : Nat} {call : Call} {component : Component}
      {state : ComponentState} {rest : List (Component × ComponentState)} :
    provider.call id = some call → call.definitions = [] → call.returned = false →
    (∃ other, call.pending other ≠ none) → call.results = (component, state) :: rest →
    Step provider (.receive id) (provider.setCall id (call.receive component state rest))
  /-- The deadline passes, or the caller cancels. -/
  | expire {provider : Provider} {id : Nat} {call : Call} :
    provider.call id = some call →
    Step provider (.expire id) (provider.setCall id { call with done := true })
  | timeout {provider : Provider} {id now : Nat} {call : Call} :
    provider.call id = some call → call.definitions = [] → call.returned = false →
    call.done = true → (∃ other, call.pending other ≠ none) →
    Step provider (.timeout id now) (provider.setCall id (call.timeout now))
  | finish {provider : Provider} {id : Nat} {call : Call} :
    provider.call id = some call → call.definitions = [] → call.returned = false →
    (∀ other, call.pending other = none) →
    Step provider (.finish id) (provider.setCall id call.finish)
  | SetState {provider : Provider} {component : Component} {state : ComponentState} :
    validateState state = true →
    Step provider (.SetState component state)
      { provider with base := update provider.base component state }
  | SetChecker {provider : Provider} {definition : CheckDefinition} :
    validateCheckDefinition definition = true →
    Step provider (.SetChecker definition)
      { provider with
        checks := update provider.checks definition.component (some definition) }

structure Start (provider : Provider) : Prop where
  checks : ∀ component definition, provider.checks component = some definition →
    definition.component = component ∧ validateCheckDefinition definition = true
  inFlight : ∀ component, provider.inFlight component = false
  call : ∀ id, provider.call id = none

/-! ## Healthy checks -/

/-- Every check returns nil before the deadline of its call. -/
def Prompt : Action → Prop
  | .check id _ outcome _ => outcome = .ok ∧
    ∀ call, provider.call id = some call → call.done = false
  | _ => True

/-- The check that a call is about to begin is not in flight, and no context is done before its call
has received the results of all its checks. -/
def Undisturbed : Action → Prop
  | .begin id _ => ∀ call definition rest, provider.call id = some call →
    call.definitions = definition :: rest → provider.inFlight definition.component = false
  | .expire id => ∀ call, provider.call id = some call →
    call.definitions = [] ∧ ∀ component, call.pending component = none
  | _ => True

/-- Every check of a call is still to begin, is pending, or has been found healthy. -/
structure CallInv (call : Call) : Prop where
  settled : call.done = true → call.definitions = [] ∧
    ∀ component, call.pending component = none
  goroutine : ∀ component state, call.goroutine component = .checked state →
    state.status = .StatusHealthy
  results : ∀ result ∈ call.results, result.2.status = .StatusHealthy
  accounted : ∀ definition ∈ call.checked, definition ∈ call.definitions ∨
    call.pending definition.component ≠ none ∨
    (call.components definition.component).status = .StatusHealthy
  returned : call.returned = true → call.done = true

def Inv : Prop :=
  ∀ id call, provider.call id = some call → CallInv call

theorem Inv.setCall {provider : Provider} (h : Inv provider) {id : Nat} {call : Call}
    (hcall : CallInv call) : Inv (provider.setCall id call) := by
  intro other found hfound
  by_cases hid : other = id
  · subst hid
    obtain rfl : call = found := Option.some.inj ((provider.setCall_self ..).symm.trans hfound)
    exact hcall
  · exact h other found ((provider.setCall_of_ne call hid).symm.trans hfound)

theorem CallInv.new : CallInv provider.newCall where
  settled h := nomatch h
  goroutine _ _ h := nomatch h
  results _ h := nomatch h
  accounted _ h := .inl h
  returned h := nomatch h

section

variable {call : Call} {definition : CheckDefinition} {rest : List CheckDefinition}
  {component : Component} {state : ComponentState}

section

variable (h : CallInv call)

include h

theorem CallInv.start (hdefinitions : call.definitions = definition :: rest) :
    CallInv (call.start definition rest) where
  settled hdone := absurd ((h.settled hdone).1.symm.trans hdefinitions) (cons_ne_nil _ _).symm
  goroutine other state hother := by
    by_cases hsame : other = definition.component
    · subst hsame
      simp [Call.start] at hother
    · exact h.goroutine other state ((update_of_ne hsame ..).symm.trans hother)
  results := h.results
  accounted other hother := by
    by_cases hsame : other.component = definition.component
    · exact .inr (.inl (by simp [Call.start, hsame]))
    rcases h.accounted other hother with hleft | hpending | hhealthy
    · rw [hdefinitions] at hleft
      rcases mem_cons.mp hleft with rfl | hleft
      · exact absurd rfl hsame
      · exact .inl hleft
    · exact .inr (.inl (by simpa [Call.start, hsame] using hpending))
    · exact .inr (.inr hhealthy)
  returned := h.returned

theorem CallInv.setGoroutine {goroutine : Goroutine}
    (hstate : ∀ state, goroutine = .checked state → state.status = .StatusHealthy) :
    CallInv (call.setGoroutine component goroutine) where
  settled := h.settled
  goroutine other state hother := by
    by_cases hsame : other = component
    · subst hsame
      exact hstate state ((update_self ..).symm.trans hother)
    · exact h.goroutine other state ((update_of_ne hsame ..).symm.trans hother)
  results := h.results
  accounted := h.accounted
  returned := h.returned

theorem CallInv.publish (hstate : call.goroutine component = .checked state) :
    CallInv (call.publish component state) := by
  have hpublished : CallInv (call.setGoroutine component .published) :=
    h.setGoroutine nofun
  refine ⟨h.settled, hpublished.goroutine, ?_, h.accounted, h.returned⟩
  intro result hresult
  rcases mem_append.mp hresult with hresult | hresult
  · exact h.results result hresult
  · obtain rfl := mem_singleton.mp hresult
    exact h.goroutine component state hstate

theorem CallInv.receive {rest : List (Component × ComponentState)}
    (hresults : call.results = (component, state) :: rest) :
    CallInv (call.receive component state rest) := by
  have hrest : ∀ result ∈ rest, result.2.status = .StatusHealthy := fun result hresult =>
    h.results result (hresults ▸ mem_cons_of_mem _ hresult)
  have hhealthy : state.status = .StatusHealthy :=
    h.results (component, state) (hresults ▸ mem_cons_self)
  unfold Call.receive
  split
  · exact ⟨h.settled, h.goroutine, hrest, h.accounted, h.returned⟩
  · next hpending =>
    refine ⟨fun hdone => absurd ((h.settled hdone).2 component) (by simp [hpending]), h.goroutine,
      hrest, fun other hother => ?_, h.returned⟩
    by_cases hsame : other.component = component
    · exact .inr (.inr (by simpa [hsame] using hhealthy))
    · simpa [hsame] using h.accounted other hother

theorem CallInv.finish (hdefinitions : call.definitions = [])
    (hpending : ∀ component, call.pending component = none) : CallInv call.finish where
  settled _ := ⟨hdefinitions, hpending⟩
  goroutine := h.goroutine
  results := h.results
  accounted := h.accounted
  returned _ := rfl

end

end

theorem Inv.step {provider next : Provider} {action : Action} (h : Inv provider)
    (hstep : Step provider action next) (hprompt : Prompt provider action)
    (hundisturbed : Undisturbed provider action) : Inv next := by
  cases hstep with
  | call => exact h.setCall (.new provider)
  | skip hcall hdefinitions hrefused =>
    -- neither reason to skip a check is met
    rcases hrefused with hdone | hflight
    · have hnone := ((h _ _ hcall).settled hdone).1
      exact absurd (hnone.symm.trans hdefinitions) (cons_ne_nil _ _).symm
    · exact absurd (hundisturbed _ _ _ hcall hdefinitions) (by simp [hflight])
  | start hcall hdefinitions => exact h.setCall ((h _ _ hcall).start hdefinitions)
  | check hcall hgoroutine =>
    refine h.setCall ((h _ _ hcall).setGoroutine fun state hstate => ?_)
    rw [show _ = CheckOutcome.ok from hprompt.1] at hstate
    cases hstate
    rfl
  | publish hcall hgoroutine => exact h.setCall ((h _ _ hcall).publish hgoroutine)
  | finishCheck hcall => exact h.setCall ((h _ _ hcall).setGoroutine nofun)
  | receive hcall _ _ _ hresults => exact h.setCall ((h _ _ hcall).receive hresults)
  | expire hcall =>
    have hcallInv := h _ _ hcall
    have hsettled := hundisturbed _ hcall
    exact h.setCall ⟨fun _ => hsettled, hcallInv.goroutine, hcallInv.results,
      hcallInv.accounted, fun _ => rfl⟩
  | timeout hcall _ _ hdone hpending =>
    -- nothing is pending once the context is done
    obtain ⟨component, hpending⟩ := hpending
    exact absurd (((h _ _ hcall).settled hdone).2 component) hpending
  | finish hcall hdefinitions _ hpending =>
    exact h.setCall ((h _ _ hcall).finish hdefinitions hpending)
  | SetState => exact h
  | SetChecker => exact h

/-- A call that has returned reports every component that it checked as healthy. -/
def Reports : Prop :=
  ∀ id call, provider.call id = some call → call.returned = true →
    ∀ definition ∈ call.checked,
      (call.components definition.component).status = .StatusHealthy

theorem Inv.reports {provider : Provider} (h : Inv provider) : Reports provider := by
  intro id call hcall hreturned definition hdefinition
  have hcallInv := h id call hcall
  obtain ⟨hdefinitions, hpending⟩ := hcallInv.settled (hcallInv.returned hreturned)
  rcases hcallInv.accounted definition hdefinition with hleft | hleft | hhealthy
  · rw [hdefinitions] at hleft
    exact absurd hleft not_mem_nil
  · exact absurd (hpending _) hleft
  · exact hhealthy

/-- In every run in which each check returns nil in time and no step is disturbed, every snapshot
that is returned reports the checked components as healthy. -/
theorem snapshots_healthy {start provider : Provider} {actions : List Action} (hstart : Start start)
    (hrun : Runs (fun provider action next =>
      Step provider action next ∧ Prompt provider action ∧ Undisturbed provider action)
      start actions provider) :
    Reports provider := by
  have hinit : Inv start := fun id call hcall =>
    absurd ((hstart.call id).symm.trans hcall) (by simp)
  have hinv : Inv provider :=
    hrun.invariant hinit fun h hstep => h.step hstep.1 hstep.2.1 hstep.2.2
  exact hinv.reports

/-! The check of SQLite. -/

def sqliteCheck : CheckDefinition :=
  ⟨.ComponentSQLite, .StatusUnhealthy, "SQLITE_UNAVAILABLE", "SQLite is unavailable.",
    "SQLite is ready."⟩

def sqliteProvider : Provider where
  base _ := ⟨.StatusUnknown, "NOT_CHECKED", "SQLite has not been checked.", none⟩
  checks component := if component = .ComponentSQLite then some sqliteCheck else none
  inFlight _ := false
  call _ := none

theorem sqliteProvider_start : Start sqliteProvider := by
  refine ⟨fun component definition h => ?_, fun _ => rfl, fun _ => rfl⟩
  have hcomponent : component = .ComponentSQLite ∧ sqliteCheck = definition := by
    simpa [sqliteProvider] using h
  obtain ⟨rfl, rfl⟩ := hcomponent
  exact ⟨rfl, by decide⟩

def SoundStep (action : Action) (next : Provider) : Prop :=
  Step provider action next ∧ Prompt provider action ∧ Undisturbed provider action

/-- Two calls one after the other; the context of the first is done once its check is received. -/
theorem snapshots_healthy_sqlite :
    ∃ provider, Runs SoundStep sqliteProvider [.call 0, .begin 0 1,
        .check 0 .ComponentSQLite .ok 2, .publish 0 .ComponentSQLite, .receive 0, .expire 0,
        .finish 0, .finishCheck 0 .ComponentSQLite, .call 1, .begin 1 3,
        .check 1 .ComponentSQLite .ok 4, .publish 1 .ComponentSQLite, .receive 1, .finish 1]
        provider ∧ Reports provider ∧ ∃ first second, provider.call 0 = some first ∧
          provider.call 1 = some second ∧ first.returned = true ∧ second.returned = true ∧
          first.checked = [sqliteCheck] ∧ second.checked = [sqliteCheck] := by
  have hlive : ∀ {call found : Call}, some call = some found → call.done = false →
      found.done = false := fun h hdone => Option.some.inj h ▸ hdone
  apply runs_with
  apply runs_cons ⟨.call rfl, trivial, trivial⟩
  apply runs_cons ⟨.start rfl rfl rfl rfl, trivial, fun _ _ _ hcall hdefinitions => by
    cases hcall; cases hdefinitions; rfl⟩
  apply runs_cons ⟨.check rfl rfl nofun, ⟨rfl, fun _ h => hlive h rfl⟩, trivial⟩
  apply runs_cons ⟨.publish rfl rfl, trivial, trivial⟩
  apply runs_cons ⟨.receive rfl rfl rfl ⟨.ComponentSQLite, nofun⟩ rfl, trivial, trivial⟩
  refine runs_cons ⟨.expire rfl, trivial, fun call hcall => ?_⟩ ?_
  · cases hcall
    exact ⟨rfl, fun component => by cases component <;> rfl⟩
  refine runs_cons ⟨.finish rfl rfl rfl fun component => ?_, trivial, trivial⟩ ?_
  · cases component <;> rfl
  apply runs_cons ⟨.finishCheck rfl rfl, trivial, trivial⟩
  apply runs_cons ⟨.call rfl, trivial, trivial⟩
  apply runs_cons ⟨.start rfl rfl rfl rfl, trivial, fun _ _ _ hcall hdefinitions => by
    cases hcall; cases hdefinitions; rfl⟩
  apply runs_cons ⟨.check rfl rfl nofun, ⟨rfl, fun _ h => hlive h rfl⟩, trivial⟩
  apply runs_cons ⟨.publish rfl rfl, trivial, trivial⟩
  apply runs_cons ⟨.receive rfl rfl rfl ⟨.ComponentSQLite, nofun⟩ rfl, trivial, trivial⟩
  refine runs_cons ⟨.finish rfl rfl rfl fun component => ?_, trivial, trivial⟩ ?_
  · cases component <;> rfl
  exact ⟨_, .nil _, fun hrun => ⟨snapshots_healthy sqliteProvider_start hrun, _, _, rfl, rfl, rfl,
    rfl, rfl, rfl⟩⟩

def PromptStep (action : Action) (next : Provider) : Prop :=
  Step provider action next ∧ Prompt provider action

/-- A second call begins after the first has returned and before the goroutine of its check has
released the flag. -/
theorem second_snapshot_unhealthy :
    Start sqliteProvider ∧ ∃ provider, Runs PromptStep sqliteProvider [.call 0, .begin 0 1,
        .check 0 .ComponentSQLite .ok 2, .publish 0 .ComponentSQLite, .receive 0, .finish 0,
        .call 1, .begin 1 3, .finish 1] provider ∧ ¬ Reports provider := by
  refine ⟨sqliteProvider_start, ?_⟩
  apply runs_cons ⟨.call rfl, trivial⟩
  apply runs_cons ⟨.start rfl rfl rfl rfl, trivial⟩
  apply runs_cons ⟨.check rfl rfl nofun, rfl, fun _ h => Option.some.inj h ▸ rfl⟩
  apply runs_cons ⟨.publish rfl rfl, trivial⟩
  apply runs_cons ⟨.receive rfl rfl rfl ⟨.ComponentSQLite, nofun⟩ rfl, trivial⟩
  refine runs_cons ⟨.finish rfl rfl rfl fun component => ?_, trivial⟩ ?_
  · cases component <;> rfl
  apply runs_cons ⟨.call rfl, trivial⟩
  apply runs_cons ⟨.skip rfl rfl (.inr rfl), trivial⟩
  apply runs_cons ⟨.finish rfl rfl rfl fun _ => rfl, trivial⟩
  refine ⟨_, .nil _, fun hreports => ?_⟩
  exact absurd (hreports 1 _ rfl rfl sqliteCheck List.mem_cons_self) (by decide)

end Kubepeep.Health
