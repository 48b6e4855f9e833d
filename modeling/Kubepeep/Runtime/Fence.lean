import Kubepeep.Runtime.Lease
import Kubepeep.Lib.System

/-!
# Calls for an old generation

The check of `leaseFor` and its activation are not one critical section.  A call that enters the
cache only while the binding still has its generation leaves the leases of later ones alone, even
when its build ends much later.
-/

open Nat Function

namespace Kubepeep.Runtime

open Kubepeep.Kubernetes Kubepeep.Selection Kubepeep.System

def Stage.ticket? : Stage → Option Ticket
  | .building ticket | .waiting ticket => some ticket
  | _ => none

def Stage.lease? : Stage → Option Lease
  | .activated (.ok lease) | .adopted lease => some lease
  | _ => none

namespace World

/-- A `leaseFor` enters or invalidates the cache only while the binding has its generation. -/
def Fenced (world : World) : Action → Prop
  | .invalidate id | .enter id => ∀ call, world.call id = some call → call.job = .leaseFor →
    world.binding.generation = call.binding.generation
  | _ => True

/-- A lease that a call has got from the cache for a generation, published or not. -/
def Holds (world : World) (generation : String) (lease : Lease) : Prop :=
  (generation, lease) ∈ world.published ∨ ∃ id call, world.call id = some call ∧
    call.binding.generation = generation ∧ call.stage.lease? = some lease

end World

structure Inv (digest : List String → String) (generations : Nat → String) (world : World) :
    Prop where
  empty : world.binding.generation = "" ∧ world.issued = 0 ∧ world.candidate = none ∨
    world.binding.generation = generations world.issued
  call : ∀ {id call}, world.call id = some call →
    ∃ index ≤ world.issued, call.binding.generation = generations index
  published : ∀ {generation lease}, (generation, lease) ∈ world.published →
    ∃ index ≤ world.issued, generation = generations index
  follows : ∀ {id call ticket}, world.call id = some call → call.stage.ticket? = some ticket →
    world.cache.Follows digest ticket
  -- the ticket of an old `leaseFor` that still counts has the key of every later lease
  owner : ∀ {id call ticket}, world.call id = some call → call.job = .leaseFor →
    call.stage.ticket? = some ticket → ticket.activation = world.cache.activationSeq →
    ∀ {older newer lease}, call.binding.generation = generations older → older < newer →
    world.Holds (generations newer) lease →
    lease.descriptor.CacheKey digest = ticket.buildKey.key

variable {digest : List String → String} {generations : Nat → String} {world next : World}
  {id : Nat}

theorem World.new_inv : Inv digest generations World.new where
  empty := .inl ⟨rfl, rfl, rfl⟩
  call := nofun
  published := nofun
  follows := nofun
  owner := nofun

namespace Inv

theorem holds (h : Inv digest generations world) {generation : String} {lease : Lease}
    (hholds : world.Holds generation lease) :
    ∃ index ≤ world.issued, generation = generations index := by
  rcases hholds with hpublished | ⟨id, call, hcall, rfl, _⟩
  · exact h.published hpublished
  · exact h.call hcall

/-- How a call is related to the one before a step: it begins, or it has its ticket from before or
from the cache under the fence, and its lease from before or from the cache. -/
inductive Moves (digest : List String → String) (generations : Nat → String) (world next : World)
    (id : Nat) (moved : Call) : Prop where
  | begun {index : Nat} : moved.stage = .checking → index ≤ next.issued →
    moved.binding.generation = generations index → Moves digest generations world next id moved
  | moved {call : Call} : world.call id = some call → moved.job = call.job →
    moved.binding = call.binding →
    (∀ ticket, moved.stage.ticket? = some ticket → call.stage.ticket? = some ticket ∨
      next.cache.Follows digest ticket ∧
        (moved.job = .leaseFor → next.binding.generation = moved.binding.generation)) →
    (∀ lease, moved.stage.lease? = some lease → call.stage.lease? = some lease ∨
      next.cache.active = some lease) →
    Moves digest generations world next id moved

theorem Moves.same {call : Call} (h : world.call id = some call) :
    Moves digest generations world next id call :=
  .moved h rfl rfl (fun _ hticket => .inl hticket) fun _ hlease => .inl hlease

theorem frame (hnew : Function.Injective generations) (hsome : ∀ index, generations index ≠ "")
    (h : Inv digest generations world) (hissued : world.issued ≤ next.issued)
    (hempty : next.binding.generation = "" ∧ next.issued = 0 ∧ next.candidate = none ∨
      next.binding.generation = generations next.issued)
    (hseq : world.cache.activationSeq ≤ next.cache.activationSeq)
    (hfollows : ∀ ticket, world.cache.Follows digest ticket → next.cache.Follows digest ticket)
    (hcall : ∀ {id moved}, next.call id = some moved →
      Moves digest generations world next id moved)
    (hpublished : ∀ {generation lease}, (generation, lease) ∈ next.published →
      world.Holds generation lease) :
    Inv digest generations next := by
  have hcalls : ∀ {id moved}, next.call id = some moved →
      ∃ index ≤ next.issued, moved.binding.generation = generations index := by
    intro id moved hmoved
    cases hcall hmoved with
    | begun _ hindex hgeneration => exact ⟨_, hindex, hgeneration⟩
    | moved hbefore _ hbinding _ _ =>
      have ⟨index, hindex, hgeneration⟩ := h.call hbefore
      exact ⟨index, le_trans hindex hissued, hbinding ▸ hgeneration⟩
  have hleases : ∀ {generation lease}, (generation, lease) ∈ next.published →
      ∃ index ≤ next.issued, generation = generations index := by
    intro generation lease hmem
    have ⟨index, hindex, hgeneration⟩ := h.holds (hpublished hmem)
    exact ⟨index, le_trans hindex hissued, hgeneration⟩
  have hholds : ∀ {generation lease}, next.Holds generation lease →
      world.Holds generation lease ∨ next.cache.active = some lease := by
    rintro generation lease (hmem | ⟨id, moved, hmoved, rfl, hlease⟩)
    · exact .inl (hpublished hmem)
    · cases hcall hmoved with
      | begun hstage _ _ =>
        rw [hstage] at hlease
        cases hlease
      | moved hbefore _ hbinding _ hgot =>
        rcases hgot _ hlease with hheld | hactive
        · exact .inl (.inr ⟨id, _, hbefore, by rw [hbinding], hheld⟩)
        · exact .inr hactive
  have hticket : ∀ {id moved ticket}, next.call id = some moved →
      moved.stage.ticket? = some ticket → next.cache.Follows digest ticket := by
    intro id moved ticket hmoved hhas
    cases hcall hmoved with
    | begun hstage _ _ =>
      rw [hstage] at hhas
      cases hhas
    | moved hbefore _ _ hgiven _ =>
      rcases hgiven _ hhas with hold | ⟨hnext, _⟩
      · exact hfollows _ (h.follows hbefore hold)
      · exact hnext
  refine ⟨hempty, hcalls, hleases, hticket, ?_⟩
  intro id moved ticket hmoved hjob hhas howner older newer lease holder hlt hheld
  have hnext := hticket hmoved hhas
  cases hcall hmoved with
  | begun hstage _ _ =>
    rw [hstage] at hhas
    cases hhas
  | moved hbefore hsame hbinding hgiven _ =>
    rcases hholds hheld with hbeforeHeld | hactive
    · rcases hgiven _ hhas with hold | ⟨_, hfence⟩
      · -- no other activation has begun in this step
        have hle := (h.follows hbefore hold).le
        rw [hsame] at hjob
        rw [hbinding] at holder
        exact h.owner hbefore hjob hold (by omega) holder hlt hbeforeHeld
      · -- the call has entered in this step, so its generation is the last one
        exfalso
        have ⟨index, hindex, hgeneration⟩ := h.holds hbeforeHeld
        have hindexed := hnew hgeneration
        rcases hempty with ⟨hnone, _, _⟩ | hcurrent
        · exact hsome older (holder.symm.trans ((hfence hjob).symm.trans hnone))
        · have := hnew (holder.symm.trans ((hfence hjob).symm.trans hcurrent))
          omega
    · exact ((hnext.owner howner).2 lease hactive).1

theorem moves_update {call : Call} (hupdate : next.call = update world.call id (some call))
    (hmoves : Moves digest generations world next id call) {other : Nat} {moved : Call}
    (h : next.call other = some moved) : Moves digest generations world next other moved := by
  rw [hupdate] at h
  by_cases heq : other = id
  · subst heq
    rw [update_self] at h
    cases h
    exact hmoves
  · rw [update_of_ne heq] at h
    exact .same h

variable {cache : ClientCache}

theorem move (hnew : Injective generations)
    (hsome : ∀ index, generations index ≠ "") (h : Inv digest generations world)
    {call moved : Call} (hcall : world.call id = some call) (hjob : moved.job = call.job)
    (hbinding : moved.binding = call.binding)
    (hseq : world.cache.activationSeq ≤ cache.activationSeq)
    (hfollows : ∀ ticket, world.cache.Follows digest ticket → cache.Follows digest ticket)
    (hticket : ∀ ticket, moved.stage.ticket? = some ticket → call.stage.ticket? = some ticket ∨
      cache.Follows digest ticket ∧
        (call.job = .leaseFor → world.binding.generation = call.binding.generation))
    (hlease : ∀ lease, moved.stage.lease? = some lease → call.stage.lease? = some lease ∨
      cache.active = some lease) :
    Inv digest generations ((world.setCache cache).setCall id moved) := by
  have hmoves : Moves digest generations world ((world.setCache cache).setCall id moved) id moved :=
    .moved hcall hjob hbinding (by rw [hjob, hbinding]; exact hticket) hlease
  exact h.frame hnew hsome (le_refl _) h.empty hseq hfollows
    (moves_update rfl hmoves) fun hmem => .inl hmem

theorem setCache (hnew : Injective generations)
    (hsome : ∀ index, generations index ≠ "") (h : Inv digest generations world)
    (hseq : world.cache.activationSeq ≤ cache.activationSeq)
    (hfollows : ∀ ticket, world.cache.Follows digest ticket → cache.Follows digest ticket) :
    Inv digest generations (world.setCache cache) :=
  h.frame hnew hsome (le_refl _) h.empty hseq hfollows (fun hcall => .same hcall)
    fun hmem => .inl hmem

theorem invalidateKey (hnew : Injective generations) (hsome : ∀ index, generations index ≠ "")
    (h : Inv digest generations world) (key : String) :
    Inv digest generations (world.setCache (world.cache.invalidateKey digest key)) := by
  have hseq := world.cache.invalidateKey_activationSeq digest key
  exact h.setCache hnew hsome (by omega) fun _ hticket => hticket.invalidateKey key

end Inv

variable {binding : SelectionBinding} {candidate : Resolution}

theorem World.leaseFor_eq_some (h : world.leaseFor binding = some candidate) :
    world.candidate = some candidate ∧ world.binding.generation = binding.generation := by
  unfold World.leaseFor at h
  split at h
  · cases h
  · exact ⟨h, by tauto⟩

variable {resolved : Resolution}

theorem World.beginActivation_eq_some {begun : World}
    (h : world.beginActivation resolved binding = some begun) :
    (world.binding.generation = "" ∨ world.binding.generation = binding.generation) ∧
      begun = { world with candidate := some resolved, lease := none, binding } := by
  unfold World.beginActivation at h
  split at h
  · cases h
  · exact ⟨by tauto, (Option.some.inj h).symm⟩

variable {lease : Lease} {call : Call}

theorem Call.Publishes.lease? (h : call.Publishes lease) :
    call.stage.lease? = some lease := by
  rcases h with ⟨hstage, _⟩ | hstage <;> rw [hstage] <;> rfl

namespace Inv

variable (hnew : Function.Injective generations) (hsome : ∀ index, generations index ≠ "")
  (h : Inv digest generations world)

include hnew hsome h

variable {call : Call}

theorem quiet {moved : Call} (hcall : world.call id = some call)
    (hjob : moved.job = call.job) (hbinding : moved.binding = call.binding)
    (hticket : moved.stage.ticket? = none) (hlease : moved.stage.lease? = none) :
    Inv digest generations (world.setCall id moved) := by
  have hmoved := h.move hnew hsome hcall hjob hbinding (le_refl _) (fun _ hfollows => hfollows)
    (by simp [hticket]) (by simp [hlease])
  exact hmoved

theorem begin_leaseFor (hchecked : world.leaseFor binding = some candidate) :
    Inv digest generations
      (world.setCall id ⟨.leaseFor, world.binding, candidate, false, .checking⟩) := by
  have ⟨hcandidate, _⟩ := World.leaseFor_eq_some hchecked
  have hgeneration : world.binding.generation = generations world.issued := by
    rcases h.empty with ⟨_, _, hnone⟩ | hcurrent
    · rw [hnone] at hcandidate
      cases hcandidate
    · exact hcurrent
  exact h.frame hnew hsome (le_refl _) h.empty (le_refl _) (fun _ hfollows => hfollows)
    (moves_update rfl (.begun rfl (le_refl _) hgeneration)) fun hmem => .inl hmem

theorem begin_Activate {begun : World} {index : Nat} (hindex : index ≤ world.issued)
    (hindexed : binding.generation = generations index)
    (hbegun : world.beginActivation resolved binding = some begun) :
    Inv digest generations (begun.setCall id ⟨.Activate, binding, resolved, false, .checking⟩) := by
  have ⟨hfence, heq⟩ := World.beginActivation_eq_some hbegun
  have hcurrent : binding.generation = generations world.issued := by
    rcases h.empty with ⟨hempty, hissued, _⟩ | hcurrent
    · -- nothing has been issued yet but the first generation
      rw [hissued] at hindex ⊢
      rw [hindexed, le_zero.mp hindex]
    · rcases hfence with hnone | hsame
      · exact absurd (hcurrent.symm.trans hnone) (hsome _)
      · exact hsame.symm.trans hcurrent
  subst heq
  refine h.frame hnew hsome (le_refl _) (.inr hcurrent) (le_refl _)
    (fun _ hfollows => hfollows) (moves_update rfl (.begun rfl ?_ hindexed)) fun hmem => .inl hmem
  exact hindex

theorem enter (hcall : world.call id = some call)
    (hfenced : call.job = .leaseFor → world.binding.generation = call.binding.generation) :
    Inv digest generations ((world.setCache (world.cache.enter digest call.candidate).1).setStage id
      call (.entered (world.cache.enter digest call.candidate).2)) := by
  have hspec := ClientCache.enter_spec digest world.cache call.candidate
  refine h.move hnew hsome hcall rfl rfl hspec.seq hspec.follows ?_ ?_
  · intro ticket hticket
    refine .inr ⟨?_, hfenced⟩
    cases hentered : (world.cache.enter digest call.candidate).2 with
    | returned result => rw [hentered] at hticket; cases hticket
    | building given =>
      rw [hentered] at hticket
      cases hticket
      exact hspec.building _ hentered
    | waiting given =>
      rw [hentered] at hticket
      cases hticket
      exact hspec.waiting _ hentered
  · intro lease hlease
    refine .inr (hspec.active lease ?_)
    cases hentered : (world.cache.enter digest call.candidate).2 with
    | returned result =>
      rw [hentered] at hlease
      cases result with
      | error error => cases hlease
      | ok given =>
        cases hlease
        rfl
    | building given => rw [hentered] at hlease; cases hlease
    | waiting given => rw [hentered] at hlease; cases hlease

theorem back (hcall : world.call id = some call)
    {ticket : Ticket} {result : ClientCache × Except SafeError Lease}
    (hspec : ClientCache.Returns digest world.cache ticket result) :
    Inv digest generations
      ((world.setCache result.1).setStage id call (.activated result.2)) := by
  refine h.move hnew hsome hcall rfl rfl (le_of_eq hspec.seq.symm) hspec.follows nofun ?_
  intro lease hlease
  refine .inr (hspec.lease lease ?_)
  cases hresult : result.2 with
  | error error => rw [hresult] at hlease; cases hlease
  | ok given =>
    rw [hresult] at hlease
    cases hlease
    rfl

theorem adopt (hcall : world.call id = some call) (hlease : call.stage.lease? = some lease) :
    Inv digest generations
      ((world.adopt call.binding call.candidate).setStage id call (.adopted lease)) := by
  have hmoves : ∀ next, Moves digest generations world next id
      { call with stage := .adopted lease } := by
    intro next
    refine .moved hcall rfl rfl nofun ?_
    intro other hother
    cases hother
    exact .inl hlease
  unfold World.adopt
  split
  next hsame =>
    have ⟨index, _, hindexed⟩ := h.call hcall
    refine h.frame hnew hsome (le_refl _) (.inr ?_) (le_refl _) (fun _ hfollows => hfollows)
      (moves_update rfl (hmoves _)) fun hmem => .inl hmem
    rcases h.empty with ⟨hempty, _⟩ | hcurrent
    · rw [hsame, hindexed] at hempty
      exact absurd hempty (hsome index)
    · exact hcurrent
  next =>
    exact h.frame hnew hsome (le_refl _) h.empty (le_refl _) (fun _ hfollows => hfollows)
      (moves_update rfl (hmoves _)) fun hmem => .inl hmem

theorem publish (hcall : world.call id = some call) (hlease : call.stage.lease? = some lease) :
    Inv digest generations
      ((world.publishLease call.binding lease).setStage id call .returned) := by
  have hmoves : ∀ next, Moves digest generations world next id { call with stage := .returned } :=
    fun next => .moved hcall rfl rfl nofun nofun
  unfold World.publishLease
  split
  · refine h.frame hnew hsome (le_refl _) h.empty (le_refl _) (fun _ hfollows => hfollows)
      (moves_update rfl (hmoves _)) ?_
    intro generation other hmem
    rcases List.mem_cons.mp hmem with heq | hmem
    · cases heq
      exact .inr ⟨id, call, hcall, rfl, hlease⟩
    · exact .inl hmem
  · exact h.frame hnew hsome (le_refl _) h.empty (le_refl _) (fun _ hfollows => hfollows)
      (moves_update rfl (hmoves _)) fun hmem => .inl hmem

end Inv

variable {action : Action}

theorem Step.inv (hnew : Function.Injective generations) (hsome : ∀ index, generations index ≠ "")
    (h : Inv digest generations world) (hfenced : world.Fenced action)
    (hstep : Step digest generations world action next) : Inv digest generations next := by
  cases hstep with
  | leaseFor _ hchecked => exact h.begin_leaseFor hnew hsome hchecked
  | Activate _ _ _ _ hindex hindexed hbegun =>
    exact h.begin_Activate hnew hsome hindex hindexed hbegun
  | abandon hcall _ _ => exact h.quiet hnew hsome hcall rfl rfl rfl rfl
  | current hcall _ => exact h.quiet hnew hsome hcall rfl rfl rfl rfl
  | stale hcall _ => exact h.quiet hnew hsome hcall rfl rfl rfl rfl
  | invalidate hcall _ =>
    exact (h.invalidateKey hnew hsome _).quiet hnew hsome hcall rfl rfl rfl rfl
  | enter hcall hstage => exact h.enter hnew hsome hcall (hfenced _ hcall)
  | built hcall hstage =>
    have hfollows := h.follows hcall (by rw [hstage]; rfl)
    exact h.back hnew hsome hcall (ClientCache.built_spec hfollows _)
  | woken hcall hstage _ =>
    have hfollows := h.follows hcall (by rw [hstage]; rfl)
    exact h.back hnew hsome hcall (ClientCache.woken_spec hfollows _)
  | retry hcall => exact h.quiet hnew hsome hcall rfl rfl rfl rfl
  | resolve hcall _ => exact h.quiet hnew hsome hcall rfl rfl rfl rfl
  | fail hcall _ => exact h.quiet hnew hsome hcall rfl rfl rfl rfl
  | adopt hcall _ _ hstage => exact h.adopt hnew hsome hcall (by rw [hstage]; rfl)
  | publish hcall hpublishes => exact h.publish hnew hsome hcall hpublishes.lease?
  | OnGeneration =>
    exact h.frame hnew hsome (le_succ _) (.inr rfl) (le_refl _)
      (fun _ hfollows => hfollows) (fun hcall => .same hcall) fun hmem => .inl hmem
  | invalidateOld _ =>
    have hkept := h.invalidateKey hnew hsome
    exact (hkept _).frame hnew hsome (le_refl _) h.empty (le_refl _)
      (fun _ hfollows => hfollows) (fun hcall => .same hcall) fun hmem => .inl hmem
  | InvalidateOnError => exact h.invalidateKey hnew hsome _
  | Close =>
    exact h.setCache hnew hsome (le_of_eq (ClientCache.Close_activationSeq _).symm) fun _ hticket =>
      hticket.Close
  | done =>
    exact h.setCache hnew hsome (le_refl _) fun _ hticket =>
      hticket.congr rfl rfl (.inl rfl)

/-! ## Whole runs -/

def FencedStep (digest : List String → String) (generations : Nat → String) (world : World)
    (action : Action) (next : World) : Prop :=
  world.Fenced action ∧ Step digest generations world action next

/-- A step neither cancels a lease nor makes one for another key active. -/
def Spares (digest : List String → String) (cache next : ClientCache) (lease : Lease) : Prop :=
  (cache.live lease = true → next.live lease = true) ∧
    (next.active = cache.active ∨ ∀ active, next.active = some active →
      active.descriptor.CacheKey digest = lease.descriptor.CacheKey digest)

theorem Spares.refl (cache : ClientCache) (lease : Lease) : Spares digest cache cache lease :=
  ⟨id, .inl rfl⟩

variable {older newer : Nat}

theorem Inv.not_published (hnew : Injective generations)
    (hsome : ∀ index, generations index ≠ "") (h : Inv digest generations world)
    (hfence : world.binding.generation = generations older) (hlt : older < newer) (lease : Lease) :
    (generations newer, lease) ∉ world.published := by
  intro hpublished
  have ⟨index, hindex, hindexed⟩ := h.published hpublished
  have hnewer := hnew hindexed
  rcases h.empty with ⟨hempty, _⟩ | hcurrent
  · exact hsome older (hfence.symm.trans hempty)
  · have holder := hnew (hfence.symm.trans hcurrent)
    omega

theorem Inv.back_spares (h : Inv digest generations world) {ticket : Ticket}
    {result : ClientCache × Except SafeError Lease} (hcall : world.call id = some call)
    (hjob : call.job = .leaseFor) (hticket : call.stage.ticket? = some ticket)
    (hspec : ClientCache.Returns digest world.cache ticket result)
    (holder : call.binding.generation = generations older) (hlt : older < newer)
    (hpublished : (generations newer, lease) ∈ world.published) :
    Spares digest world.cache result.1 lease := by
  refine ⟨hspec.live lease, ?_⟩
  rcases hspec.active with hsame | ⟨howner, hfor⟩
  · exact .inl hsame
  · refine .inr fun active hactive => ?_
    have hkey := h.owner hcall hjob hticket howner holder hlt (.inl hpublished)
    exact (hfor active hactive).1.trans hkey.symm

theorem Step.spares (hnew : Injective generations)
    (hsome : ∀ index, generations index ≠ "") (h : Inv digest generations world)
    (hfenced : world.Fenced action) (hstep : Step digest generations world action next)
    (hcaller : action.caller = some id) (hcall : world.call id = some call)
    (hjob : call.job = .leaseFor)
    (holder : call.binding.generation = generations older) (hlt : older < newer)
    (hpublished : (generations newer, lease) ∈ world.published) :
    Spares digest world.cache next.cache lease := by
  cases hstep with
  | leaseFor | Activate | OnGeneration | invalidateOld | InvalidateOnError | Close | done =>
    cases hcaller
  | abandon | current | stale | retry | resolve | fail => exact .refl ..
  | adopt =>
    unfold World.adopt
    split <;> exact .refl ..
  | publish =>
    unfold World.publishLease
    split <;> exact .refl ..
  | invalidate | enter =>
    cases hcaller
    have hfence := (hfenced call hcall hjob).trans holder
    exact absurd hpublished (h.not_published hnew hsome hfence hlt lease)
  | built hbefore hstage =>
    cases hcaller
    cases hcall.symm.trans hbefore
    have hticket := congrArg Stage.ticket? hstage
    exact h.back_spares hcall hjob hticket (ClientCache.built_spec (h.follows hcall hticket) _)
      holder
      hlt hpublished
  | woken hbefore hstage _ =>
    cases hcaller
    cases hcall.symm.trans hbefore
    have hticket := congrArg Stage.ticket? hstage
    exact h.back_spares hcall hjob hticket (ClientCache.woken_spec (h.follows hcall hticket) _)
      holder
      hlt hpublished

/-- In every run in which a `leaseFor` enters the client cache only while the binding still has its
generation, no step of a `leaseFor` cancels a lease that the runtime has published for a later
generation, or makes one for another key active. -/
theorem leaseFor_spares (hnew : Function.Injective generations)
    (hsome : ∀ index, generations index ≠ "") {actions : List Action}
    (hruns : Runs (FencedStep digest generations) World.new actions world) {action : Action}
    (hstep : FencedStep digest generations world action next)
    (hcaller : action.caller = some id) {call : Call} (hcall : world.call id = some call)
    (hjob : call.job = .leaseFor) {older newer : Nat}
    (holder : call.binding.generation = generations older) (hlt : older < newer) {lease : Lease}
    (hpublished : (generations newer, lease) ∈ world.published) :
    Spares digest world.cache next.cache lease := by
  have h : Inv digest generations world :=
    hruns.invariant World.new_inv fun h hstep => hstep.2.inv hnew hsome h hstep.1
  exact hstep.2.spares hnew hsome h hstep.1 hcaller hcall hjob holder hlt hpublished

def dev : Resolution := ⟨⟨["config"], "dev"⟩, 1#256⟩

def prod : Resolution := ⟨⟨["config"], "prod"⟩, 2#256⟩

def contextDigest (parts : List String) : String := parts.getLast?.getD ""

def asking : List Action :=
  [.Activate 0 ⟨1, "dev", "", 0, "g"⟩ dev, .leaseFor 1 ⟨1, "dev", "", 0, "g"⟩, .current 1]

def switching : List Action :=
  [.OnGeneration, .invalidateOld dev.descriptor, .Activate 2 ⟨1, "prod", "", 0, "gg"⟩ prod,
    .current 2, .enter 2, .built 2 (.ok 7), .publish 2]

def prodLease : Lease := ⟨7, 1, prod.descriptor, prod.fingerprint⟩

def devCall (stage : Stage) : Call := ⟨.leaseFor, ⟨1, "dev", "", 0, "g"⟩, dev, false, stage⟩

def devTicket : Ticket := ⟨dev.descriptor, ⟨"dev", 1#256, 0⟩, 1, 0⟩

theorem leaseFor_spares_building :
    ∃ world next, Runs (FencedStep contextDigest tally) World.new
        (asking ++ .enter 1 :: switching) world ∧
      FencedStep contextDigest tally world (.built 1 (.ok 5)) next ∧
      (tally 1, prodLease) ∈ world.published ∧ world.cache.live prodLease = true ∧
      next.cache.live prodLease = true := by
  have hruns : ∃ world, Runs (FencedStep contextDigest tally) World.new
        (asking ++ .enter 1 :: switching) world ∧
      world.call 1 = some (devCall (.building devTicket)) ∧
      (tally 1, prodLease) ∈ world.published ∧ world.cache.live prodLease = true := by
    refine runs_cons ⟨trivial, .Activate rfl (by decide) (by decide) (by decide)
      (Nat.le_refl 0) (by decide) rfl⟩ ?_
    apply runs_cons ⟨trivial, .leaseFor rfl rfl⟩
    apply runs_cons ⟨trivial, .current rfl rfl⟩
    apply runs_cons ⟨(fun _ h _ => by cases h; rfl), .enter rfl rfl⟩
    apply runs_cons ⟨trivial, .OnGeneration⟩
    apply runs_cons ⟨trivial, .invalidateOld (by decide)⟩
    refine runs_cons ⟨trivial, .Activate rfl (by decide) (by decide) (by decide)
      (Nat.le_refl 1) (by decide) rfl⟩ ?_
    apply runs_cons ⟨trivial, .current rfl rfl⟩
    apply runs_cons ⟨(fun _ h hjob => by cases h; cases hjob), .enter rfl rfl⟩
    apply runs_cons ⟨trivial, .built rfl rfl⟩
    apply runs_cons ⟨trivial, .publish rfl (.inl ⟨rfl, .inl rfl⟩)⟩
    exact ⟨_, .nil _, rfl, .head _, rfl⟩
  obtain ⟨world, hruns, hcall, hpublished, hlive⟩ := hruns
  have hstep : FencedStep contextDigest tally world (.built 1 (.ok 5)) _ :=
    ⟨trivial, .built hcall rfl⟩
  have holder : (devCall (.building devTicket)).binding.generation = tally 0 := by decide
  have hspares := leaseFor_spares tally_injective tally_ne_empty hruns hstep rfl hcall rfl holder
    Nat.one_pos hpublished
  exact ⟨world, _, hruns, hstep, hpublished, hlive, hspares.1 hlive⟩

/-- The check of `leaseFor` is made before the selection is switched, its activation after that:
the published lease is cancelled and another key becomes active. -/
theorem old_leaseFor_cancels :
    ∃ world next last, Runs (Step contextDigest tally) World.new (asking ++ switching) world ∧
      Step contextDigest tally world (.enter 1) next ∧
      Step contextDigest tally next (.built 1 (.ok 5)) last ∧
      world.call 1 = some (devCall .entering) ∧ world.lease = some prodLease ∧
      (tally 1, prodLease) ∈ world.published ∧ world.cache.live prodLease = true ∧
      next.cache.live prodLease = false ∧
      last.cache.active = some ⟨5, 2, dev.descriptor, dev.fingerprint⟩ ∧
      ¬ Spares contextDigest world.cache next.cache prodLease := by
  simp only [exists_and_left]
  refine runs_cons (.Activate rfl (by decide) (by decide) (by decide)
    (Nat.le_refl 0) (by decide) rfl) ?_
  apply runs_cons (.leaseFor rfl rfl)
  apply runs_cons (.current rfl rfl)
  apply runs_cons .OnGeneration
  apply runs_cons (.invalidateOld (by decide))
  refine runs_cons (.Activate rfl (by decide) (by decide) (by decide)
    (Nat.le_refl 1) (by decide) rfl) ?_
  apply runs_cons (.current rfl rfl)
  apply runs_cons (.enter rfl rfl)
  apply runs_cons (.built rfl rfl)
  apply runs_cons (.publish rfl (.inl ⟨rfl, .inl rfl⟩))
  refine ⟨_, .nil _, _, .enter rfl rfl, _, .built rfl rfl, rfl, rfl, .head _, rfl, rfl, rfl, ?_⟩
  intro hspares
  cases hspares.1 rfl

end Kubepeep.Runtime
