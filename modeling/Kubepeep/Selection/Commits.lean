import Kubepeep.Selection.Coordinator

/-!
# Commits of selection changes

The holder of the coordinator's lock is the newest intent, and it publishes only against the
current generation.
-/

open Function

namespace Kubepeep.Selection

open Kubepeep.System

def Phase.isRotated : Phase → Bool
  | .rotated _ | .renewed _ | .activated => true
  | _ => false

/-- The binding may be behind the generation. -/
def Phase.isBehind : Phase → Bool
  | .rotated _ | .renewed _ => true
  | _ => false

def Stage.isPublished : Stage → Bool
  | .finished .published | .finished .unrotated => true
  | _ => false

/-- The change has neither come to its commit nor returned. -/
def Stage.isOpen : Stage → Bool
  | .committing | .finished _ => false
  | _ => true

theorem Stage.isPublished_of_isOpen {stage : Stage} (h : stage.isOpen = true) :
    stage.isPublished = false := by
  cases stage <;> first | rfl | cases h

theorem Stage.isOpen_of_validated? {stage next : Stage} (h : stage.validated? = some next) :
    stage.isOpen = true ∧ next.isOpen = true := by
  cases stage <;> cases h <;> exact ⟨rfl, rfl⟩

variable {intent : Intent}

theorem Intent.Ready.isOpen (h : intent.Ready) : intent.stage.isOpen = true := by
  unfold Intent.Ready at h
  split at h
  · rw [h]
    rfl
  · rw [h.1]
    rfl
  · rw [h]
    rfl

namespace World

def Published (world : World) (id : Nat) (intent : Intent) : Prop :=
  intent.stage.isPublished = true ∨
    ∃ phase, world.lock = some (id, phase) ∧ phase.isRotated = true

structure Same (world other : World) : Prop where
  generation : other.generation = world.generation
  session : other.session = world.session
  binding : other.binding = world.binding
  resolution : other.resolution = world.resolution
  workContext : other.workContext = world.workContext
  workCancelled : other.workCancelled = world.workCancelled
  workStop : other.workStop = world.workStop

@[simp] theorem setIntent_self (world : World) (id : Nat) (intent : Intent) :
    (world.setIntent id intent).intent id = some intent :=
  update_self ..

theorem setIntent_of_ne (world : World) {id other : Nat} (intent : Intent) (h : other ≠ id) :
    (world.setIntent id intent).intent other = world.intent other :=
  update_of_ne h ..

theorem Validate_eq_none {world : World} {id : Nat} (h : world.Validate id intent = none) :
    id = world.sequence ∧ intent.expectedGeneration = world.generation := by
  unfold Validate at h
  by_cases hnewest : id ≠ world.sequence ∨ world.cancelled id = true
  · rw [if_pos hnewest] at h
    cases h
  · rw [if_neg hnewest] at h
    by_cases hcurrent :
        intent.expectedGeneration = "" ∨ intent.expectedGeneration ≠ world.generation
    · rw [if_pos hcurrent] at h
      cases h
    · exact ⟨by tauto, by tauto⟩

end World

/-! ## Invariant -/

structure Inv (generations : Nat → String) (world : World) : Prop where
  current : world.generation = generations world.issued
  binding : (∀ id phase, world.lock = some (id, phase) → phase.isBehind = false) →
    world.binding.generation = world.generation
  held : ∀ {id phase}, world.lock = some (id, phase) → id = world.sequence ∧
    ∃ intent, world.intent id = some intent ∧ intent.stage = .committing ∧
      (phase.isRotated = false → intent.expectedGeneration = world.generation)
  -- only the newest intent can rotate the generation, so none has since it began
  newest : ∀ {intent}, world.intent world.sequence = some intent →
    ¬ world.Published world.sequence intent → intent.begunAt = world.generation
  published : ∀ {id intent}, world.intent id = some intent → world.Published id intent →
    intent.begunAt = intent.expectedGeneration ∧
      ∃ index < world.issued, intent.expectedGeneration = generations index
  unique : ∀ {id other intent rival}, world.intent id = some intent →
    world.intent other = some rival → world.Published id intent → world.Published other rival →
    intent.expectedGeneration = rival.expectedGeneration → id = other

variable {generations : Nat → String} {world next : World} {id : Nat} {intent : Intent}

theorem Start.inv (h : Start generations world) : Inv generations world where
  current := h.generation
  binding _ := h.binding
  held hlock := by rw [h.lock] at hlock; cases hlock
  newest hintent := by rw [h.intent] at hintent; cases hintent
  published hintent := by rw [h.intent] at hintent; cases hintent
  unique hintent := by rw [h.intent] at hintent; cases hintent

namespace Inv

section

variable (h : Inv generations world)

include h

theorem frame (hgeneration : next.generation = world.generation)
    (hissued : next.issued = world.issued) (hsequence : next.sequence = world.sequence)
    (hintent : ∀ {id moved}, next.intent id = some moved → ∃ intent,
      world.intent id = some intent ∧ moved.begunAt = intent.begunAt ∧
        moved.expectedGeneration = intent.expectedGeneration ∧
        (next.Published id moved ↔ world.Published id intent))
    (hbinding : (∀ id phase, next.lock = some (id, phase) → phase.isBehind = false) →
      next.binding.generation = world.generation)
    (hheld : ∀ {id phase}, next.lock = some (id, phase) → id = world.sequence ∧
      ∃ intent, next.intent id = some intent ∧ intent.stage = .committing ∧
        (phase.isRotated = false → intent.expectedGeneration = world.generation)) :
    Inv generations next := by
  constructor
  · rw [hgeneration, hissued]
    exact h.current
  · rw [hgeneration]
    exact hbinding
  · rw [hgeneration, hsequence]
    exact hheld
  · intro moved hmoved hunpublished
    rw [hsequence] at hmoved hunpublished
    have ⟨intent, hbefore, hbegun, _, hpublished⟩ := hintent hmoved
    rw [hbegun, hgeneration]
    exact h.newest hbefore (hpublished.not.mp hunpublished)
  · intro id moved hmoved hnow
    have ⟨intent, hbefore, hbegun, hexpected, hpublished⟩ := hintent hmoved
    rw [hbegun, hexpected, hissued]
    exact h.published hbefore (hpublished.mp hnow)
  · intro id other moved rival hmoved hrival hid hother heq
    have ⟨first, hfirst, _, hexpected, hpublished⟩ := hintent hmoved
    have ⟨second, hsecond, _, hexpected', hpublished'⟩ := hintent hrival
    rw [hexpected, hexpected'] at heq
    exact h.unique hfirst hsecond (hpublished.mp hid) (hpublished'.mp hother) heq

theorem congr (hgeneration : next.generation = world.generation)
    (hissued : next.issued = world.issued) (hsequence : next.sequence = world.sequence)
    (hbinding : next.binding.generation = world.binding.generation)
    (hintent : next.intent = world.intent) (hlock : next.lock = world.lock) :
    Inv generations next := by
  apply h.frame hgeneration hissued hsequence
  · intro id moved hmoved
    rw [hintent] at hmoved
    exact ⟨moved, hmoved, rfl, rfl, by rw [World.Published, World.Published, hlock]⟩
  · rw [hbinding, hlock]
    exact h.binding
  · rw [hlock, hintent]
    exact h.held

theorem stop (id : Nat) : Inv generations (world.stop id) :=
  h.congr rfl rfl rfl rfl rfl rfl

section

variable (hintent : world.intent id = some intent)

include hintent

section

variable (hopen : intent.stage.isOpen = true)

include hopen

theorem not_holds (phase : Phase) : world.lock ≠ some (id, phase) := by
  intro hlock
  have ⟨_, holder, hholder, hcommitting, _⟩ := h.held hlock
  rw [hintent] at hholder
  cases hholder
  rw [hcommitting] at hopen
  cases hopen

theorem not_published : ¬ world.Published id intent := by
  intro hpublished
  rcases hpublished with hended | ⟨phase, hlock, _⟩
  · rw [Stage.isPublished_of_isOpen hopen] at hended
    cases hended
  · exact h.not_holds hintent hopen phase hlock

theorem setIntent {moved : Intent}
    (hexpected : moved.expectedGeneration = intent.expectedGeneration)
    (hbegun : moved.begunAt = intent.begunAt)
    (hmoved : moved.stage.isPublished = false) :
    Inv generations (world.setIntent id moved) := by
  refine h.frame rfl rfl rfl ?_ ?_ ?_
  · intro other now hnow
    by_cases heq : other = id
    · subst heq
      rw [World.setIntent_self] at hnow
      cases hnow
      refine ⟨intent, hintent, hbegun, hexpected, iff_of_false ?_ (h.not_published hintent hopen)⟩
      rintro (hended | ⟨phase, hlock, _⟩)
      · rw [hmoved] at hended
        cases hended
      · exact h.not_holds hintent hopen phase hlock
    · rw [World.setIntent_of_ne _ _ heq] at hnow
      exact ⟨now, hnow, rfl, rfl, Iff.rfl⟩
  · exact h.binding
  · intro other phase hlock
    have hne : other ≠ id := by
      rintro rfl
      exact h.not_holds hintent hopen phase hlock
    rw [World.setIntent_of_ne _ _ hne]
    exact h.held hlock

theorem finish (error : SelectionError) :
    Inv generations (world.finish id intent (.failed error)) := by
  have hset : Inv generations (world.setStage id intent (.finished (.failed error))) :=
    h.setIntent hintent hopen rfl rfl rfl
  exact hset.stop id

end

end

theorem activate (activation : Activation) :
    Inv generations (world.activate activation) := by
  cases activation <;>
    exact h.frame rfl rfl rfl (fun hintent => ⟨_, hintent, rfl, rfl, Iff.rfl⟩) (fun _ => rfl) h.held

theorem binding_of_held {phase : Phase}
    (hlock : world.lock = some (id, phase)) (hbehind : phase.isBehind = false) :
    world.binding.generation = world.generation := by
  apply h.binding
  intro other held hheld
  rw [hlock] at hheld
  cases hheld
  exact hbehind

theorem hold {phase later : Phase}
    (hlock : world.lock = some (id, phase)) (hrotated : later.isRotated = phase.isRotated)
    (hbinding : later.isBehind = false → world.binding.generation = world.generation) :
    Inv generations (world.hold id later) := by
  refine h.frame rfl rfl rfl ?_ ?_ ?_
  · intro other now hnow
    refine ⟨now, hnow, rfl, rfl, or_congr Iff.rfl ?_⟩
    simp only [World.hold, hlock, Option.some.injEq, Prod.mk.injEq]
    constructor
    · rintro ⟨_, ⟨rfl, rfl⟩, h'⟩
      exact ⟨phase, ⟨rfl, rfl⟩, hrotated ▸ h'⟩
    · rintro ⟨_, ⟨rfl, rfl⟩, h'⟩
      exact ⟨later, ⟨rfl, rfl⟩, hrotated.trans h'⟩
  · intro hbehind
    exact hbinding (hbehind id later rfl)
  · intro other now hnow
    cases hnow
    rw [hrotated]
    exact h.held hlock

theorem fenced (hlock : world.lock = none)
    (hintent : world.intent id = some intent) (hopen : intent.stage.isOpen = true)
    (hvalid : world.Validate id intent = none) :
    Inv generations ((world.setStage id intent .committing).hold id .fenced) := by
  have hset : Inv generations (world.setStage id intent .committing) :=
    h.setIntent hintent hopen rfl rfl rfl
  have ⟨hnewest, hcurrent⟩ := World.Validate_eq_none hvalid
  refine hset.frame rfl rfl rfl ?_ ?_ ?_
  · intro other now hnow
    refine ⟨now, hnow, rfl, rfl, or_congr Iff.rfl ?_⟩
    simp [World.hold, World.setStage, World.setIntent, hlock, Phase.isRotated]
  · intro _
    exact h.binding (by simp [hlock])
  · intro other phase hphase
    cases hphase
    exact ⟨hnewest, _, World.setIntent_self .., rfl, fun _ => hcurrent⟩

theorem Begin (hlock : world.lock = none) (change : Change)
    (expectedGeneration : String) : Inv generations (world.Begin change expectedGeneration) := by
  have hpublished : ∀ {other now}, (world.Begin change expectedGeneration).intent other = some now →
      (world.Begin change expectedGeneration).Published other now →
      world.intent other = some now := by
    intro other now hnow hpub
    by_cases heq : other = world.sequence + 1
    · subst heq
      cases (World.setIntent_self ..).symm.trans hnow
      rcases hpub with hended | ⟨phase, hphase, _⟩
      · cases hended
      · cases hlock.symm.trans hphase
    · exact (World.setIntent_of_ne _ _ heq).symm.trans hnow
  constructor
  · exact h.current
  · exact h.binding
  · intro id phase hphase
    cases hlock.symm.trans hphase
  · intro now hnow _
    cases (World.setIntent_self ..).symm.trans hnow
    rfl
  · intro other now hnow hpub
    exact h.published (hpublished hnow hpub) hpub
  · intro id other intent rival hintent hrival hid hother heq
    exact h.unique (hpublished hintent hid) (hpublished hrival hother) hid hother heq

end

theorem rotate (hnew : Injective generations) (h : Inv generations world)
    {activation : Activation} (hlock : world.lock = some (id, .accepted (some activation))) :
    Inv generations
      ((world.Rotate (generations (world.issued + 1))).hold id (.rotated activation)) := by
  have ⟨hnewest, holder, hholder, hcommitting, hcurrent⟩ := h.held hlock
  have hexpected : holder.expectedGeneration = generations world.issued :=
    (hcurrent rfl).trans h.current
  have hbefore : ¬ world.Published id holder := by
    rintro (hended | ⟨phase, hphase, hrotated⟩)
    · rw [hcommitting] at hended
      cases hended
    · rw [hlock] at hphase
      cases hphase
      cases hrotated
  have hpublished : ∀ {other now},
      ((world.Rotate (generations (world.issued + 1))).hold id (.rotated activation)).Published
        other now → other = id ∨ world.Published other now := by
    rintro other now (hended | ⟨phase, hphase, _⟩)
    · exact .inr (.inl hended)
    · cases hphase
      exact .inl rfl
  -- an intent that was published before expects an earlier generation than the holder
  have hearlier : ∀ {other now}, world.intent other = some now → world.Published other now →
      now.expectedGeneration ≠ holder.expectedGeneration := by
    intro other now hnow hpub heq
    have ⟨_, index, hindex, hindexed⟩ := h.published hnow hpub
    have := hnew (hindexed.symm.trans (heq.trans hexpected))
    omega
  constructor
  · rfl
  · intro hbehind
    cases hbehind id _ rfl
  · intro other phase hphase
    cases hphase
    exact ⟨hnewest, holder, hholder, hcommitting, nofun⟩
  · intro now _ hunpublished
    have hheld := congrArg (fun id => some (id, Phase.rotated activation)) hnewest
    exact absurd (.inr ⟨_, hheld, rfl⟩) hunpublished
  · intro other now hnow hpub
    rcases hpublished hpub with rfl | hpub
    · cases hholder.symm.trans hnow
      have hbegun := h.newest (hnewest ▸ hholder) (hnewest ▸ hbefore)
      exact ⟨hbegun.trans (hcurrent rfl).symm, world.issued, Nat.lt_succ_self _, hexpected⟩
    · have ⟨hbegun, index, hindex, hindexed⟩ := h.published hnow hpub
      exact ⟨hbegun, index, Nat.lt_succ_of_lt hindex, hindexed⟩
  · intro one other first second hfirst hsecond hone hother heq
    rcases hpublished hone with rfl | hone' <;> rcases hpublished hother with rfl | hother'
    · rfl
    · cases hholder.symm.trans hfirst
      exact absurd heq.symm (hearlier hsecond hother')
    · cases hholder.symm.trans hsecond
      exact absurd heq (hearlier hfirst hone')
    · exact h.unique hfirst hsecond hone' hother' heq

theorem release (h : Inv generations world) {phase : Phase} (hlock : world.lock = some (id, phase))
    (hintent : world.intent id = some intent) (hbehind : phase.isBehind = false) {outcome : Outcome}
    (houtcome : (Stage.finished outcome).isPublished = phase.isRotated) :
    Inv generations (world.release id intent outcome) := by
  have hcommitting : intent.stage = .committing := by
    have ⟨_, holder, hholder, hstage, _⟩ := h.held hlock
    rw [hintent] at hholder
    cases hholder
    exact hstage
  refine h.frame rfl rfl rfl ?_ ?_ ?_
  · intro other now hnow
    change (world.setIntent id { intent with stage := .finished outcome }).intent other = _ at hnow
    by_cases heq : other = id
    · subst heq
      rw [World.setIntent_self] at hnow
      cases hnow
      refine ⟨intent, hintent, rfl, rfl, ?_⟩
      have hopen : intent.stage.isPublished = false := by rw [hcommitting]; rfl
      simp [World.Published, World.release, hlock, houtcome, hopen]
    · rw [World.setIntent_of_ne _ _ heq] at hnow
      refine ⟨now, hnow, rfl, rfl, or_congr Iff.rfl ?_⟩
      simp [World.release, hlock, Ne.symm heq]
  · intro _
    exact h.binding_of_held hlock hbehind
  · intro other held hheld
    cases hheld

end Inv

variable {action : Action}

theorem Step.inv (hnew : Injective generations) (h : Inv generations world)
    (hstep : Step generations world action next) : Inv generations next := by
  cases hstep with
  | Begin hlock => exact h.Begin hlock ..
  | cancel => exact h.stop _
  | validated _ hintent hstage _ =>
    have ⟨hopen, hnext⟩ := Stage.isOpen_of_validated? hstage
    exact h.setIntent hintent hopen rfl rfl (Stage.isPublished_of_isOpen hnext)
  | invalid _ hintent hstage _ =>
    exact h.finish hintent (Stage.isOpen_of_validated? hstage).1 _
  | compared hintent hstage _ =>
    exact h.setIntent hintent (by rw [hstage]; rfl) rfl rfl rfl
  | changed hintent hstage _ =>
    exact h.finish hintent (by rw [hstage]; rfl) _
  | prepared hintent hstage =>
    exact h.setIntent hintent (by rw [hstage]; rfl) rfl rfl rfl
  | unprepared _ hintent hstage =>
    exact h.finish hintent (by rw [hstage]; rfl) _
  | reject hintent hstage =>
    exact h.finish hintent (by rw [hstage]; rfl) _
  | fenced hlock hintent hready hvalid =>
    exact h.fenced hlock hintent hready.isOpen hvalid
  | refused _ hintent hready _ =>
    exact h.finish hintent hready.isOpen _
  | accepted hlock _ _ => exact h.hold hlock rfl fun _ => h.binding_of_held hlock rfl
  | aborted hlock hintent _ => exact h.release hlock hintent rfl rfl
  | keep hlock hintent => exact h.release hlock hintent rfl rfl
  | rotate hlock => exact h.rotate hnew hlock
  | renew hlock =>
    have hrenewed : Inv generations world.renewWork := h.congr rfl rfl rfl rfl rfl rfl
    exact hrenewed.hold hlock rfl nofun
  | @afterPublish _ activation hlock =>
    have hactivated := h.activate activation
    cases activation <;> exact hactivated.hold hlock rfl fun _ => rfl
  | @published _ expiresAt _ token hlock hintent =>
    have hrotated : Inv generations
        { world with session := ⟨token, world.generation, expiresAt⟩ } :=
      h.congr rfl rfl rfl rfl rfl rfl
    exact hrotated.release hlock hintent rfl rfl
  | unrotated hlock hintent => exact h.release hlock hintent rfl rfl
  | session _ =>
    unfold World.currentSession
    split
    · exact h.congr rfl rfl rfl rfl rfl rfl
    · exact h
  | Initialize => exact h.activate _
  | Close _ => exact h.congr rfl rfl rfl rfl rfl rfl

/-! ## Whole runs -/

theorem Step.same (hstep : Step generations world action next)
    (haction : action = .commit id ∨ ∃ result, action = .transaction id result) :
    world.Same next := by
  rcases haction with rfl | ⟨result, rfl⟩ <;> cases hstep <;> constructor <;> rfl

/-- In every interleaving of selection changes the holder of the lock is the newest intent, its
expected generation is current up to the rotation, an intent that shares its generation with
another one is the only one of them that is published, the binding is at the current generation
outside of a commit, and a transaction that fails changes nothing. -/
theorem selection_changes (hnew : Function.Injective generations) {start : World}
    (hstart : Start generations start) {actions : List Action}
    (hruns : Runs (Step generations) start actions world) :
    (∀ id phase, world.lock = some (id, phase) → id = world.sequence ∧
      ∃ intent, world.intent id = some intent ∧
        (phase.isRotated = false → intent.expectedGeneration = world.generation)) ∧
    (∀ id other intent rival, world.intent id = some intent → world.intent other = some rival →
      world.Published id intent → world.Published other rival →
      intent.begunAt = rival.begunAt ∨ intent.expectedGeneration = rival.expectedGeneration →
      id = other) ∧
    (world.lock = none → world.binding.generation = world.generation) ∧
    (∀ id intent result error next, world.lock = some (id, .fenced) →
      world.intent id = some intent → world.transaction intent result = .error error →
      Step generations world (.transaction id result) next →
      world.Same next ∧ next.lock = none ∧
        next.intent id = some { intent with stage := .finished (.failed error) }) := by
  have h : Inv generations world := hruns.invariant hstart.inv fun h hstep => hstep.inv hnew h
  refine ⟨?_, ?_, ?_, ?_⟩
  · intro id phase hlock
    have ⟨hnewest, intent, hintent, _, hexpected⟩ := h.held hlock
    exact ⟨hnewest, intent, hintent, hexpected⟩
  · intro id other intent rival hintent hrival hid hother hsame
    have ⟨hbegun, _⟩ := h.published hintent hid
    have ⟨hbegun', _⟩ := h.published hrival hother
    apply h.unique hintent hrival hid hother
    rcases hsame with hsame | hsame
    · rw [← hbegun, ← hbegun', hsame]
    · exact hsame
  · intro hlock
    apply h.binding
    intro id phase hphase
    rw [hlock] at hphase
    cases hphase
  · intro id intent result error next hlock hintent herror hstep
    have hsame := hstep.same (.inr ⟨result, rfl⟩)
    cases hstep with
    | accepted _ hintent' haccepted =>
      cases hintent.symm.trans hintent'
      cases herror.symm.trans haccepted
    | aborted _ hintent' haborted =>
      cases hintent.symm.trans hintent'
      cases herror.symm.trans haborted
      exact ⟨hsame, rfl, World.setIntent_self ..⟩

def unbound : World where
  generation := "g"
  issued := 0
  session := ⟨"", "", 0⟩
  sequence := 0
  intentStop := none
  cancelled _ := false
  workContext := 0
  workCancelled _ := false
  workStop := true
  binding := ⟨0, "", "", 0, "g"⟩
  resolution := ⟨0, "", .single, "", none, [], false⟩
  intent _ := none
  lock := none

theorem unbound_start : Start tally unbound where
  generation := by decide
  binding := rfl
  intent _ := rfl
  sequence := rfl
  intentStop := rfl
  lock := rfl

def overtaking : List Action :=
  [.Begin .Mutate "g", .Begin (.ReplaceContext ⟨1, "dev", "kind", 0, ""⟩ unbound.resolution) "g",
    .commit 2, .transaction 2 (.ok ⟨true, none⟩), .rotate 2, .renew 2, .afterPublish 2,
    .rotateSession 2 (some ("nonce", 60)), .Validate 1]

/-- The second of two changes begun at one generation is published; the first one finds itself
superseded. -/
theorem selection_changes_second :
    ∃ world, Runs (Step tally) unbound overtaking world ∧
      world.generation = "gg" ∧ world.binding = ⟨1, "dev", "kind", 0, "gg"⟩ ∧
      world.workContext = 1 ∧
      world.intent 1 = some
        ⟨.Mutate, "g", "g", .finished (.failed .ErrSuperseded), none⟩ ∧
      ∀ other rival, world.intent other = some rival → world.Published other rival →
        rival.begunAt = "g" → other = 2 := by
  apply runs_with
  apply runs_cons (.Begin rfl)
  apply runs_cons (.Begin rfl)
  apply runs_cons (.fenced rfl rfl rfl (by decide))
  apply runs_cons (.accepted rfl rfl rfl)
  apply runs_cons (.rotate rfl)
  apply runs_cons (.renew rfl)
  apply runs_cons (.afterPublish rfl)
  apply runs_cons (.published rfl rfl)
  apply runs_cons (.invalid rfl rfl rfl rfl)
  refine ⟨_, .nil _, fun hruns => ⟨by decide, by decide, rfl, rfl, ?_⟩⟩
  intro other rival hrival hpublished hbegun
  exact (selection_changes tally_injective unbound_start hruns).2.1 other 2 rival _ hrival rfl
    hpublished (.inl rfl) (.inl hbegun)

end Kubepeep.Selection
