import Kubepeep.Actions.PortForward

/-!
# The invariant of the port-forward manager

The gate of an origin is held by one create at a time; a create owns the reservation it has made;
from the end of `closeTarget` to its publication, its origin has no other active session; and what a
create has open is listed by the phase it is in.
-/

open Bool List Function

namespace Kubepeep.Actions.PortForward

open Kubepeep.System

variable {E : Type}

namespace Phase

def position : Phase E → Position
  | .idle => .away
  | .waiting g => .registered g
  | .reviewing g => .holding g
  | .permitted g => .holding g
  | .current g => .holding g
  | .reserved g _ => .holding g
  | .closing g _ _ => .holding g
  | .joining g _ _ _ => .holding g
  | .attached g _ => .holding g
  | .checked g _ => .holding g
  | .identified g _ _ => .holding g
  | .bound g _ _ => .holding g
  | .connected g _ _ => .holding g
  | .ready g _ _ => .holding g
  | .comparing g _ _ _ => .holding g
  | .stopping g _ => .holding g
  | .failing g _ _ => .holding g
  | .released g _ => .holding g
  | .rechecked g _ => .holding g
  | .leaving g _ => .holding g
  | .unregistering g _ => .registered g
  | .finished _ => .away

def start? : Phase E → Option Nat
  | .reserved _ s => some s
  | .closing _ s _ => some s
  | .joining _ s _ _ => some s
  | .attached _ s => some s
  | .checked _ s => some s
  | .identified _ s _ => some s
  | .bound _ s _ => some s
  | .connected _ s _ => some s
  | .ready _ s _ => some s
  | .comparing _ s _ _ => some s
  | .failing _ s _ => some s
  | _ => none

def previous? : Phase E → Option (List Nat)
  | .closing _ _ previous => some previous
  | .joining _ _ _ previous => some previous
  | .attached _ _ => some []
  | .checked _ _ => some []
  | .identified _ _ _ => some []
  | .bound _ _ _ => some []
  | .connected _ _ _ => some []
  | .ready _ _ _ => some []
  | .comparing _ _ _ _ => some []
  | _ => none

/-- The create, or the session that it has published, can have a listener open. -/
def mayListen : Phase E → Bool
  | .bound _ _ _ => true
  | .connected _ _ _ => true
  | .ready _ _ _ => true
  | .comparing _ _ _ _ => true
  | .stopping _ _ => true
  | phase => phase.isPublished

def mayConnect : Phase E → Bool
  | .connected _ _ _ => true
  | .ready _ _ _ => true
  | .comparing _ _ _ _ => true
  | .stopping _ _ => true
  | phase => phase.isPublished

structure Moves (before after : Phase E) : Prop where
  start : after.start? = before.start?
  previous : ∀ {previous}, after.previous? = some previous → before.previous? = some previous
  published : before.isPublished = true → after.isPublished = true

theorem Moves.plain {before after : Phase E} (hstart : after.start? = before.start?)
    (hprevious : after.previous? = none) (hpublished : before.isPublished = false) :
    Moves before after where
  start := hstart
  previous h := by rw [hprevious] at h; cases h
  published h := by rw [hpublished] at h; cases h

theorem holding_of_previous {phase : Phase E} {previous : List Nat}
    (h : phase.previous? = some previous) : ∃ g, phase.position = .holding g := by
  cases phase <;> first | exact ⟨_, rfl⟩ | cases h

end Phase

namespace PortForwardManager

variable (m : PortForwardManager E)

def creator (s : Nat) : Option Nat := (m.starts.lookup s).map fun start => start.create

def Holds (origin : Nat → PortForwardOrigin) (key : PortForwardOrigin) : Prop :=
  (∃ s c, m.creator s = some c ∧ origin c = key) ∨
    ∃ id p, m.sessions.lookup id = some p ∧ m.isActive p = true ∧ origin p = key

end PortForwardManager

structure Inv (origin : Nat → PortForwardOrigin) (m : PortForwardManager E) : Prop where
  gates : KeyedMutex.Inv origin m.targetGates fun c => (m.call c).position
  owner : ∀ {s c}, m.creator s = some c ↔ (m.call c).start? = some s
  bound : ∀ {s c}, m.creator s = some c → s ≤ m.nextStart
  row : ∀ {id p}, m.sessions.lookup id = some p → (m.session p).id = id ∧
    (m.session p).origin = origin p ∧ (m.call p).isPublished = true
  previous : ∀ {c previous}, (m.call c).previous? = some previous → ∀ {id p},
    m.sessions.lookup id = some p → m.isActive p = true → origin p = origin c → p ∈ previous
  origins : ∀ held : Finset PortForwardOrigin, (∀ key ∈ held, m.Holds origin key) →
    held.card ≤ MaximumPortForwardSessions
  single : ∀ {id other p q}, m.sessions.lookup id = some p → m.sessions.lookup other = some q →
    m.isActive p = true → m.isActive q = true → origin p = origin q → p = q
  listener : ∀ {c}, m.listener c = true → (m.call c).mayListen = true
  handle : ∀ {c}, m.handle c = true → (m.call c).mayConnect = true

variable {origin : Nat → PortForwardOrigin} {m next : PortForwardManager E}

theorem PortForwardManager.New.inv (h : m.New) : Inv origin m := by
  have hstarts : ∀ s, m.creator s = none := by
    intro s
    rw [PortForwardManager.creator, h.starts]
    rfl
  have hsessions : ∀ {id p}, m.sessions.lookup id ≠ some p := by
    rw [h.sessions]
    exact nofun
  refine ⟨.empty h.targetGates fun c => ?_, ?_, ?_, fun hrow => absurd hrow hsessions, ?_, ?_,
    fun hrow => absurd hrow hsessions, ?_, ?_⟩
  · rw [h.call c]
    rfl
  · intro s c
    rw [hstarts s, h.call c]
    exact iff_of_false nofun nofun
  · intro s c hcreator
    rw [hstarts s] at hcreator
    cases hcreator
  · intro c previous hprevious
    rw [h.call c] at hprevious
    cases hprevious
  · intro held hheld
    have hempty : held = ∅ := by
      refine Finset.eq_empty_of_forall_notMem fun key hkey => ?_
      rcases hheld key hkey with ⟨s, c, hcreator, -⟩ | ⟨id, p, hrow, -⟩
      · rw [hstarts s] at hcreator
        cases hcreator
      · exact hsessions hrow
    rw [hempty]
    exact Nat.zero_le _
  · intro c hopen
    rw [h.listener c] at hopen
    cases hopen
  · intro c hopen
    rw [h.handle c] at hopen
    cases hopen

theorem PortForwardManager.card_le_activeSlots (m : PortForwardManager E)
    {held : Finset PortForwardOrigin}
    (hheld : ∀ key ∈ held, m.Holds origin key) : held.card ≤ m.activeSlots := by
  let reserved := m.starts.entries.map fun row => origin row.2.create
  let active := (m.rows.filter m.isActive).map origin
  have hsubset : held ⊆ (reserved ++ active).toFinset := by
    intro key hkey
    rw [mem_toFinset, mem_append]
    rcases hheld key hkey with ⟨s, c, hcreator, hkey⟩ | ⟨id, p, hrow, hactive, hkey⟩
    · have ⟨start, hstart, hcreate⟩ := Option.map_eq_some_iff.mp hcreator
      refine .inl (mem_map.mpr ⟨⟨s, start⟩, Table.lookup_eq_some_iff.mp hstart, ?_⟩)
      rw [← hkey, ← hcreate]
    · refine .inr (mem_map.mpr ⟨p, mem_filter.mpr ⟨?_, hactive⟩, hkey⟩)
      exact mem_map.mpr ⟨⟨id, p⟩, Table.lookup_eq_some_iff.mp hrow, rfl⟩
  calc held.card ≤ (reserved ++ active).toFinset.card := Finset.card_le_card hsubset
    _ ≤ (reserved ++ active).length := toFinset_card_le _
    _ = m.activeSlots := by
      rw [length_append, length_map, length_map]
      rfl

theorem PortForwardManager.creator_erase (m : PortForwardManager E) {s t c : Nat} :
    ((m.starts.erase s).lookup t).map (fun start => start.create) = some c ↔
      t ≠ s ∧ m.creator t = some c := by
  simp only [creator, Option.map_eq_some_iff, Table.lookup_erase_eq_some_iff]
  constructor
  · rintro ⟨start, ⟨hne, hrow⟩, rfl⟩
    exact ⟨hne, start, hrow, rfl⟩
  · rintro ⟨hne, start, hrow, rfl⟩
    exact ⟨start, ⟨hne, hrow⟩, rfl⟩

namespace Inv

theorem frame (h : Inv origin m) (hgates : next.targetGates = m.targetGates)
    (hcall : next.call = m.call) (hcreator : ∀ s, next.creator s = m.creator s)
    (hnext : next.nextStart = m.nextStart)
    (hsessions : ∀ {id p}, next.sessions.lookup id = some p → m.sessions.lookup id = some p)
    (hsession : ∀ p, (next.session p).id = (m.session p).id ∧
      (next.session p).origin = (m.session p).origin ∧
      (next.isActive p = true → m.isActive p = true))
    (hlistener : ∀ {c}, next.listener c = true → m.listener c = true)
    (hhandle : ∀ {c}, next.handle c = true → m.handle c = true) : Inv origin next where
  gates := by
    rw [hgates, hcall]
    exact h.gates
  owner := by
    intro s c
    rw [hcreator, hcall]
    exact h.owner
  bound := by
    intro s c hc
    rw [hcreator] at hc
    rw [hnext]
    exact h.bound hc
  row := by
    intro id p hrow
    rw [(hsession p).1, (hsession p).2.1, hcall]
    exact h.row (hsessions hrow)
  previous := by
    intro c previous hprevious id p hrow hactive
    rw [hcall] at hprevious
    exact h.previous hprevious (hsessions hrow) ((hsession p).2.2 hactive)
  origins held hheld := by
    refine h.origins held fun key hkey => ?_
    rcases hheld key hkey with ⟨s, c, hc, hkey⟩ | ⟨id, p, hrow, hactive, hkey⟩
    · rw [hcreator] at hc
      exact .inl ⟨s, c, hc, hkey⟩
    · exact .inr ⟨id, p, hsessions hrow, (hsession p).2.2 hactive, hkey⟩
  single := by
    intro id other p q hp hq hfirst hsecond
    exact h.single (hsessions hp) (hsessions hq) ((hsession p).2.2 hfirst)
      ((hsession q).2.2 hsecond)
  listener hopen := by
    rw [hcall]
    exact h.listener (hlistener hopen)
  handle hopen := by
    rw [hcall]
    exact h.handle (hhandle hopen)

theorem pruneLocked (h : Inv origin m) (retention now : Int) :
    Inv origin (m.pruneLocked retention now) :=
  h.frame rfl rfl (fun _ => rfl) rfl (fun hrow => (Table.lookup_prune_eq_some_iff.mp hrow).1)
    (fun _ => ⟨rfl, rfl, fun hactive => hactive⟩) (fun hopen => hopen) (fun hopen => hopen)

theorem closeAll (h : Inv origin m) (p : Nat) : Inv origin (m.closeAll p) := by
  have hclosed : ∀ {f : Nat → Bool} {c}, update f p false c = true → f c = true := by
    intro f c hopen
    exact of_update f (· = true) hopen nofun
  exact h.frame rfl rfl (fun _ => rfl) rfl (fun hrow => hrow)
    (fun _ => ⟨rfl, rfl, fun hactive => hactive⟩) hclosed hclosed

variable {status : PortForwardStatus}

section

variable (h : Inv origin m)

include h

theorem endSession (p : Nat) (now : Int)
    (hstatus : status ≠ .PortForwardActive) : Inv origin (m.endSession p status now) := by
  have hsession : ∀ q, ((m.endSession p status now).session q).id = (m.session q).id ∧
      ((m.endSession p status now).session q).origin = (m.session q).origin ∧
      ((m.endSession p status now).isActive q = true → m.isActive q = true) := by
    refine (forall_update_iff m.session fun q state => state.id = (m.session q).id ∧
      state.origin = (m.session q).origin ∧
      ((state.status == .PortForwardActive) = true → m.isActive q = true)).mpr
      ⟨⟨rfl, rfl, ?_⟩, fun _ _ => ⟨rfl, rfl, fun hactive => hactive⟩⟩
    intro hactive
    exact absurd (beq_iff_eq.mp hactive) hstatus
  exact h.frame rfl rfl (fun _ => rfl) rfl (fun hrow => hrow) hsession (fun hopen => hopen)
    (fun hopen => hopen)

theorem finish (identifier : String) (now : Int)
    (hstatus : status ≠ .PortForwardActive) : Inv origin (m.finish identifier status now) := by
  rw [PortForwardManager.finish]
  split
  · exact h
  · split
    · exact h
    · exact h.endSession _ now hstatus

theorem close (identifier generation : String) (now : Int) :
    Inv origin (m.Close identifier generation now).1 := by
  rw [PortForwardManager.Close]
  split
  · exact h
  · split
    · exact h
    · split
      · exact h
      · exact h.endSession _ now nofun

theorem sweep (keep : String → Bool) : Inv origin (m.sweep keep) := by
  have hcreator : ∀ s, (m.sweep keep).creator s = m.creator s := by
    intro s
    ext c
    simp only [PortForwardManager.creator, PortForwardManager.sweep, Option.map_eq_some_iff,
      Table.lookup_map_eq_some_iff]
    constructor
    · rintro ⟨_, ⟨start, hrow, rfl⟩, rfl⟩
      exact ⟨start, hrow, rfl⟩
    · rintro ⟨start, hrow, rfl⟩
      exact ⟨_, ⟨start, hrow, rfl⟩, rfl⟩
  exact h.frame rfl rfl hcreator rfl (fun hrow => (Table.lookup_prune_eq_some_iff.mp hrow).1)
    (fun _ => ⟨rfl, rfl, fun hactive => hactive⟩) (fun hopen => hopen) (fun hopen => hopen)

theorem shutdown : Inv origin m.Shutdown := by
  rw [PortForwardManager.Shutdown]
  split
  · exact h
  · exact (h.sweep fun _ => false).frame rfl rfl (fun _ => rfl) rfl (fun hrow => hrow)
      (fun _ => ⟨rfl, rfl, fun hactive => hactive⟩) (fun hopen => hopen) (fun hopen => hopen)

end

/-! ## One create moves on -/

variable {phase : Phase E} {c : Nat} {mutex : KeyedMutex PortForwardOrigin}

theorem gates_update (h : KeyedMutex.Inv origin mutex
      (update (fun d => (m.call d).position) c phase.position)) :
    KeyedMutex.Inv origin mutex fun d => (update m.call c phase d).position :=
  h.congr fun d => apply_update (fun _ phase => Phase.position phase) m.call c phase d

section

variable (h : Inv origin m)

include h

theorem gates_stay (hposition : phase.position = (m.call c).position) :
    KeyedMutex.Inv origin m.targetGates fun d => (update m.call c phase d).position := by
  apply gates_update
  rw [hposition, update_eq_self]
  exact h.gates

variable (hstart : phase.start? = (m.call c).start?)
  (hprevious : ∀ {previous}, phase.previous? = some previous → ∀ {id p},
    m.sessions.lookup id = some p → m.isActive p = true → origin p = origin c → p ∈ previous)
  (hpublished : (m.call c).isPublished = true → phase.isPublished = true)
  (hlistener : m.listener c = true → phase.mayListen = true)
  (hhandle : m.handle c = true → phase.mayConnect = true)

include hpublished in
theorem row_update {id : String} {p : Nat}
    (hrow : m.sessions.lookup id = some p) : (m.session p).id = id ∧
      (m.session p).origin = origin p ∧ (update m.call c phase p).isPublished = true := by
  have ⟨hid, horigin, hbefore⟩ := h.row hrow
  refine ⟨hid, horigin, ?_⟩
  exact imp_update m.call (·.isPublished = true) hpublished p hbefore

include hprevious in
theorem previous_update {d : Nat} {previous : List Nat}
    (hlist : (update m.call c phase d).previous? = some previous) {id : String} {p : Nat}
    (hrow : m.sessions.lookup id = some p) (hactive : m.isActive p = true)
    (hsame : origin p = origin d) : p ∈ previous := by
  rcases update_cases m.call (fun phase => phase.previous? = some previous) hlist with
    ⟨rfl, hnew⟩ | ⟨-, hold⟩
  · exact hprevious hnew hrow hactive hsame
  · exact h.previous hold hrow hactive hsame

include hlistener in
theorem listener_update {d : Nat} :
    m.listener d = true → (update m.call c phase d).mayListen = true :=
  (forall_update_iff m.call fun d after =>
    m.listener d = true → after.mayListen = true).mpr ⟨hlistener, fun _ _ => h.listener⟩ d

include hhandle in
theorem handle_update {d : Nat} :
    m.handle d = true → (update m.call c phase d).mayConnect = true :=
  (forall_update_iff m.call fun d after =>
    m.handle d = true → after.mayConnect = true).mpr ⟨hhandle, fun _ _ => h.handle⟩ d

section

include hstart hprevious hpublished hlistener hhandle

theorem move (hgates : KeyedMutex.Inv origin mutex
      (update (fun d => (m.call d).position) c phase.position)) :
    Inv origin ((m.setGates mutex).setCall c phase) where
  gates := gates_update hgates
  owner {s d} := by
    have hsame : ∀ d, (update m.call c phase d).start? = (m.call d).start? :=
      update_same m.call (·.start?) hstart
    show m.creator s = some d ↔ (update m.call c phase d).start? = some s
    rw [hsame d]
    exact h.owner
  bound := h.bound
  row := h.row_update hpublished
  previous := h.previous_update hprevious
  origins := h.origins
  single := h.single
  listener := h.listener_update hlistener
  handle := h.handle_update hhandle

theorem stay (hposition : phase.position = (m.call c).position) :
    Inv origin (m.setCall c phase) := by
  have hgates : KeyedMutex.Inv origin m.targetGates
      (update (fun d => (m.call d).position) c phase.position) := by
    rw [hposition, update_eq_self]
    exact h.gates
  exact h.move hstart hprevious hpublished hlistener hhandle hgates

end

include hlistener hhandle in
theorem setCall (hposition : phase.position = (m.call c).position)
    (hmoves : (m.call c).Moves phase) :
    Inv origin (m.setCall c phase) :=
  h.stay hmoves.start (fun hlist => h.previous (hmoves.previous hlist)) hmoves.published hlistener
    hhandle hposition

theorem closed (hlisten : (m.call c).mayListen = false)
    (hconnect : (m.call c).mayConnect = false) : m.listener c = false ∧ m.handle c = false := by
  constructor
  · refine eq_false_iff.mpr fun hopen => ?_
    rw [h.listener hopen] at hlisten
    cases hlisten
  · refine eq_false_iff.mpr fun hopen => ?_
    rw [h.handle hopen] at hconnect
    cases hconnect

variable {before : Phase E}

theorem advance (hphase : m.call c = before)
    (hposition : phase.position = before.position) (hmoves : before.Moves phase)
    (hlisten : before.mayListen = false) (hconnect : before.mayConnect = false) :
    Inv origin (m.setCall c phase) := by
  subst hphase
  have ⟨hlistener, hhandle⟩ := h.closed hlisten hconnect
  refine h.setCall ?_ ?_ hposition hmoves
  · rw [hlistener]
    exact nofun
  · rw [hhandle]
    exact nofun

theorem closeAll_setCall (hphase : m.call c = before) (hposition : phase.position = before.position)
    (hmoves : before.Moves phase) : Inv origin ((m.closeAll c).setCall c phase) := by
  subst hphase
  refine (h.closeAll c).setCall ?_ ?_ hposition hmoves
  · show update m.listener c false c = true → _
    rw [update_self]
    exact nofun
  · show update m.handle c false c = true → _
    rw [update_self]
    exact nofun

theorem openListener (hphase : (m.call c).mayListen = true) :
    Inv origin { m with listener := update m.listener c true } :=
  { h with
    listener := fun {d} hopen => by
      rcases update_cases m.listener (fun value => value = true) hopen with ⟨rfl, -⟩ | ⟨-, hold⟩
      · exact hphase
      · exact h.listener hold }

theorem openHandle (hphase : (m.call c).mayConnect = true) :
    Inv origin { m with handle := update m.handle c true } :=
  { h with
    handle := fun {d} hopen => by
      rcases update_cases m.handle (fun value => value = true) hopen with ⟨rfl, -⟩ | ⟨-, hold⟩
      · exact hphase
      · exact h.handle hold }

theorem pass (hphase : m.call c = before) (hgates : KeyedMutex.Inv origin mutex
      (update (fun d => (m.call d).position) c phase.position))
    (hmoves : before.Moves phase) (hlisten : before.mayListen = true → phase.mayListen = true)
    (hconnect : before.mayConnect = true → phase.mayConnect = true) :
    Inv origin ((m.setGates mutex).setCall c phase) := by
  subst hphase
  exact h.move hmoves.start (fun hlist => h.previous (hmoves.previous hlist))
    hmoves.published (fun hopen => hlisten (h.listener hopen))
    (fun hopen => hconnect (h.handle hopen)) hgates

/-! ## The sessions of the origin -/

theorem collectPrevious {g s : Nat} (hphase : m.call c = .reserved g s) :
    Inv origin (m.collectPrevious c g s (origin c)) := by
  have ⟨hlistener, hhandle⟩ := h.closed (c := c) (by rw [hphase]; rfl) (by rw [hphase]; rfl)
  refine h.stay (by rw [hphase]; rfl) ?_ (by rw [hphase]; exact nofun) ?_ ?_ (by rw [hphase]; rfl)
  · rintro _ ⟨⟩ id p hrow - hsame
    refine mem_filter.mpr ⟨mem_map.mpr ⟨⟨id, p⟩, ?_, rfl⟩, ?_⟩
    · exact Table.lookup_eq_some_iff.mp hrow
    · rw [(h.row hrow).2.1]
      exact beq_iff_eq.mpr hsame
  · rw [hlistener]
    exact nofun
  · rw [hhandle]
    exact nofun

theorem not_active_finish {p : Nat} {id : String}
    {now : Int} (hstatus : status ≠ .PortForwardActive)
    (hrow : (m.finish (m.session p).id status now).sessions.lookup id = some p) :
    (m.finish (m.session p).id status now).isActive p = false := by
  have hbefore : m.sessions.lookup id = some p := by
    rw [PortForwardManager.finish] at hrow
    split at hrow
    · exact hrow
    · split at hrow
      · exact hrow
      · exact hrow
  have hid : m.sessions.lookup (m.session p).id = some p := by
    rw [(h.row hbefore).1]
    exact hbefore
  rw [PortForwardManager.finish, hid]
  by_cases hactive : m.isActive p = true
  · simp only [hactive, Bool.not_true, Bool.false_eq_true, if_false]
    show ((update m.session p _ p).status == .PortForwardActive) = false
    rw [update_self]
    exact beq_false_of_ne hstatus
  · simp only [Bool.not_eq_true] at hactive
    simp only [hactive, Bool.not_false, if_true]

theorem finishPrevious {g s p : Nat} {previous : List Nat} (now : Int)
    (hphase : m.call c = .closing g s (p :: previous)) :
    Inv origin ((m.finish (m.session p).id .PortForwardClosed now).setCall c
      (.joining g s p previous)) := by
  have hfinish : Inv origin (m.finish (m.session p).id .PortForwardClosed now) :=
    h.finish _ now nofun
  have hcall : (m.finish (m.session p).id .PortForwardClosed now).call c =
      .closing g s (p :: previous) := by
    rw [← hphase, PortForwardManager.finish]
    split
    · rfl
    · split <;> rfl
  have ⟨hlistener, hhandle⟩ := hfinish.closed (c := c) (by rw [hcall]; rfl) (by rw [hcall]; rfl)
  refine hfinish.stay (by rw [hcall]; rfl) ?_ (by rw [hcall]; exact nofun) ?_ ?_
    (by rw [hcall]; rfl)
  · rintro _ ⟨⟩ id q hrow hactive hsame
    have hmem := hfinish.previous (by rw [hcall]; rfl) hrow hactive hsame
    apply (mem_cons.mp hmem).resolve_left
    rintro rfl
    have hended := h.not_active_finish (by exact nofun) hrow
    rw [hactive] at hended
    cases hended
  · rw [hlistener]
    exact nofun
  · rw [hhandle]
    exact nofun

/-! ## The reservations -/

theorem addStart {g : Nat} (hphase : m.call c = .current g)
    (hspace : m.activeSlots < MaximumPortForwardSessions ∨ m.replacing (origin c) = true) :
    Inv origin (m.addStart c g (origin c).generation) := by
  have ⟨hlistener, hhandle⟩ := h.closed (c := c) (by rw [hphase]; rfl) (by rw [hphase]; rfl)
  have hfresh : ∀ {d}, m.creator (m.nextStart + 1) ≠ some d :=
    fun hcreator => Nat.not_succ_le_self _ (h.bound hcreator)
  have hcreator : ∀ {s d}, (m.addStart c g (origin c).generation).creator s = some d ↔
      (s = m.nextStart + 1 ∧ d = c) ∨ m.creator s = some d := by
    intro s d
    simp only [PortForwardManager.creator, PortForwardManager.addStart, Option.map_eq_some_iff,
      Table.lookup_insert_eq_some_iff]
    constructor
    · rintro ⟨start, ⟨rfl, rfl⟩ | ⟨-, hrow⟩, rfl⟩
      · exact .inl ⟨rfl, rfl⟩
      · exact .inr ⟨start, hrow, rfl⟩
    · rintro (⟨rfl, rfl⟩ | ⟨start, hrow, rfl⟩)
      · exact ⟨_, .inl ⟨rfl, rfl⟩, rfl⟩
      · refine ⟨start, .inr ⟨?_, hrow⟩, rfl⟩
        rintro rfl
        exact hfresh (Option.map_eq_some_iff.mpr ⟨start, hrow, rfl⟩)
  refine ⟨h.gates_stay (by rw [hphase]; rfl), ?_, ?_, h.row_update (by rw [hphase]; exact nofun),
    h.previous_update (by rintro _ ⟨⟩), ?_, h.single,
    h.listener_update (by rw [hlistener]; exact nofun),
    h.handle_update (by rw [hhandle]; exact nofun)⟩
  · intro s d
    rw [hcreator]
    show _ ↔ (update m.call c (.reserved g (m.nextStart + 1)) d).start? = some s
    by_cases hd : d = c
    · subst hd
      rw [update_self]
      constructor
      · rintro (⟨rfl, -⟩ | hold)
        · rfl
        · rw [h.owner, hphase] at hold
          cases hold
      · rintro ⟨⟩
        exact .inl ⟨rfl, rfl⟩
    · rw [update_of_ne hd, ← h.owner]
      exact or_iff_right fun hnew => hd hnew.2
  · intro s d hs
    rcases hcreator.mp hs with ⟨rfl, -⟩ | hold
    · exact Nat.le_refl _
    · exact Nat.le_succ_of_le (h.bound hold)
  · intro held hheld
    have hbefore : ∀ key ∈ held, key = origin c ∨ m.Holds origin key := by
      intro key hkey
      rcases hheld key hkey with ⟨s, d, hs, hkey⟩ | hsession
      · rcases hcreator.mp hs with ⟨-, rfl⟩ | hold
        · exact .inl hkey.symm
        · exact .inr (.inl ⟨s, d, hold, hkey⟩)
      · exact .inr (.inr hsession)
    rcases hspace with hspace | hreplacing
    · -- at most the origin of this create is new
      have hothers : ∀ key ∈ held.erase (origin c), m.Holds origin key := fun key hkey =>
        (hbefore key (Finset.mem_of_mem_erase hkey)).resolve_left (Finset.ne_of_mem_erase hkey)
      have hcount := m.card_le_activeSlots hothers
      have hcard := Finset.pred_card_le_card_erase (s := held) (a := origin c)
      omega
    · refine h.origins held fun key hkey => ?_
      rcases hbefore key hkey with rfl | hold
      · have ⟨p, hp, hactive⟩ := any_eq_true.mp hreplacing
        rw [and_eq_true, beq_iff_eq] at hactive
        have ⟨⟨id, q⟩, hentry, hsame⟩ := mem_map.mp hp
        have hrow : m.sessions.lookup id = some p :=
          Table.lookup_eq_some_iff.mpr (hsame ▸ hentry)
        exact .inr ⟨id, p, hrow, hactive.1, (h.row hrow).2.1.symm.trans hactive.2⟩
      · exact hold

theorem dropStart {s : Nat} (hstart : (m.call c).start? = some s) (hphase : phase.start? = none)
    (hposition : phase.position = (m.call c).position) (hprevious : phase.previous? = none)
    (hpublished : (m.call c).isPublished = false)
    (hlistener : m.listener c = true → phase.mayListen = true)
    (hhandle : m.handle c = true → phase.mayConnect = true) :
    Inv origin (m.dropStart c s phase) := by
  have hcreator : ∀ {t d}, (m.dropStart c s phase).creator t = some d ↔
      t ≠ s ∧ m.creator t = some d := m.creator_erase
  refine ⟨h.gates_stay hposition, ?_, ?_, h.row_update (by rw [hpublished]; exact nofun),
    h.previous_update (by rw [hprevious]; exact nofun), ?_, h.single, h.listener_update hlistener,
    h.handle_update hhandle⟩
  · intro t d
    apply hcreator.trans
    show _ ↔ (update m.call c phase d).start? = some t
    rw [h.owner]
    by_cases hd : d = c
    · subst hd
      rw [update_self, hphase, hstart]
      refine iff_of_false ?_ nofun
      rintro ⟨hne, ⟨⟩⟩
      exact hne rfl
    · rw [update_of_ne hd]
      apply and_iff_right_of_imp
      rintro hold rfl
      have hsame := (h.owner.mpr hold).symm.trans (h.owner.mpr hstart)
      exact hd (Option.some.inj hsame)
  · intro t d ht
    exact h.bound (hcreator.mp ht).2
  · intro held hheld
    refine h.origins held fun key hkey => ?_
    rcases hheld key hkey with ⟨t, d, ht, hkey⟩ | hsession
    · exact .inl ⟨t, d, (hcreator.mp ht).2, hkey⟩
    · exact .inr hsession

theorem addSession {g s : Nat} {identifier current : String}
    (hphase : m.call c = .comparing g s identifier current)
    (hlookup : m.sessions.lookup identifier = none) :
    Inv origin (m.addSession c g s identifier (origin c)) := by
  have hstart : (m.call c).start? = some s := by rw [hphase]; rfl
  have hother : ∀ {id p}, m.sessions.lookup id = some p → p ≠ c := by
    rintro id p hrow rfl
    have hpublished := (h.row hrow).2.2
    rw [hphase] at hpublished
    cases hpublished
  have hsession : ∀ {p}, p ≠ c →
      (m.addSession c g s identifier (origin c)).session p = m.session p :=
    fun hp => update_of_ne hp ..
  have hactive : ∀ {p}, p ≠ c →
      (m.addSession c g s identifier (origin c)).isActive p = m.isActive p := by
    intro p hp
    rw [PortForwardManager.isActive, hsession hp]
    rfl
  have hrows : ∀ {id p}, (m.addSession c g s identifier (origin c)).sessions.lookup id = some p →
      (id = identifier ∧ p = c) ∨ (p ≠ c ∧ m.sessions.lookup id = some p) := by
    intro id p hrow
    rcases Table.lookup_insert_eq_some_iff.mp hrow with ⟨hid, rfl⟩ | ⟨-, hold⟩
    · exact .inl ⟨hid, rfl⟩
    · exact .inr ⟨hother hold, hold⟩
  -- the rest is as when the reservation is only given back
  have hdropped : Inv origin (m.dropStart c s (.leaving g none)) :=
    h.dropStart hstart rfl (by rw [hphase]; rfl) rfl (by rw [hphase]; rfl) (fun _ => rfl)
      (fun _ => rfl)
  refine ⟨hdropped.gates, hdropped.owner, hdropped.bound, ?_, ?_, ?_, ?_, hdropped.listener,
    hdropped.handle⟩
  · intro id p hrow
    rcases hrows hrow with ⟨rfl, rfl⟩ | ⟨hp, hold⟩
    · have hnew : (m.addSession p g s id (origin p)).session p =
          ⟨id, origin p, .PortForwardActive, none⟩ := update_self ..
      refine ⟨by rw [hnew], by rw [hnew], ?_⟩
      show (update m.call p _ p).isPublished = true
      rw [update_self]
      rfl
    · rw [hsession hp]
      exact hdropped.row hold
  · intro d previous hlist id p hrow hp hsame
    rcases hrows hrow with ⟨-, rfl⟩ | ⟨hne, hold⟩
    · -- another create of the origin would hold the gate as well
      have ⟨e, hholding⟩ := Phase.holding_of_previous hlist
      have hleaving : ((m.dropStart p s (.leaving g none)).call p).position = .holding g := by
        show (update m.call p _ p).position = _
        rw [update_self]
        rfl
      have hd : p = d := hdropped.gates.exclusive hleaving hholding hsame
      subst hd
      have hnone : (update m.call p (.leaving g none) p).previous? = some previous := hlist
      rw [update_self] at hnone
      cases hnone
    · rw [hactive hne] at hp
      exact hdropped.previous hlist hold hp hsame
  · intro held hheld
    refine h.origins held fun key hkey => ?_
    rcases hheld key hkey with ⟨t, d, ht, hkey⟩ | ⟨id, p, hrow, hp, hkey⟩
    · exact .inl ⟨t, d, (m.creator_erase.mp ht).2, hkey⟩
    · rcases hrows hrow with ⟨-, rfl⟩ | ⟨hne, hold⟩
      · exact .inl ⟨s, p, h.owner.mpr hstart, hkey⟩
      · rw [hactive hne] at hp
        exact .inr ⟨id, p, hold, hp, hkey⟩
  · -- its origin has had no active session since `closeTarget`
    have hnone : ∀ {id p}, m.sessions.lookup id = some p → m.isActive p = true →
        origin p ≠ origin c := by
      intro id p hold hp hsame
      exact absurd (h.previous (by rw [hphase]; rfl) hold hp hsame) not_mem_nil
    intro id other p q hp hq hfirst hsecond hsame
    rcases hrows hp with ⟨-, rfl⟩ | ⟨hpc, hold⟩ <;> rcases hrows hq with ⟨-, rfl⟩ | ⟨hqc, holder⟩
    · rfl
    · rw [hactive hqc] at hsecond
      exact absurd hsame.symm (hnone holder hsecond)
    · rw [hactive hpc] at hfirst
      exact absurd hsame (hnone hold hfirst)
    · rw [hactive hpc] at hfirst
      rw [hactive hqc] at hsecond
      exact h.single hold holder hfirst hsecond hsame

end

end Inv

end Kubepeep.Actions.PortForward
