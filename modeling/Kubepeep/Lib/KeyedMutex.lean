import Kubepeep.Lib.System
import Kubepeep.Lib.Table

/-!
# Mutexes by key

A table of mutexes that are made on demand.  A client registers with the mutex of its key, waits for
its token, gives the token back and leaves; the last client to leave deletes the mutex.  Two clients
of one key never hold a token at once, although the mutex of the key is deleted and made again.
-/

open Option Function

namespace Kubepeep

structure Gate where
  users : Nat
  held : Bool
  deriving DecidableEq, Repr

structure KeyedMutex (K : Type) where
  gates : Table K Nat
  gate : Nat → Gate
  next : Nat

inductive Position where
  | away
  | registered (gate : Nat)
  | holding (gate : Nat)
  deriving DecidableEq, Repr

def Position.gate? : Position → Option Nat
  | .away => none
  | .registered g => some g
  | .holding g => some g

namespace KeyedMutex

open Kubepeep.System

variable {K : Type} [DecidableEq K] (mutex : KeyedMutex K)

def find (key : K) : Nat := (mutex.gates.lookup key).getD mutex.next

def register (key : K) : KeyedMutex K :=
  match mutex.gates.lookup key with
  | some g =>
    { mutex with
      gate := update mutex.gate g
        { mutex.gate g with users := (mutex.gate g).users + 1 } }
  | none =>
    { gates := mutex.gates.insert key mutex.next
      gate := update mutex.gate mutex.next ⟨1, false⟩
      next := mutex.next + 1 }

def setHeld (g : Nat) (held : Bool) : KeyedMutex K :=
  { mutex with gate := update mutex.gate g { mutex.gate g with held := held } }

def leave (key : K) (g : Nat) : KeyedMutex K :=
  { mutex with
    gate := update mutex.gate g { mutex.gate g with users := (mutex.gate g).users - 1 }
    gates := if (mutex.gate g).users - 1 = 0 then mutex.gates.erase key else mutex.gates }

structure Inv (key : Nat → K) (mutex : KeyedMutex K) (position : Nat → Position) : Prop where
  bound : ∀ {k g}, mutex.gates.lookup k = some g → g < mutex.next
  distinct : ∀ {k l g}, mutex.gates.lookup k = some g → mutex.gates.lookup l = some g → k = l
  registered : ∀ {c g}, (position c).gate? = some g → mutex.gates.lookup (key c) = some g
  users : ∀ {k g}, mutex.gates.lookup k = some g → ∃ clients : Finset Nat,
    (∀ c, c ∈ clients ↔ (position c).gate? = some g) ∧ (mutex.gate g).users = clients.card
  holder : ∀ {c g}, position c = .holding g → (mutex.gate g).held = true
  single : ∀ {c d g}, position c = .holding g → position d = .holding g → c = d

namespace Inv

variable {mutex : KeyedMutex K} {key : Nat → K} {position : Nat → Position}

theorem empty (hgates : mutex.gates = ∅) (hposition : ∀ c, position c = .away) :
    Inv key mutex position := by
  have hempty : ∀ {k g}, mutex.gates.lookup k ≠ some g := by
    rw [hgates]
    exact nofun
  have haway : ∀ {c g}, position c ≠ .holding g := by
    intro c
    rw [hposition c]
    exact nofun
  refine ⟨fun h => absurd h hempty, fun h => absurd h hempty, ?_, fun h => absurd h hempty,
    fun h => absurd h haway, fun h => absurd h haway⟩
  intro c g h
  rw [hposition c] at h
  cases h

variable {c : Nat}

theorem exclusive (h : Inv key mutex position) {d g e : Nat} (hc : position c = .holding g)
    (hd : position d = .holding e) (hkey : key c = key d) : c = d := by
  have hfirst := h.registered (c := c) (by rw [hc]; rfl)
  have hsecond := h.registered (c := d) (by rw [hd]; rfl)
  rw [hkey, hsecond] at hfirst
  cases hfirst
  exact h.single hc hd

theorem congr (h : Inv key mutex position) {later : Nat → Position}
    (hlater : ∀ c, later c = position c) : Inv key mutex later := by
  rw [funext hlater]
  exact h

variable {g : Nat} {place : Position}

theorem clients_update {clients : Finset Nat}
    (hclients : ∀ d, d ∈ clients ↔ (position d).gate? = some g)
    (hbefore : (position c).gate? ≠ some g) (hafter : place.gate? ≠ some g) (d : Nat) :
    d ∈ clients ↔ (update position c place d).gate? = some g := by
  by_cases hd : d = c
  · subst hd
    rw [update_self, hclients d]
    exact iff_of_false hbefore hafter
  · rw [update_of_ne hd, hclients d]

section

variable (h : Inv key mutex position)

include h

theorem register (hc : position c = .away) :
    Inv key (mutex.register (key c))
      (update position c (.registered (mutex.find (key c)))) := by
  have haway : ∀ {g}, (position c).gate? ≠ some g := by
    rw [hc]
    exact nofun
  have hholding : ∀ {d g e}, update position c (.registered e) d = .holding g →
      position d = .holding g := by
    intro d g e hd
    exact of_update position (· = .holding g) hd nofun
  rw [KeyedMutex.register, find]
  cases hlookup : mutex.gates.lookup (key c) with
  | some g =>
    have hheld : ∀ e, (update mutex.gate g
        { mutex.gate g with users := (mutex.gate g).users + 1 } e).held = (mutex.gate e).held :=
      update_same mutex.gate (·.held) rfl
    refine ⟨h.bound, h.distinct, ?_, ?_, ?_, fun hd he => h.single (hholding hd) (hholding he)⟩
    · intro d e hgate
      rcases update_cases position (fun place => place.gate? = some e) hgate with
        ⟨rfl, hnew⟩ | ⟨-, hold⟩
      · exact hlookup.trans hnew
      · exact h.registered hold
    · intro k e hrow
      have ⟨clients, hclients, husers⟩ := h.users hrow
      by_cases he : e = g
      · subst he
        have hfresh : c ∉ clients := fun hmem => haway ((hclients c).mp hmem)
        refine ⟨insert c clients, ?_, ?_⟩
        · intro d
          by_cases hd : d = c
          · subst hd
            simp [Position.gate?]
          · rw [Finset.mem_insert, update_of_ne hd, hclients d]
            simp [hd]
        · show (update mutex.gate e _ e).users = _
          rw [update_self, Finset.card_insert_of_notMem hfresh, husers]
      · refine ⟨clients, clients_update hclients haway ?_, ?_⟩
        · exact fun hsame => he (some.inj hsame).symm
        · show (update mutex.gate g _ e).users = _
          rw [update_of_ne he, husers]
    · intro d e hd
      exact (hheld e).trans (h.holder (hholding hd))
  | none =>
    have hrow : ∀ {k e}, (mutex.gates.insert (key c) mutex.next).lookup k = some e →
        (k = key c ∧ mutex.next = e) ∨ (k ≠ key c ∧ mutex.gates.lookup k = some e) :=
      fun hlater => Table.lookup_insert_eq_some_iff.mp hlater
    refine ⟨?_, ?_, ?_, ?_, ?_, fun hd he => h.single (hholding hd) (hholding he)⟩
    · intro k e hlater
      rcases hrow hlater with ⟨-, rfl⟩ | ⟨-, hold⟩
      · exact Nat.lt_succ_self _
      · exact Nat.lt_succ_of_lt (h.bound hold)
    · intro k l e hk hl
      rcases hrow hk with ⟨hkey, rfl⟩ | ⟨-, hold⟩ <;>
        rcases hrow hl with ⟨hlast, hsame⟩ | ⟨-, holder⟩
      · exact hkey.trans hlast.symm
      · exact absurd (h.bound holder) (Nat.lt_irrefl _)
      · exact absurd (h.bound (hsame ▸ hold)) (Nat.lt_irrefl _)
      · exact h.distinct hold holder
    · intro d e hgate
      rcases update_cases position (fun place => place.gate? = some e) hgate with
        ⟨rfl, hnew⟩ | ⟨-, hold⟩
      · cases hnew
        exact AList.lookup_insert mutex.gates
      · have hrow := h.registered hold
        refine Table.lookup_insert_eq_some_iff.mpr (.inr ⟨?_, hrow⟩)
        intro hkey
        rw [hkey, hlookup] at hrow
        cases hrow
    · intro k e hlater
      rcases hrow hlater with ⟨-, rfl⟩ | ⟨-, hold⟩
      · refine ⟨{c}, ?_, ?_⟩
        · intro d
          by_cases hd : d = c
          · subst hd
            simp [Position.gate?]
          · rw [update_of_ne hd]
            simp only [Finset.mem_singleton, hd, false_iff]
            intro hgate
            exact Nat.lt_irrefl _ (h.bound (h.registered hgate))
        · show (update mutex.gate mutex.next _ mutex.next).users = _
          rw [update_self, Finset.card_singleton]
      · have ⟨clients, hclients, husers⟩ := h.users hold
        have he : e ≠ mutex.next := Nat.ne_of_lt (h.bound hold)
        refine ⟨clients, clients_update hclients haway ?_, ?_⟩
        · exact fun hsame => he (some.inj hsame).symm
        · show (update mutex.gate mutex.next _ e).users = _
          rw [update_of_ne he, husers]
    · intro d e hd
      have hbefore := hholding hd
      have he : e ≠ mutex.next := by
        refine Nat.ne_of_lt (h.bound (h.registered (c := d) ?_))
        rw [hbefore]
        rfl
      show (update mutex.gate mutex.next _ e).held = true
      rw [update_of_ne he]
      exact h.holder hbefore

theorem setHeld {held : Bool}
    (hbefore : (position c).gate? = some g) (hafter : place.gate? = some g)
    (hheld : place = .holding g → held = true)
    (hothers : ∀ {d}, d ≠ c → position d ≠ .holding g) :
    Inv key (mutex.setHeld g held) (update position c place) := by
  have hgate : ∀ d, (update position c place d).gate? = (position d).gate? :=
    update_same position (·.gate?) (hafter.trans hbefore.symm)
  have husers : ∀ e, ((mutex.setHeld g held).gate e).users = (mutex.gate e).users :=
    update_same mutex.gate (·.users) rfl
  have hholding : ∀ {d e}, update position c place d = .holding e →
      (d = c ∧ e = g ∧ place = .holding g) ∨ (d ≠ c ∧ e ≠ g ∧ position d = .holding e) := by
    intro d e hd
    rcases update_cases position (fun place => place = .holding e) hd with
      ⟨hdc, hnew⟩ | ⟨hdc, hold⟩
    · have he : e = g := by
        rw [hnew] at hafter
        exact some.inj hafter
      exact .inl ⟨hdc, he, he ▸ hnew⟩
    · refine .inr ⟨hdc, ?_, hold⟩
      rintro rfl
      exact hothers hdc hold
  refine ⟨h.bound, h.distinct, ?_, ?_, ?_, ?_⟩
  · intro d e hplace
    rw [hgate d] at hplace
    exact h.registered hplace
  · intro k e hrow
    have ⟨clients, hclients, hcount⟩ := h.users hrow
    refine ⟨clients, fun d => ?_, (husers e).trans hcount⟩
    rw [hgate d]
    exact hclients d
  · intro d e hd
    rcases hholding hd with ⟨-, rfl, hplace⟩ | ⟨-, he, hold⟩
    · show (update mutex.gate e _ e).held = true
      rw [update_self]
      exact hheld hplace
    · show (update mutex.gate g _ e).held = true
      rw [update_of_ne he]
      exact h.holder hold
  · intro d d' e hd hd'
    rcases hholding hd with ⟨hdc, he, -⟩ | ⟨-, he, hold⟩ <;>
      rcases hholding hd' with ⟨hdc', he', -⟩ | ⟨-, he', hold'⟩
    · exact hdc.trans hdc'.symm
    · exact absurd he he'
    · exact absurd he' he
    · exact h.single hold hold'

theorem acquire (hc : position c = .registered g) (hfree : (mutex.gate g).held = false) :
    Inv key (mutex.setHeld g true) (update position c (.holding g)) := by
  apply h.setHeld (by rw [hc]; rfl) rfl (fun _ => rfl)
  intro d _ hd
  rw [h.holder hd] at hfree
  cases hfree

theorem release (hc : position c = .holding g) :
    Inv key (mutex.setHeld g false) (update position c (.registered g)) :=
  h.setHeld (by rw [hc]; rfl) rfl nofun fun hd hother => hd (h.single hother hc)

/-- The last client deletes the mutex, and then no client is registered with it. -/
theorem leave (hc : position c = .registered g) :
    Inv key (mutex.leave (key c) g) (update position c .away) := by
  have hlookup : mutex.gates.lookup (key c) = some g := h.registered (by rw [hc]; rfl)
  have ⟨clients, hclients, hcount⟩ := h.users hlookup
  have hmem : c ∈ clients := (hclients c).mpr (by rw [hc]; rfl)
  have hcard : (clients.erase c).card = (mutex.gate g).users - 1 := by
    rw [Finset.card_erase_of_mem hmem, hcount]
  have hrest : ∀ d, d ∈ clients.erase c ↔ (update position c .away d).gate? = some g := by
    intro d
    by_cases hd : d = c
    · subst hd
      simp [Position.gate?]
    · rw [update_of_ne hd, Finset.mem_erase, hclients d]
      exact and_iff_right hd
  have hgate : ∀ {d e}, (update position c .away d).gate? = some e →
      (position d).gate? = some e := by
    intro d e hplace
    exact of_update position (fun place => place.gate? = some e) hplace nofun
  have hholding : ∀ {d e}, update position c .away d = .holding e →
      position d = .holding e := by
    intro d e hd
    exact of_update position (· = .holding e) hd nofun
  have hrow : ∀ {k e}, (mutex.leave (key c) g).gates.lookup k = some e →
      mutex.gates.lookup k = some e := by
    intro k e hlater
    rw [KeyedMutex.leave] at hlater
    split at hlater
    · exact (Table.lookup_erase_eq_some_iff.mp hlater).2
    · exact hlater
  refine ⟨fun hk => h.bound (hrow hk), fun hk hl => h.distinct (hrow hk) (hrow hl), ?_, ?_, ?_,
    fun hd he => h.single (hholding hd) (hholding he)⟩
  · intro d e hplace
    have hold := h.registered (hgate hplace)
    rw [KeyedMutex.leave]
    by_cases hlast : (mutex.gate g).users - 1 = 0
    · simp only [if_pos hlast]
      refine Table.lookup_erase_eq_some_iff.mpr ⟨?_, hold⟩
      -- a client of this key would be one of the mutex, which has none left
      intro hkey
      rw [hkey, hlookup] at hold
      cases hold
      have hnone : d ∈ clients.erase c := (hrest d).mpr hplace
      rw [← hcard, Finset.card_eq_zero] at hlast
      rw [hlast] at hnone
      exact absurd hnone (Finset.notMem_empty d)
    · simp only [if_neg hlast]
      exact hold
  · intro k e hk
    by_cases he : e = g
    · subst he
      refine ⟨clients.erase c, hrest, ?_⟩
      show (update mutex.gate e _ e).users = _
      rw [update_self, hcard]
    · have ⟨others, hothers, hsame⟩ := h.users (hrow hk)
      refine ⟨others, clients_update hothers ?_ nofun, ?_⟩
      · rw [hc]
        exact fun heq => he (some.inj heq).symm
      · show (update mutex.gate g _ e).users = _
        rw [update_of_ne he, hsame]
  · intro d e hd
    have hheld : ∀ e, ((mutex.leave (key c) g).gate e).held = (mutex.gate e).held :=
      update_same mutex.gate (·.held) rfl
    rw [hheld e]
    exact h.holder (hholding hd)

end

end Inv

end KeyedMutex

end Kubepeep
