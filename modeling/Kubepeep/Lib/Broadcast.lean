import Mathlib

/-!
# A broadcast channel that is closed and replaced

Waiters take the current channel under a lock and wait for its close.  Whoever changes the shared
state closes the current channel and puts a new one in its place, so a waiter whose channel is still
open has not missed a change.  Channels are numbered in the order in which they were made.
-/

namespace Kubepeep.Broadcast

structure Channels where
  current : Nat
  closes : Nat → Nat

def Channels.init : Channels := ⟨0, fun _ => 0⟩

/-- `close(current)`. -/
def Channels.close (channels : Channels) : Channels :=
  { channels with
    closes := Function.update channels.closes channels.current
      (channels.closes channels.current + 1) }

/-- `close(current)`, then a new channel. -/
def Channels.replace (channels : Channels) : Channels :=
  { channels.close with current := channels.current + 1 }

structure Channels.Valid (channels : Channels) : Prop where
  before : ∀ channel < channels.current, channels.closes channel = 1
  after : ∀ channel, channels.current < channel → channels.closes channel = 0

def Channels.Open (channels : Channels) : Prop :=
  channels.closes channels.current = 0

variable {channels : Channels}

theorem Channels.init_valid : Channels.init.Valid :=
  ⟨fun _ h => absurd h (Nat.not_lt_zero _), fun _ _ => rfl⟩

theorem Channels.close_valid (h : channels.Valid) : channels.close.Valid where
  before channel hlt := by
    show Function.update channels.closes channels.current _ channel = 1
    rw [Function.update_of_ne (show channel ≠ channels.current from ne_of_lt hlt)]
    exact h.before channel hlt
  after channel hlt := by
    show Function.update channels.closes channels.current _ channel = 0
    rw [Function.update_of_ne (show channel ≠ channels.current from ne_of_gt hlt)]
    exact h.after channel hlt

theorem Channels.close_current (hopen : channels.Open) :
    channels.close.closes channels.current = 1 := by
  show Function.update channels.closes channels.current _ channels.current = 1
  rw [Function.update_self, hopen]

theorem Channels.replace_valid (h : channels.Valid) (hopen : channels.Open) :
    channels.replace.Valid where
  before channel hlt := by
    rcases Nat.lt_succ_iff_lt_or_eq.mp hlt with hbefore | rfl
    · exact (Channels.close_valid h).before channel hbefore
    · exact Channels.close_current hopen
  after channel hlt := (Channels.close_valid h).after channel (Nat.lt_of_succ_lt hlt)

theorem Channels.Valid.closes_le_one (h : channels.Valid)
    (hcurrent : channels.closes channels.current ≤ 1) (channel : Nat) :
    channels.closes channel ≤ 1 := by
  rcases Nat.lt_trichotomy channel channels.current with hlt | rfl | hgt
  · exact (h.before channel hlt).le
  · exact hcurrent
  · exact (h.after channel hgt).le.trans (Nat.zero_le 1)

end Kubepeep.Broadcast
