import Mathlib

/-!
# Bisection over snapped probes

A bisection over the integer interval `[low, high]` whose midpoint is first moved down to a
*stop* (`snap`), and only then tested.  The classic termination argument fails here: the snapped
probe can fall below `low`, and then nothing moves.  This file says what the search returns, when
the distances of the stops let it return, and when they do not.
-/

open Bool

namespace Kubepeep.Bisect

/-- `snap m` is the greatest stop at or below `m`; stops are the fixed points of `snap`. -/
structure Snapping (snap : Nat → Nat) : Prop where
  le : ∀ m, snap m ≤ m
  greatest : ∀ c m, snap c = c → c ≤ m → c ≤ snap m
  stop : ∀ m, snap (snap m) = snap m

/-- `limit` is the greatest stop that passes the test, and the test is downward closed. -/
structure Threshold (snap : Nat → Nat) (ok : Nat → Bool) (limit : Nat) : Prop where
  stop : snap limit = limit
  pass : ∀ c, snap c = c → (ok c = true ↔ c ≤ limit)

def probe (snap : Nat → Nat) (low high : Int) : Nat :=
  snap ((low + high) / 2).toNat

/-- The search: `none` is an exhausted iteration budget, `some best` a return. -/
def search (snap : Nat → Nat) (ok : Nat → Bool) : Nat → Int → Int → Nat → Option Nat
  | 0, _, _, _ => none
  | fuel + 1, low, high, best =>
    if low ≤ high then
      if ok (probe snap low high) then
        search snap ok fuel (probe snap low high + 1) high (probe snap low high)
      else
        search snap ok fuel low (probe snap low high - 1) best
    else
      some best

/-- Every probe of the bisection of `[low, high]` stays at or above the lower end of its own
interval, down to the empty interval. -/
inductive Narrows (snap : Nat → Nat) (ok : Nat → Bool) : Int → Int → Prop where
  | empty {low high : Int} : high < low → Narrows snap ok low high
  | up {low high : Int} : low ≤ high → low ≤ probe snap low high →
      ok (probe snap low high) = true →
      Narrows snap ok (probe snap low high + 1) high → Narrows snap ok low high
  | down {low high : Int} : low ≤ high → low ≤ probe snap low high →
      ok (probe snap low high) = false →
      Narrows snap ok low (probe snap low high - 1) → Narrows snap ok low high

/-- What the loop keeps: `low` is `0` or one past the best stop, and the threshold is not lost on
either side. -/
structure Window (snap : Nat → Nat) (limit : Nat) (low high : Int) (best : Nat) : Prop where
  bestStop : snap best = best
  low_best : low = 0 ∧ best = 0 ∨ low = best + 1
  best_le : best ≤ limit
  limit_le : limit ≤ high

variable {snap : Nat → Nat} {ok : Nat → Bool} {limit : Nat}

variable {high low : Int} {best : Nat}

theorem Window.low_le (w : Window snap limit low high best) : low ≤ limit + 1 := by
  have h := w.low_best
  have hb := w.best_le
  omega

section

variable (hs : Snapping snap)

include hs

theorem probe_le (hlow : 0 ≤ low) (hlh : low ≤ high) :
    (probe snap low high : Int) ≤ high := by
  have h := hs.le ((low + high) / 2).toNat
  unfold probe
  omega

theorem probe_stop (low high : Int) :
    snap (probe snap low high) = probe snap low high :=
  hs.stop _

theorem Window.up (ht : Threshold snap ok limit) (w : Window snap limit low high best)
    (hok : ok (probe snap low high) = true) :
    Window snap limit (probe snap low high + 1) high (probe snap low high) where
  bestStop := probe_stop hs low high
  low_best := Or.inr rfl
  best_le := (ht.pass _ (probe_stop hs low high)).mp hok
  limit_le := w.limit_le

theorem limit_lt_probe (ht : Threshold snap ok limit)
    (hok : ok (probe snap low high) = false) : limit < probe snap low high := by
  by_contra hle
  have hpass := (ht.pass _ (probe_stop hs low high)).mpr (Nat.le_of_not_lt hle)
  rw [hok] at hpass
  exact false_ne_true hpass

theorem Window.down (ht : Threshold snap ok limit) (w : Window snap limit low high best)
    (hok : ok (probe snap low high) = false) :
    Window snap limit low (probe snap low high - 1) best where
  bestStop := w.bestStop
  low_best := w.low_best
  best_le := w.best_le
  limit_le := by
    have h := limit_lt_probe hs ht hok
    omega

/-- The only way a probe leaves its interval: it lands on the best stop again. -/
theorem Window.probe_eq_best (w : Window snap limit low high best) (hlh : low ≤ high)
    (hbelow : (probe snap low high : Int) < low) : probe snap low high = best := by
  have hb := w.low_best
  -- a stop inside the lower half of the interval is never skipped by the probe
  have hge : best ≤ probe snap low high := hs.greatest best _ w.bestStop (by omega)
  omega

end

/-- If from every stop below the threshold the midpoint up to the threshold, or to anything above
it, gets past the next stop, no probe leaves its interval. -/
theorem narrows_of_next (hs : Snapping snap) (ht : Threshold snap ok limit)
    (hnext : ∀ (b : Nat) (high : Int), snap b = b → b ≤ limit → limit ≤ high → b + 1 ≤ high →
      b < probe snap (b + 1) high) (n : Nat) :
    ∀ low high best, Window snap limit low high best → high + 1 - low ≤ n →
      Narrows snap ok low high := by
  induction n with
  | zero =>
    intro low high best _ hn
    exact .empty (by omega)
  | succ n ih =>
    intro low high best w hn
    by_cases hlh : low ≤ high
    · have hbest := w.low_best
      have hin : low ≤ probe snap low high := by
        rcases hbest with ⟨hzero, _⟩ | hlow
        · omega
        · have := hnext best high w.bestStop w.best_le w.limit_le (by omega)
          rw [← hlow] at this
          omega
      have hle := probe_le hs (by omega) hlh
      by_cases hok : ok (probe snap low high) = true
      · exact .up hlh hin hok (ih _ _ _ (w.up hs ht hok) (by omega))
      · rw [not_eq_true] at hok
        exact .down hlh hin hok (ih _ _ _ (w.down hs ht hok) (by omega))
    · exact .empty (by omega)

/-! ## What the search returns -/

theorem Narrows.returns (h : Narrows snap ok low high) :
    ∀ best, ∃ fuel r, search snap ok fuel low high best = some r := by
  induction h with
  | empty hlt =>
    intro best
    refine ⟨1, best, ?_⟩
    rw [search, if_neg (by omega)]
  | up hlh _ hok _ ih =>
    intro best
    obtain ⟨fuel, r, hr⟩ := ih (probe snap _ _)
    refine ⟨fuel + 1, r, ?_⟩
    rw [search, if_pos hlh, if_pos hok, hr]
  | down hlh _ hok _ ih =>
    intro best
    obtain ⟨fuel, r, hr⟩ := ih best
    refine ⟨fuel + 1, r, ?_⟩
    rw [search, if_pos hlh, if_neg (by rw [hok]; exact false_ne_true), hr]

theorem search_some {fuel : Nat} {r : Nat} (hs : Snapping snap)
    (ht : Threshold snap ok limit) (w : Window snap limit low high best)
    (h : search snap ok fuel low high best = some r) :
    Narrows snap ok low high ∧ r = limit := by
  induction fuel generalizing low high best with
  | zero => simp [search] at h
  | succ fuel ih =>
    rw [search] at h
    by_cases hlh : low ≤ high
    · rw [if_pos hlh] at h
      by_cases hok : ok (probe snap low high) = true
      · rw [if_pos hok] at h
        obtain ⟨hn, hr⟩ := ih (w.up hs ht hok) h
        refine ⟨?_, hr⟩
        by_cases hin : low ≤ probe snap low high
        · exact .up hlh hin hok hn
        · -- The stuck probe repeats the interval, so the shorter run already narrows it.
          have hpb := w.probe_eq_best hs hlh (by omega)
          have hb := w.low_best
          rwa [show (probe snap low high : Int) + 1 = low by omega] at hn
      · rw [if_neg hok] at h
        rw [not_eq_true] at hok
        obtain ⟨hn, hr⟩ := ih (w.down hs ht hok) h
        have hlt := limit_lt_probe hs ht hok
        have hlow := w.low_le
        exact ⟨.down hlh (by omega) hok hn, hr⟩
    · rw [if_neg hlh] at h
      have hb := w.low_best
      have hle := w.best_le
      have hhi := w.limit_le
      have hr : best = r := Option.some.inj h
      exact ⟨.empty (by omega), by omega⟩

theorem Narrows.returns_limit (hs : Snapping snap) (ht : Threshold snap ok limit)
    (w : Window snap limit low high best) (hn : Narrows snap ok low high) :
    ∃ fuel, search snap ok fuel low high best = some limit := by
  obtain ⟨fuel, r, hr⟩ := hn.returns best
  have hlimit := (search_some hs ht w hr).2
  exact ⟨fuel, hlimit ▸ hr⟩

/-- If the place after the threshold is no stop, the interval never empties: each failing probe is
at least `limit + 2`, so `high` stays above every possible `low`. -/
theorem not_narrows_of_gap (hs : Snapping snap)
    (ht : Threshold snap ok limit) (w : Window snap limit low high best)
    (hgap : snap (limit + 1) ≠ limit + 1) (hhigh : limit + 1 ≤ high) :
    ¬ Narrows snap ok low high := by
  intro hn
  induction hn generalizing best with
  | empty hlt =>
    have h := w.low_le
    omega
  | up _ _ hok _ ih => exact ih (w.up hs ht hok) hhigh
  | @down low high _ _ hok _ ih =>
    have hlt := limit_lt_probe hs ht hok
    have hne : probe snap low high ≠ limit + 1 := fun he => hgap (he ▸ probe_stop hs low high)
    exact ih (w.down hs ht hok) (by omega)

end Kubepeep.Bisect
