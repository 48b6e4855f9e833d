import Kubepeep.Diff.Model
import Kubepeep.Lib.Myers

/-!
# The forward search computes the greedy frontier

Round `d` of `myersSearch` stores `furthest d k` at index `k + offset` for every diagonal of the
round and leaves the diagonals beyond untouched.  It therefore stops at the edit distance, never
indexes out of range and never reaches its fallback.
-/

open Nat Option List Kubepeep.Go Kubepeep.Myers

namespace Kubepeep.Diff

variable {previous current : List Line}

def span (previous current : List Line) : Int :=
  previous.length + current.length

/-- The frontier array after round `d`. -/
structure Snapshot (previous current : List Line) (d : Nat) (vertical : List Int) : Prop where
  length : (vertical.length : Int) = 2 * span previous current + 1
  reached : ∀ k, OnDiagonal d k →
    Slice.get vertical (k + span previous current) = some (furthest previous current d k)
  beyond : ∀ k : Int, d < k ∨ k < -d → -span previous current ≤ k → k ≤ span previous current →
    Slice.get vertical (k + span previous current) = some 0

/-- The frontier array inside round `d`, before diagonal `k`. -/
structure InRound (previous current : List Line) (d : Nat) (k : Int) (vertical : List Int) :
    Prop where
  length : (vertical.length : Int) = 2 * span previous current + 1
  source : ∀ j, OnDiagonal d j → k ≤ j →
    entryX vertical (span previous current) d j = some (entry previous current d j)
  reached : ∀ j, OnDiagonal d j → j < k →
    Slice.get vertical (j + span previous current) = some (furthest previous current d j)
  beyond : ∀ j : Int, d < j ∨ j < -d → -span previous current ≤ j → j ≤ span previous current →
    Slice.get vertical (j + span previous current) = some 0

variable {k : Int}

theorem advance_eq_slide (previous current : List Line) (fuel : Nat) {x : Int}
    (hx : 0 ≤ x) (hy : 0 ≤ x - k) :
    advance previous current fuel x (x - k) =
      some (slide previous current k fuel x, slide previous current k fuel x - k) := by
  induction fuel generalizing x with
  | zero => rfl
  | succ fuel ih =>
    rw [advance, slide]
    by_cases hin : x < previous.length ∧ x - k < current.length
    · obtain ⟨a, ha⟩ := Slice.exists_get previous hx hin.1
      obtain ⟨b, hb⟩ := Slice.exists_get current hy hin.2
      have hiff : Matches previous current x (x - k) ↔ a = b := by
        rw [Slice.get_of_nonneg hx] at ha
        rw [Slice.get_of_nonneg hy] at hb
        unfold Matches
        rw [ha, hb, some_inj]
        tauto
      rw [if_pos hin, ha, hb]
      simp only [bind_eq_bind, bind_some]
      by_cases hab : a = b
      · rw [if_pos hab, if_pos (hiff.mpr hab), show x - k + 1 = x + 1 - k by omega]
        exact ih (by omega) (by omega)
      · rw [if_neg hab, if_neg (mt hiff.mp hab)]
    · rw [if_neg hin, if_neg (fun h => hin ⟨h.2.1, h.2.2.2.1⟩)]

variable {vertical : List Int} {d : Nat}

theorem Snapshot.inRound (h : Snapshot previous current d vertical) :
    InRound previous current (d + 1) (-(d + 1)) vertical where
  length := h.length
  source := by
    intro j hj _
    obtain ⟨hlow, hhigh, hpar⟩ := hj
    unfold entryX takesInsertion entry launch FromAbove
    push_cast
    by_cases hfirst : j = -(d + 1)
    · have hnext := h.reached (j + 1) ⟨by omega, by omega, by omega⟩
      rw [if_pos hfirst, if_pos (Or.inl hfirst)]
      exact hnext
    · have hleft := h.reached (j - 1) ⟨by omega, by omega, by omega⟩
      by_cases hlast : j = d + 1
      · rw [if_neg hfirst, if_pos hlast, if_neg (by omega), hleft]
        rfl
      · have hright := h.reached (j + 1) ⟨by omega, by omega, by omega⟩
        rw [if_neg hfirst, if_neg hlast, hleft, hright]
        by_cases hlt : furthest previous current d (j - 1) < furthest previous current d (j + 1)
        · rw [if_pos (Or.inr ⟨hlast, hlt⟩)]
          simp [hlt]
        · rw [if_neg (by tauto)]
          simp [hlt]
  reached := by
    intro j hj hlt
    have hlow := hj.1
    push_cast at hlow
    omega
  beyond := by
    intro j hj
    exact h.beyond j (by omega)

theorem inRound_start (hspan : 0 < span previous current) :
    InRound previous current 0 0
      (replicate (2 * (previous.length + current.length) + 1) 0) where
  length := by
    rw [length_replicate]
    push_cast
    rfl
  source := by
    intro j hj _
    have hzero : j = 0 := by
      unfold OnDiagonal at hj
      push_cast at hj
      omega
    subst hzero
    unfold entryX takesInsertion entry
    rw [if_pos (by rfl)]
    unfold span at hspan ⊢
    change Slice.get _ (0 + 1 + ((previous.length : Int) + current.length)) = some 0
    exact Slice.get_replicate (by omega) (by push_cast; omega)
  reached := by
    intro j hj hlt
    have hlow := hj.1
    push_cast at hlow
    omega
  beyond := by
    intro j _ hlow hhigh
    unfold span at hlow hhigh ⊢
    exact Slice.get_replicate (by omega) (by push_cast; omega)

theorem InRound.step (h : InRound previous current d k vertical) (hk : OnDiagonal d k)
    (hd : (d : Int) ≤ span previous current) :
    ∃ next, Slice.set vertical (k + span previous current) (furthest previous current d k) =
        some next ∧ InRound previous current d (k + 2) next := by
  obtain ⟨hlow, hhigh, hpar⟩ := hk
  obtain ⟨next, hset, hlength, hget, hother⟩ := Slice.exists_set vertical
    (i := k + span previous current) (furthest previous current d k) (by omega)
    (by rw [h.length]; omega)
  refine ⟨next, hset, ?_, ?_, ?_, ?_⟩
  · rw [hlength]
    exact h.length
  · intro j hj hle
    -- The neighbours of `j` have the other parity, so the write at `k` misses them.
    rw [← h.source j hj (by omega)]
    unfold entryX takesInsertion
    rw [hother _ (by omega), hother _ (by omega)]
  · intro j hj hlt
    have hpar' := hj.2.2
    by_cases hjk : j = k
    · rw [hjk]
      exact hget
    · rw [hother _ (by omega)]
      exact h.reached j hj (by omega)
  · intro j hj hlow' hhigh'
    rw [hother _ (by omega)]
    exact h.beyond j hj hlow' hhigh'

/-- A whole round: it meets the corner on some diagonal, or it leaves the complete frontier. -/
theorem myersRound_spec (previous current : List Line)
    (hd : (d : Int) ≤ span previous current) (remaining : Nat)
    (hk : k + 2 * remaining = d + 2) (hlow : -d ≤ k)
    (hpar : (d + k) % 2 = 0) (h : InRound previous current d k vertical) :
    ∃ next met,
      myersRound previous current (span previous current) d remaining k vertical =
        some (next, met) ∧
      (met = true → ∃ j, OnDiagonal d j ∧ Done previous current d j) ∧
      (met = false → Snapshot previous current d next ∧
        ∀ j, OnDiagonal d j → k ≤ j → ¬ Done previous current d j) := by
  induction remaining generalizing k vertical with
  | zero =>
    refine ⟨vertical, false, rfl, fun hfalse => absurd hfalse Bool.false_ne_true, fun _ => ?_⟩
    refine ⟨⟨h.length, fun j hj => h.reached j hj ?_, h.beyond⟩, fun j hj hle => ?_⟩
    · have hj' := hj.2.1
      omega
    · have hj' := hj.2.1
      omega
  | succ remaining ih =>
    have hdiag : OnDiagonal d k := ⟨hlow, by omega, hpar⟩
    obtain ⟨hx, hy⟩ := entry_nonneg previous current hdiag
    have hadvance := advance_eq_slide previous current (k := k)
      (previous.length - entry previous current d k).toNat hx (by omega)
    have hsnake : slide previous current k (previous.length - entry previous current d k).toNat
        (entry previous current d k) = furthest previous current d k :=
      (furthest_eq_snake _ _ d k).symm
    rw [hsnake] at hadvance
    obtain ⟨next, hset, hnext⟩ := h.step hdiag hd
    rw [myersRound, h.source k hdiag (le_refl k)]
    simp only [bind_eq_bind, bind_some, hadvance, hset]
    by_cases hdone : Done previous current d k
    · exact ⟨next, true, if_pos hdone, fun _ => ⟨k, hdiag, hdone⟩,
        fun hfalse => absurd hfalse.symm Bool.false_ne_true⟩
    · rw [if_neg (show ¬ (furthest previous current d k ≥ previous.length ∧
        furthest previous current d k - k ≥ current.length) from hdone)]
      obtain ⟨last, met, hround, hmet, hmissed⟩ := ih (by omega) (by omega) (by omega) hnext
      refine ⟨last, met, hround, hmet, fun hfalse => ?_⟩
      obtain ⟨hsnapshot, hnone⟩ := hmissed hfalse
      refine ⟨hsnapshot, fun j hj hle => ?_⟩
      by_cases hjk : j = k
      · rw [hjk]
        exact hdone
      · have hpar' := hj.2.2
        exact hnone j hj (by omega)

def Traced (previous current : List Line) (rounds : Nat) (trace : List (List Int)) : Prop :=
  ∀ e, e < rounds → ∃ snapshot, Slice.get trace e = some snapshot ∧
    Snapshot previous current e snapshot

theorem Traced.push {trace : List (List Int)}
    (h : Traced previous current d trace) (hlength : trace.length = d)
    (hv : Snapshot previous current d vertical) :
    Traced previous current (d + 1) (trace ++ [vertical]) := by
  intro e he
  rcases lt_or_eq_of_le (le_of_lt_succ he) with hlt | rfl
  · obtain ⟨snapshot, hget, hs⟩ := h e hlt
    exact ⟨snapshot, by rw [Slice.get_append_left (by omega), hget], hs⟩
  · exact ⟨vertical, by rw [← hlength, Slice.get_concat_length], hv⟩

/-- The forward search stops at the edit distance, with the frontiers of all earlier rounds. -/
theorem myersSearch_spec (previous current : List Line) (rounds : Nat) (trace : List (List Int))
    (hrounds : d + rounds = previous.length + current.length + 1)
    (hvertical : InRound previous current d (-d) vertical) (hlength : trace.length = d)
    (htrace : Traced previous current d trace)
    (hnone : ∀ e < d, ∀ j, OnDiagonal e j → ¬ Done previous current e j) :
    ∃ distance last, Distance previous current distance ∧
      myersSearch previous current (span previous current) rounds d vertical trace =
        some (some last) ∧
      last.length = distance + 1 ∧ Traced previous current distance last := by
  induction rounds generalizing d vertical trace with
  | zero =>
    -- All rounds up to `n + m` missed the corner, but deleting and inserting everything reaches it.
    have hreach := reach_corner previous current
    obtain ⟨_, _, _, _, hdiag⟩ := hreach.bounds
    exact absurd hreach.done (hnone _ (by omega) _ hdiag)
  | succ rounds ih =>
    obtain ⟨next, met, hround, hmet, hmissed⟩ := myersRound_spec previous current (d := d)
      (by unfold span; omega) (d + 1)
      (by push_cast; omega) (le_refl _) (by omega) hvertical
    rw [myersSearch, hround]
    cases met with
    | true =>
      obtain ⟨j, hj, hdone⟩ := hmet rfl
      refine ⟨d, trace ++ [next], distance_of_first_done hj hdone hnone, rfl, ?_, fun e he => ?_⟩
      · rw [length_append, hlength, length_singleton]
      · obtain ⟨snapshot, hget, hs⟩ := htrace e he
        exact ⟨snapshot, by rw [Slice.get_append_left (by omega), hget], hs⟩
    | false =>
      obtain ⟨hsnapshot, hmiss⟩ := hmissed rfl
      apply ih _ (by omega)
      · exact hsnapshot.inRound
      · rw [length_append, hlength, length_singleton]
      · exact htrace.push hlength hsnapshot
      · intro e he j hj
        rcases lt_or_eq_of_le (le_of_lt_succ he) with hlt | rfl
        · exact hnone e hlt j hj
        · exact hmiss j hj hj.1

theorem myersSearch_distance (hspan : 0 < span previous current) :
    ∃ distance trace, Distance previous current distance ∧
      myersSearch previous current (span previous current)
        (previous.length + current.length + 1) 0
        (replicate (2 * (previous.length + current.length) + 1) 0) [] = some (some trace) ∧
      trace.length = distance + 1 ∧ Traced previous current distance trace :=
  myersSearch_spec previous current (previous.length + current.length + 1) (d := 0) [] (by omega)
    (inRound_start hspan) rfl (fun _ he => absurd he (not_lt_zero _))
    (fun _ he => absurd he (not_lt_zero _))

theorem myersMiddle_of_search {trace : List (List Int)} (hspan : 0 < span previous current)
    (hsearch : myersSearch previous current (span previous current)
      (previous.length + current.length + 1) 0
      (replicate (2 * (previous.length + current.length) + 1) 0) [] = some (some trace)) :
    myersMiddle previous current = myersBacktrack trace previous current := by
  unfold span at hspan hsearch
  unfold myersMiddle
  rw [if_neg (by omega)]
  push_cast
  rw [hsearch]
  rfl

/-- On non-empty middles the fallback is unreachable: the result is the backtrack of a trace. -/
theorem myersMiddle_eq_backtrack (previous current : List Line)
    (hspan : 0 < span previous current) :
    ∃ distance trace, Distance previous current distance ∧
      myersMiddle previous current = myersBacktrack trace previous current ∧
      trace.length = distance + 1 ∧ Traced previous current distance trace := by
  obtain ⟨distance, trace, hdistance, hsearch, htraced⟩ := myersSearch_distance hspan
  exact ⟨distance, trace, hdistance, myersMiddle_of_search hspan hsearch, htraced⟩

/-- On non-empty lists the forward search keeps to its array (it does not end in `none`), stops in
the round that is the edit distance, and so never reaches the fallback (`some none`). -/
theorem myersMiddle_stops_at_lcs (p c : Line) (ps cs : List Line) :
    ∃ d length trace, IsGreatest (commonLengths (p :: ps) (c :: cs)) length ∧
      d + 2 * length = (p :: ps).length + (c :: cs).length ∧
      myersSearch (p :: ps) (c :: cs) (span (p :: ps) (c :: cs))
        ((p :: ps).length + (c :: cs).length + 1) 0
        (replicate (2 * ((p :: ps).length + (c :: cs).length) + 1) 0) [] = some (some trace) ∧
      trace.length = d + 1 ∧
      myersMiddle (p :: ps) (c :: cs) = myersBacktrack trace (p :: ps) (c :: cs) := by
  have hspan : 0 < span (p :: ps) (c :: cs) := by
    unfold span
    rw [length_cons]
    omega
  obtain ⟨d, trace, hdistance, hsearch, hlength, -⟩ := myersSearch_distance hspan
  obtain ⟨length, hlcs, hcount⟩ := hdistance.lcs
  exact ⟨d, length, trace, hlcs, hcount, hsearch, hlength, myersMiddle_of_search hspan hsearch⟩

end Kubepeep.Diff
