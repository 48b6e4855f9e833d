import Kubepeep.Diff.Backtrack

/-!
# When the diff spells both documents

The backtrack is right exactly when the greedy path does not begin with an insertion.  When it
does, the walk leaves the path on the left border, at the first occurrence of the first removed
line, and from there on emits one operation too few and inserts lines from the wrong place.
-/

open Nat Option List Kubepeep.Go Kubepeep.Myers

namespace Kubepeep.Diff

section Runs

variable {previous current : List Line} {trace : List (List Int)} {rounds : Nat}

/-- A path that begins with a deletion (or a match) is walked back completely. -/
theorem backtrackLoop_faithful (hn : 0 < previous.length) (hm : 0 < current.length)
    (hzero : furthest previous current 0 0 = 0) (htrace : Traced previous current rounds trace)
    (d : Nat) (hd : d ≤ rounds) {k : Int} (hk : OnDiagonal d k)
    (hstart : startsWithInsertion previous current d k = false)
    (hx : furthest previous current d k ≤ previous.length)
    (hy : furthest previous current d k - k ≤ current.length) :
    ∃ operations,
      backtrackLoop trace previous current d (furthest previous current d k)
        (furthest previous current d k - k) = some operations ∧
      Emits previous current 0 0 (furthest previous current d k)
        (furthest previous current d k - k) operations ∧
      2 * (operations.length : Int) =
        furthest previous current d k + (furthest previous current d k - k) + d := by
  induction d generalizing k with
  | zero =>
    obtain ⟨hlow, hhigh, _⟩ := hk
    obtain rfl : k = 0 := by omega
    rw [hzero]
    refine ⟨[], rfl, ⟨?_, ?_⟩, by simp⟩
    · rw [stretch_self]
      rfl
    · rw [Int.sub_zero, stretch_self]
      rfl
  | succ d ih =>
    obtain ⟨snapshot, hget, hs⟩ := htrace d (by omega)
    have hborder : k ≠ -(d + 1) := by
      rintro rfl
      rw [startsWithInsertion_left] at hstart
      exact absurd hstart.symm Bool.false_ne_true
    obtain ⟨j, operations, hj, hlevel, hloop⟩ :=
      backtrackLoop_level hget hs hk hn hm (fun h => absurd h hborder) hx hy
    have hprev : startsWithInsertion previous current d j = false := by
      rw [startsWithInsertion] at hstart
      cases d with
      | zero => rfl
      | succ d =>
        rw [if_neg (by omega), ← hj] at hstart
        exact hstart
    have hxle := hlevel.x_le
    have hyle := hlevel.y_le
    obtain ⟨rest, hrest, hemits, hlength⟩ :=
      ih (by omega) (hj ▸ predecessor_onDiagonal hk) hprev (by omega) (by omega)
    refine ⟨operations ++ rest, by rw [hloop, hrest, map_some], ?_, ?_⟩
    · exact .append (le_refl 0) hlevel.x_nonneg hxle (le_refl 0) hlevel.y_nonneg hyle
        hlevel.emits hemits
    · have hcount := hlevel.length
      rw [length_append]
      push_cast
      omega

/-- Off the path, at `x = 0`: every level inserts a line from two places further on. -/
theorem backtrackLoop_lost (hn : 0 < previous.length)
    (htrace : Traced previous current rounds trace) (d : Nat) (hd : d ≤ rounds)
    (hm : d + 2 ≤ current.length) :
    (d = 0 ∨ d + 3 < current.length → ∃ operations,
      backtrackLoop trace previous current d 0 (d + 2) = some operations ∧
        operations.length = d ∧ (currentOf operations.reverse).length = d) ∧
    (0 < d ∧ current.length ≤ d + 3 → backtrackLoop trace previous current d 0 (d + 2) = none) := by
  induction d with
  | zero => exact ⟨fun _ => ⟨[], rfl, rfl, rfl⟩, fun h => absurd h.1 (lt_irrefl 0)⟩
  | succ d ih =>
    obtain ⟨snapshot, hget, hs⟩ := htrace d (by omega)
    have hleft : Slice.get snapshot (0 - ((d : Int) + 3) - 1 + span previous current) = some 0 := by
      apply hs.beyond _ (by omega) <;> unfold span <;> omega
    have hright :
        Slice.get snapshot (0 - ((d : Int) + 3) + 1 + span previous current) = some 0 := by
      apply hs.beyond _ (by omega) <;> unfold span <;> omega
    have hguard : takesInsertion snapshot (span previous current) d (0 - ((d : Int) + 3)) =
        some false := by
      unfold takesInsertion
      rw [if_neg (by omega), if_neg (by omega), hleft, hright]
      rfl
    have hloop := backtrackLoop_stuck previous current hget hguard hleft
    rw [show ((d + 1 : Nat) : Int) + 2 = d + 3 by omega, hloop,
      show (d : Int) + 3 - 1 = d + 2 by omega, show (d : Int) + 3 + 1 = d + 4 by omega]
    constructor
    · intro hrange
      obtain ⟨rest, hrest, hlength, hspell⟩ := (ih (by omega) (by omega)).1 (by omega)
      obtain ⟨text, htext⟩ := Slice.exists_get current (i := (d : Int) + 4) (by omega)
        (by omega)
      refine ⟨⟨.opInsert, text⟩ :: rest, by rw [htext, hrest]; rfl,
        by rw [length_cons, hlength], ?_⟩
      rw [reverse_cons, currentOf_append, length_append, hspell]
      rfl
    · intro hrange
      rw [Slice.get_of_length_le (by omega)]
      rfl

theorem idxOf_of_left_border {p : Line} {ps : List Line} {d : Nat}
    (hprevious : previous = p :: ps) (hstay : furthest previous current d (-d) = 0)
    (hleave : 1 ≤ furthest previous current (d + 1) (-(d + 1))) :
    current.idxOf p = d + 1 := by
  have hhead : previous[0]? = some p := by
    rw [hprevious]
    rfl
  have hmatch : current[d + 1]? = some p := by
    rw [furthest, launch, if_pos (fromAbove_left _ d), show -((d : Int) + 1) + 1 = -d by omega,
      hstay] at hleave
    obtain ⟨_, _, _, _, heq⟩ := snake_run (le_refl (0 : Int))
      (Int.lt_of_lt_of_le Int.zero_lt_one hleave)
    rw [show (0 - -((d : Int) + 1)).toNat = d + 1 by omega, Int.toNat_zero, hhead] at heq
    exact heq.symm
  have hbefore : ∀ e ≤ d, current[e]? ≠ some p := by
    intro e he heq
    have hstop := furthest_stop previous current e (-e)
    rw [furthest_left_eq_zero hstay he] at hstop
    obtain ⟨hlt, _⟩ := List.getElem?_eq_some_iff.mp heq
    apply hstop
    refine ⟨le_refl 0, ?_, by omega, by omega, ?_⟩
    · rw [hprevious, List.length_cons]
      push_cast
      omega
    · rw [show (0 - -(e : Int)).toNat = e by omega, Int.toNat_zero, hhead, heq]
  obtain ⟨hlt, hget⟩ := List.getElem?_eq_some_iff.mp hmatch
  refine (List.findIdx_eq hlt).mpr ⟨by rw [hget]; exact beq_self_eq_true p, fun e he => ?_⟩
  rw [beq_eq_false_iff_ne]
  exact fun heq => hbefore e (by omega) (List.getElem?_eq_some_iff.mpr ⟨by omega, heq⟩)

/-- A walk from `(x, y)` at level `d` that emits one operation too few and spells two lines of
`current` too few. -/
structure Lost (y d x : Int) (operations : List DiffOperation) : Prop where
  length : 2 * ((operations.length : Int) + 1) = x + y + d
  spell : ((currentOf operations.reverse).length : Int) + 2 = y

/-- The level at which the walk leaves the path: the deletion of the first line. -/
theorem backtrackLoop_leave (hn : 0 < previous.length) {d : Nat} (hd : d < rounds)
    (htrace : Traced previous current rounds trace)
    (hstay : furthest previous current d (-d) = 0)
    (hleave : 1 ≤ furthest previous current (d + 1) (-(d + 1)))
    (hx : furthest previous current (d + 1) (-(d + 1)) ≤ previous.length)
    (hy : furthest previous current (d + 1) (-(d + 1)) - -(d + 1) ≤ current.length) :
    (d = 0 ∨ d + 3 < current.length → ∃ operations,
      backtrackLoop trace previous current (d + 1) (furthest previous current (d + 1) (-(d + 1)))
          (furthest previous current (d + 1) (-(d + 1)) - -(d + 1)) = some operations ∧
        Lost (furthest previous current (d + 1) (-(d + 1)) - -(d + 1)) (d + 1)
          (furthest previous current (d + 1) (-(d + 1))) operations) ∧
    (0 < d ∧ current.length ≤ d + 3 →
      backtrackLoop trace previous current (d + 1) (furthest previous current (d + 1) (-(d + 1)))
          (furthest previous current (d + 1) (-(d + 1)) - -(d + 1)) = none) := by
  obtain ⟨snapshot, hget, hs⟩ := htrace d hd
  generalize furthest previous current (d + 1) (-(d + 1)) = x at *
  have hk : x - (x - -((d : Int) + 1)) = -(d + 1) := by omega
  have hbeyond : Slice.get snapshot (-((d : Int) + 1) - 1 + span previous current) = some 0 := by
    apply hs.beyond _ (by omega) <;> unfold span <;> omega
  have hguard : takesInsertion snapshot (span previous current) d (-(d + 1)) = some false := by
    unfold takesInsertion
    rw [if_neg (by omega), if_neg (by omega), hbeyond, show -((d : Int) + 1) + 1 = -d by omega,
      hs.reached (-d) ⟨by omega, by omega, by omega⟩, hstay]
    rfl
  obtain ⟨text, htext, hloop⟩ := backtrackLoop_delete (x := x) (y := x - -(d + 1)) hget
    (by rw [hk]; exact hguard) (by rw [hk]; exact hbeyond) (le_refl 0) (by omega) hx
  rw [hk, show 0 - (-((d : Int) + 1) - 1) = d + 2 by omega, Int.zero_add] at hloop
  obtain ⟨hsome, hnone⟩ := backtrackLoop_lost hn htrace d (by omega) (by omega)
  rw [hloop]
  constructor
  · intro hrange
    obtain ⟨rest, hrest, hlength, hspell⟩ := hsome hrange
    refine ⟨_, by rw [hrest, map_some], ?_, ?_⟩
    · have hstretch := stretch_length previous (a := 1) (b := x) (by omega) hleave hx
      rw [length_append, length_reverse, length_map, length_cons, hlength]
      push_cast
      omega
    · have hstretch := stretch_length previous (a := 1) (b := x) (by omega) hleave hx
      rw [reverse_append, reverse_reverse, reverse_cons, currentOf_append,
        currentOf_append, currentOf_same, length_append, length_append, hspell]
      change ((d + 0 + (stretch previous 1 x).length : Nat) : Int) + 2 = _
      push_cast
      omega
  · intro hrange
    rw [hnone hrange]
    rfl

theorem one_le_of_left_border {d : Nat} {k j : Int} (hd : 0 < d)
    (hlost : ¬ (k = -(d + 1) ∧ furthest previous current d (-d) = 0))
    (hj : j = predecessor (furthest previous current d) (d + 1) k) (hleft : j = -d) :
    1 ≤ furthest previous current d j := by
  rw [hleft] at hj ⊢
  by_cases hleft : k = -(d + 1)
  · have hnonneg := (furthest_nonneg previous current (d := d) (k := -d)
      ⟨by omega, by omega, by omega⟩).1
    omega
  · -- Entered by a deletion: the neighbour above, with one deletion already, is not further.
    unfold predecessor at hj
    split at hj
    · omega
    · rename_i habove
      obtain rfl : k = -d + 1 := by omega
      have hge : ¬ furthest previous current d (-d + 1 - 1) <
          furthest previous current d (-d + 1 + 1) :=
        fun hlt => habove (Or.inr ⟨by push_cast; omega, hlt⟩)
      have hone := deletions_le_furthest previous current d (k := -d + 1 + 1)
        ⟨by omega, by omega, by omega⟩
      rw [show -(d : Int) + 1 - 1 = -d by omega] at hge
      omega

/-- A path that begins with an insertion is lost. -/
theorem backtrackLoop_unfaithful {p : Line} {ps : List Line} (hprevious : previous = p :: ps)
    (hm : 0 < current.length) (hzero : furthest previous current 0 0 = 0)
    (htrace : Traced previous current rounds trace)
    (d : Nat) (hd : d ≤ rounds) {k : Int} (hk : OnDiagonal d k)
    (hstart : startsWithInsertion previous current d k = true)
    (hborder : k = -d → 1 ≤ furthest previous current d k)
    (hx : furthest previous current d k ≤ previous.length)
    (hy : furthest previous current d k - k ≤ current.length) :
    ((current.idxOf p = 1 ∨ current.idxOf p + 2 < current.length) ∧ ∃ operations,
      backtrackLoop trace previous current d (furthest previous current d k)
          (furthest previous current d k - k) = some operations ∧
        Lost (furthest previous current d k - k) d (furthest previous current d k) operations) ∨
    (¬ (current.idxOf p = 1 ∨ current.idxOf p + 2 < current.length) ∧
      backtrackLoop trace previous current d (furthest previous current d k)
        (furthest previous current d k - k) = none) := by
  induction d generalizing k with
  | zero => exact absurd hstart Bool.false_ne_true
  | succ d ih =>
    have hn : 0 < previous.length := by
      rw [hprevious]
      exact succ_pos _
    by_cases hlost : k = -(d + 1) ∧ furthest previous current d (-d) = 0
    · obtain ⟨rfl, hstay⟩ := hlost
      have hleave := hborder (by push_cast; rfl)
      have hidx := idxOf_of_left_border hprevious hstay hleave
      obtain ⟨hsome, hnone⟩ := backtrackLoop_leave hn (by omega) htrace hstay hleave hx hy
      by_cases hrange : d = 0 ∨ d + 3 < current.length
      · exact Or.inl ⟨by omega, hsome hrange⟩
      · exact Or.inr ⟨by omega, hnone (by omega)⟩
    · obtain ⟨snapshot, hget, hs⟩ := htrace d (by omega)
      obtain ⟨j, operations, hj, hlevel, hloop⟩ := backtrackLoop_level hget hs hk hn hm
        (fun hleft hstay => hlost ⟨hleft, hstay⟩) hx hy
      have hdiag : OnDiagonal d j := hj ▸ predecessor_onDiagonal hk
      have hxle := hlevel.x_le
      have hyle := hlevel.y_le
      have hd₀ : d ≠ 0 := by
        rintro rfl
        rw [startsWithInsertion, if_pos rfl, decide_eq_true_iff] at hstart
        have hlow := hk.1
        exact hlost ⟨by push_cast; omega, hzero⟩
      have hprev : startsWithInsertion previous current d j = true := by
        rw [startsWithInsertion, if_neg hd₀, ← hj] at hstart
        exact hstart
      rcases ih (by omega) hdiag hprev (one_le_of_left_border (by omega) hlost hj)
        (by omega) (by omega) with ⟨hrange, rest, hrest, hlength, hspell⟩ | ⟨hrange, hrest⟩
      · refine Or.inl ⟨hrange, operations ++ rest, by rw [hloop, hrest, map_some], ?_, ?_⟩
        · have hcount := hlevel.length
          rw [length_append]
          push_cast
          omega
        · have hstretch := stretch_length current hlevel.y_nonneg hyle hy
          rw [reverse_append, currentOf_append, hlevel.emits.current_eq, length_append]
          push_cast
          omega
      · exact Or.inr ⟨hrange, by rw [hloop, hrest, map_none]⟩

/-- A middle with lines on one side only makes the first guard read past the array. -/
theorem myersMiddle_one_sided (h : previous = [] ∧ current ≠ [] ∨ previous ≠ [] ∧ current = []) :
    myersMiddle previous current = none := by
  have hlengths : previous.length = 0 ∧ 0 < current.length ∨
      0 < previous.length ∧ current.length = 0 := by
    simpa only [length_eq_zero_iff, length_pos_iff] using h
  obtain ⟨distance, trace, hdistance, hmiddle, hlength, htrace⟩ :=
    myersMiddle_eq_backtrack previous current (by unfold span; omega)
  obtain ⟨_, _, _, _, hlow, hhigh, _⟩ := hdistance.reach.bounds
  obtain ⟨d, rfl⟩ : ∃ d, distance = d + 1 := ⟨distance - 1, by omega⟩
  obtain ⟨snapshot, hget, hs⟩ := htrace d (by omega)
  have hsize := hs.length
  unfold span at hsize
  rw [hmiddle, myersBacktrack, hlength, Nat.add_sub_cancel, backtrackLoop, hget]
  have hguard : takesInsertion snapshot (previous.length + current.length) d
      (previous.length - current.length) = none := by
    unfold takesInsertion
    rw [if_neg (by omega), if_neg (by omega)]
    rcases hlengths with hside | hside
    · rw [Slice.get_of_neg (by omega)]
      rfl
    · rw [Slice.get_of_length_le (i := (previous.length : Int) - current.length + 1 + _) (by omega)]
      cases Slice.get snapshot ((previous.length : Int) - current.length - 1 +
        (previous.length + current.length)) <;> rfl
  simp only [bind_eq_bind, bind_some, hguard, bind_none]

theorem furthest_zero_of_heads {p c : Line} (ps cs : List Line) (hpc : p ≠ c) :
    furthest (p :: ps) (c :: cs) 0 0 = 0 := by
  have hle := le_snake (p :: ps) (c :: cs) 0 0
  rcases lt_or_eq_of_le hle with hlt | heq
  · obtain ⟨_, _, _, _, hhead⟩ := snake_run (le_refl (0 : Int)) hlt
    exact absurd (some.inj hhead) hpc
  · exact heq.symm

theorem myersMiddle_spec {p c : Line} (ps cs : List Line) (hpc : p ≠ c) :
    ∃ d, Distance (p :: ps) (c :: cs) d ∧
      (startsWithInsertion (p :: ps) (c :: cs) d ((p :: ps).length - (c :: cs).length) = false →
        ∃ operations, myersMiddle (p :: ps) (c :: cs) = some operations ∧
          previousOf operations = p :: ps ∧ currentOf operations = c :: cs) ∧
      (startsWithInsertion (p :: ps) (c :: cs) d ((p :: ps).length - (c :: cs).length) = true →
        ((c :: cs).idxOf p = 1 ∨ (c :: cs).idxOf p + 2 < (c :: cs).length) ∧
          (∃ operations, myersMiddle (p :: ps) (c :: cs) = some operations ∧
            2 * (operations.length + 1) = (p :: ps).length + (c :: cs).length + d ∧
            currentOf operations ≠ c :: cs) ∨
        ¬ ((c :: cs).idxOf p = 1 ∨ (c :: cs).idxOf p + 2 < (c :: cs).length) ∧
          myersMiddle (p :: ps) (c :: cs) = none) := by
  obtain ⟨d, trace, hdistance, hmiddle, hlength, htrace⟩ :=
    myersMiddle_eq_backtrack (p :: ps) (c :: cs)
      (by unfold span; rw [length_cons]; omega)
  have hzero := furthest_zero_of_heads ps cs hpc
  have hcorner := hdistance.furthest_eq
  obtain ⟨_, _, _, _, hdiag⟩ := hdistance.reach.bounds
  have hm : 0 < (c :: cs).length := Nat.succ_pos _
  have hn : 0 < (p :: ps).length := Nat.succ_pos _
  rw [myersBacktrack, hlength, Nat.add_sub_cancel] at hmiddle
  have hfaithful := backtrackLoop_faithful hn hm hzero htrace d (le_refl d) hdiag
  have hunfaithful := backtrackLoop_unfaithful rfl hm hzero htrace d (le_refl d) hdiag
  rw [hcorner, show ((p :: ps).length : Int) - ((p :: ps).length - (c :: cs).length) =
    (c :: cs).length by omega] at hfaithful hunfaithful
  refine ⟨d, hdistance, fun hstart => ?_, fun hstart => ?_⟩
  · obtain ⟨operations, hloop, hemits, _⟩ := hfaithful hstart (le_refl _) (le_refl _)
    refine ⟨operations.reverse, by rw [hmiddle, hloop]; rfl, ?_, ?_⟩
    · rw [hemits.previous_eq, stretch, Int.toNat_zero, drop_zero, Int.sub_zero,
        Int.toNat_natCast, take_length]
    · rw [hemits.current_eq, stretch, Int.toNat_zero, drop_zero, Int.sub_zero,
        Int.toNat_natCast, take_length]
  · rcases hunfaithful hstart (fun _ => by omega) (le_refl _) (le_refl _) with
      ⟨hrange, operations, hloop, hcount, hspell⟩ | ⟨hrange, hloop⟩
    · refine Or.inl ⟨hrange, operations.reverse, by rw [hmiddle, hloop]; rfl, ?_, ?_⟩
      · rw [length_reverse]
        omega
      · intro heq
        rw [heq] at hspell
        omega
    · exact Or.inr ⟨hrange, by rw [hmiddle, hloop]; rfl⟩

end Runs

end Kubepeep.Diff
