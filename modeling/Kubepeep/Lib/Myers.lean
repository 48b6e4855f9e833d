import Mathlib

/-!
# Furthest-reaching paths of the edit graph

The edit graph of two lists has the points `(x, y)` with `x` lines of `old` and `y` lines of `new`
consumed.  A deletion moves right, an insertion moves down, and a match moves diagonally for free.
`furthest d k` is the greedy frontier of Myers' algorithm: the `x` reached on diagonal `k = x - y`
with `d` edits.  The frontier may leave the graph; the results below say that it still meets the
lower right corner for the first time exactly at the edit distance.
-/

namespace Kubepeep.Myers

variable {α : Type*}

def Matches (old new : List α) (x y : Int) : Prop :=
  0 ≤ x ∧ x < old.length ∧ 0 ≤ y ∧ y < new.length ∧ old[x.toNat]? = new[y.toNat]?

def OnDiagonal (d : Nat) (k : Int) : Prop :=
  -d ≤ k ∧ k ≤ d ∧ (d + k) % 2 = 0

/-- Points reached inside the graph with exactly `d` edits. -/
inductive Reach (old new : List α) : Nat → Int → Int → Prop where
  | origin : Reach old new 0 0 0
  | keep {d : Nat} {x y : Int} : Reach old new d x y → Matches old new x y →
      Reach old new d (x + 1) (y + 1)
  | delete {d : Nat} {x y : Int} : Reach old new d x y → x < old.length →
      Reach old new (d + 1) (x + 1) y
  | insert {d : Nat} {x y : Int} : Reach old new d x y → y < new.length →
      Reach old new (d + 1) x (y + 1)

/-- The edit distance: the corner is reached with `d` edits and with no fewer. -/
structure Distance (old new : List α) (d : Nat) : Prop where
  reach : Reach old new d old.length new.length
  least : ∀ e, Reach old new e old.length new.length → d ≤ e

variable {old new : List α}

variable {d : Nat} {x : Int} {y : Int}

theorem Reach.bounds (h : Reach old new d x y) :
    0 ≤ x ∧ x ≤ old.length ∧ 0 ≤ y ∧ y ≤ new.length ∧ OnDiagonal d (x - y) := by
  unfold OnDiagonal
  induction h with
  | origin => simp
  | keep _ hmatch ih =>
    obtain ⟨_, hx, _, hy, _⟩ := hmatch
    omega
  | delete _ hx ih => push_cast; omega
  | insert _ hy ih => push_cast; omega

theorem Distance.unique {e : Nat} (h : Distance old new d) (h' : Distance old new e) : d = e :=
  Nat.le_antisymm (h.least e h'.reach) (h'.least d h.reach)

variable {k : Int}

theorem Reach.run {z : Int} (h : Reach old new d x (x - k)) (hxz : x ≤ z)
    (hrun : ∀ w, x ≤ w → w < z → Matches old new w (w - k)) : Reach old new d z (z - k) := by
  induction z, hxz using Int.leInduction with
  | base => exact h
  | succ z hxz ih =>
    have hz := Reach.keep (ih fun w hxw hw => hrun w hxw (by omega)) (hrun z hxz (by omega))
    rwa [show z - k + 1 = z + 1 - k by omega] at hz

/-! ## Common subsequences -/

/-- The lengths of the common subsequences. -/
def commonLengths (old new : List α) : Set Nat :=
  {length | ∃ common : List α, common.Sublist old ∧ common.Sublist new ∧ common.length = length}

theorem sublist_take_succ {l common : List α} {x : Nat} (hx : x < l.length)
    (h : common.Sublist (l.take (x + 1))) : common.Sublist (l.take x) ∨
      ∃ c : List α, c.Sublist (l.take x) ∧ common = c ++ [l[x]] := by
  rw [List.take_succ_eq_append_getElem hx, List.sublist_append_iff] at h
  obtain ⟨c, last, rfl, hc, hlast⟩ := h
  rcases List.sublist_singleton.mp hlast with rfl | rfl
  · rw [List.append_nil]
    exact .inl hc
  · exact .inr ⟨c, hc, rfl⟩

/-- A path that keeps a common subsequence edits every other line. -/
theorem reach_of_common (old new common : List α) {x y : Nat} (hx : x ≤ old.length)
    (hy : y ≤ new.length) (hold : common.Sublist (old.take x))
    (hnew : common.Sublist (new.take y)) :
    ∃ d, Reach old new d x y ∧ d + 2 * common.length = x + y := by
  induction x generalizing y common with
  | zero =>
    obtain rfl : common = [] := List.sublist_nil.mp hold
    induction y with
    | zero => exact ⟨0, .origin, rfl⟩
    | succ y ih =>
      obtain ⟨d, hreach, hd⟩ := ih (by omega) (List.nil_sublist _)
      exact ⟨d + 1, by exact_mod_cast hreach.insert (by omega), by omega⟩
  | succ x ih =>
    rcases sublist_take_succ hx hold with hskip | ⟨c, hc, rfl⟩
    · obtain ⟨d, hreach, hd⟩ := ih _ (by omega) hy hskip hnew
      exact ⟨d + 1, by exact_mod_cast hreach.delete (by omega), by omega⟩
    · induction y with
      | zero => exact absurd (List.sublist_nil.mp hnew) (by simp)
      | succ y ihy =>
        rcases sublist_take_succ hy hnew with hskip | ⟨c', hc', heq⟩
        · obtain ⟨d, hreach, hd⟩ := ihy (by omega) hskip
          exact ⟨d + 1, by exact_mod_cast hreach.insert (by omega), by omega⟩
        · obtain ⟨rfl, hline⟩ := List.append_inj' heq rfl
          obtain ⟨d, hreach, hd⟩ := ih _ (by omega) (by omega) hc hc'
          have hmatch : Matches old new x y := by
            refine ⟨by omega, by omega, by omega, by omega, ?_⟩
            rw [Int.toNat_natCast, List.getElem?_eq_getElem hx, Int.toNat_natCast,
              List.getElem?_eq_getElem hy, List.singleton_inj.mp hline]
          refine ⟨d, by exact_mod_cast hreach.keep hmatch, ?_⟩
          rw [List.length_append, List.length_singleton]
          omega

theorem Reach.common (h : Reach old new d x y) : ∃ common : List α,
    common.Sublist (old.take x.toNat) ∧ common.Sublist (new.take y.toNat) ∧
      d + 2 * (common.length : Int) = x + y := by
  induction h with
  | origin => exact ⟨[], List.nil_sublist _, List.nil_sublist _, rfl⟩
  | @keep d x y hreach hmatch ih =>
    obtain ⟨hx, hxn, hy, hym, hline⟩ := hmatch
    obtain ⟨common, hold, hnew, hd⟩ := ih
    lift x to Nat using hx
    lift y to Nat using hy
    refine ⟨common ++ old[x]?.toList, ?_, ?_, ?_⟩
    · exact (List.take_add_one (l := old) (i := x)) ▸ hold.append (.refl _)
    · rw [show old[x]? = new[y]? from hline]
      exact (List.take_add_one (l := new) (i := y)) ▸ hnew.append (.refl _)
    · simp [show x < old.length by omega]
      omega
  | @delete d x y hreach _ ih =>
    obtain ⟨common, hold, hnew, hd⟩ := ih
    exact ⟨common, hold.trans (List.take_sublist_take_left (by omega)), hnew, by omega⟩
  | @insert d x y hreach _ ih =>
    obtain ⟨common, hold, hnew, hd⟩ := ih
    exact ⟨common, hold, hnew.trans (List.take_sublist_take_left (by omega)), by omega⟩

/-- The edit distance counts the lines outside a longest common subsequence, once per list. -/
theorem Distance.lcs (h : Distance old new d) : ∃ length,
    IsGreatest (commonLengths old new) length ∧ d + 2 * length = old.length + new.length := by
  obtain ⟨common, hold, hnew, hd⟩ := h.reach.common
  rw [Int.toNat_natCast, List.take_length] at hold hnew
  refine ⟨common.length, ⟨⟨common, hold, hnew, rfl⟩, ?_⟩, by omega⟩
  rintro _ ⟨other, hold', hnew', rfl⟩
  obtain ⟨e, hreach, he⟩ := reach_of_common old new other (le_refl _) (le_refl _)
    (by rwa [List.take_length]) (by rwa [List.take_length])
  have hleast := h.least e hreach
  omega

theorem reach_corner (old new : List α) :
    Reach old new (old.length + new.length) old.length new.length := by
  obtain ⟨d, hreach, hd⟩ := reach_of_common old new [] (le_refl _) (le_refl _)
    (List.nil_sublist _) (List.nil_sublist _)
  exact hd ▸ hreach

def overshoot (old new : List α) (x y : Int) : Int :=
  max 0 (x - old.length) + max 0 (y - new.length)

/-- A point, moved back into the graph, is reached with `d` edits less one for each step outside. -/
def Clamped (old new : List α) (d : Nat) (x y : Int) : Prop :=
  ∃ e : Nat, e + overshoot old new x y = d ∧ Reach old new e (min x old.length) (min y new.length)

theorem Clamped.delete (h : Clamped old new d x y) :
    Clamped old new (d + 1) (x + 1) y := by
  obtain ⟨e, hover, hreach⟩ := h
  unfold overshoot at hover
  by_cases hx : x < old.length
  · refine ⟨e + 1, by unfold overshoot; push_cast; omega, ?_⟩
    rw [min_eq_left (by omega)] at hreach ⊢
    exact hreach.delete hx
  · refine ⟨e, by unfold overshoot; push_cast; omega, ?_⟩
    rw [min_eq_right (by omega)] at hreach ⊢
    exact hreach

theorem Clamped.insert (h : Clamped old new d x y) :
    Clamped old new (d + 1) x (y + 1) := by
  obtain ⟨e, hover, hreach⟩ := h
  unfold overshoot at hover
  by_cases hy : y < new.length
  · refine ⟨e + 1, by unfold overshoot; push_cast; omega, ?_⟩
    rw [min_eq_left (b := (new.length : Int)) (by omega)] at hreach ⊢
    exact hreach.insert hy
  · refine ⟨e, by unfold overshoot; push_cast; omega, ?_⟩
    rw [min_eq_right (a := y) (by omega)] at hreach
    rw [min_eq_right (a := y + 1) (by omega)]
    exact hreach

/-! ## The greedy frontier -/

variable [DecidableEq α]

instance (old new : List α) (x y : Int) : Decidable (Matches old new x y) := by
  unfold Matches
  infer_instance

def slide (old new : List α) (k : Int) : Nat → Int → Int
  | 0, x => x
  | fuel + 1, x => if Matches old new x (x - k) then slide old new k fuel (x + 1) else x

def snake (old new : List α) (k x : Int) : Int :=
  slide old new k (old.length - x).toNat x

def FromAbove (v : Int → Int) (d : Nat) (k : Int) : Prop :=
  k = -d ∨ k ≠ d ∧ v (k - 1) < v (k + 1)

instance (v : Int → Int) (d : Nat) (k : Int) : Decidable (FromAbove v d k) := by
  unfold FromAbove
  infer_instance

def launch (v : Int → Int) (d : Nat) (k : Int) : Int :=
  if FromAbove v d k then v (k + 1) else v (k - 1) + 1

def furthest (old new : List α) : Nat → Int → Int
  | 0, k => snake old new k 0
  | d + 1, k => snake old new k (launch (furthest old new d) (d + 1) k)

def entry (old new : List α) : Nat → Int → Int
  | 0, _ => 0
  | d + 1, k => launch (furthest old new d) (d + 1) k

theorem furthest_eq_snake (old new : List α) (d : Nat) (k : Int) :
    furthest old new d k = snake old new k (entry old new d k) := by
  cases d <;> rfl

/-! ## Snakes -/

theorem slide_spec (old new : List α) (k : Int) (fuel : Nat) (x : Int) :
    x ≤ slide old new k fuel x ∧ slide old new k fuel x ≤ x + fuel ∧
      (∀ z, x ≤ z → z < slide old new k fuel x → Matches old new z (z - k)) ∧
      (slide old new k fuel x < x + fuel →
        ¬ Matches old new (slide old new k fuel x) (slide old new k fuel x - k)) := by
  induction fuel generalizing x with
  | zero =>
    simp only [slide]
    exact ⟨le_refl _, by omega, fun z h₁ h₂ => by omega, fun h => by omega⟩
  | succ fuel ih =>
    rw [slide]
    split
    · rename_i hmatch
      obtain ⟨hge, hle, hrun, hstop⟩ := ih (x + 1)
      refine ⟨by omega, by push_cast; omega, ?_, fun h => hstop (by push_cast at h; omega)⟩
      intro z hxz hz
      rcases eq_or_lt_of_le hxz with rfl | hlt
      · exact hmatch
      · exact hrun z (by omega) hz
    · rename_i hmatch
      exact ⟨le_refl _, by push_cast; omega, fun z h₁ h₂ => by omega, fun _ => hmatch⟩

theorem le_snake (old new : List α) (k x : Int) : x ≤ snake old new k x :=
  (slide_spec _ _ k _ x).1

theorem snake_run {z : Int} (hxz : x ≤ z) (hz : z < snake old new k x) :
    Matches old new z (z - k) :=
  (slide_spec _ _ k _ x).2.2.1 z hxz hz

theorem snake_stop (old new : List α) (k x : Int) :
    ¬ Matches old new (snake old new k x) (snake old new k x - k) := by
  obtain ⟨_, hle, _, hstop⟩ := slide_spec old new k (old.length - x).toNat x
  rcases lt_or_eq_of_le hle with hlt | heq
  · exact hstop hlt
  · intro hmatch
    have hlen := hmatch.2.1
    unfold snake at hlen hmatch
    omega

theorem snake_inside (h : x < snake old new k x) :
    snake old new k x ≤ old.length ∧ snake old new k x - k ≤ new.length := by
  have hlast : Matches old new (snake old new k x - 1) (snake old new k x - 1 - k) :=
    snake_run (x := x) (by omega) (by omega)
  obtain ⟨_, hx, _, hy, _⟩ := hlast
  omega

/-! ## Launch points -/

variable {v : Int → Int}

theorem launch_ge_left (hk : k ≠ -d) : v (k - 1) + 1 ≤ launch v d k := by
  unfold launch
  split
  · rename_i h
    rcases h with h | h
    · exact absurd h hk
    · omega
  · exact le_refl _

theorem launch_ge_above (hk : k ≠ d) : v (k + 1) ≤ launch v d k := by
  unfold launch
  split
  · exact le_refl _
  · rename_i h
    have hlt : ¬ v (k - 1) < v (k + 1) := fun hlt => h (Or.inr ⟨hk, hlt⟩)
    omega

theorem furthest_stop (old new : List α) (d : Nat) (k : Int) :
    ¬ Matches old new (furthest old new d k) (furthest old new d k - k) := by
  cases d with
  | zero => exact snake_stop _ _ _ _
  | succ d => exact snake_stop _ _ _ _

theorem launch_le_furthest (old new : List α) (d : Nat) (k : Int) :
    launch (furthest old new d) (d + 1) k ≤ furthest old new (d + 1) k :=
  le_snake _ _ _ _

/-! ## The frontier dominates every path -/

theorem Reach.le_furthest (h : Reach old new d x y) : x ≤ furthest old new d (x - y) := by
  induction h with
  | origin => exact le_snake _ _ _ _
  | @keep d x y _ hmatch ih =>
    rw [show x + 1 - (y + 1) = x - y by omega]
    by_contra hlt
    have heq : furthest old new d (x - y) = x := by omega
    have hstop := furthest_stop old new d (x - y)
    rw [heq, show x - (x - y) = y by omega] at hstop
    exact hstop hmatch
  | @delete d x y hreach hx ih =>
    obtain ⟨_, _, _, _, hlow, hhigh, _⟩ := hreach.bounds
    have hleft := launch_ge_left (v := furthest old new d) (d := d + 1) (k := x + 1 - y)
      (by push_cast; omega)
    have hle := launch_le_furthest old new d (x + 1 - y)
    rw [show x + 1 - y - 1 = x - y by omega] at hleft
    omega
  | @insert d x y hreach hy ih =>
    obtain ⟨_, _, _, _, hlow, hhigh, _⟩ := hreach.bounds
    have habove := launch_ge_above (v := furthest old new d) (d := d + 1) (k := x - (y + 1))
      (by push_cast; omega)
    have hle := launch_le_furthest old new d (x - (y + 1))
    rw [show x - (y + 1) + 1 = x - y by omega] at habove
    omega

/-! ## The frontier is reached -/

theorem Clamped.snake (h : Clamped old new d x (x - k)) :
    Clamped old new d (snake old new k x) (snake old new k x - k) := by
  rcases lt_or_eq_of_le (le_snake old new k x) with hlt | heq
  · obtain ⟨e, hover, hreach⟩ := h
    have hin := snake_inside hlt
    rw [min_eq_left (by omega), min_eq_left (by omega)] at hreach
    refine ⟨e, by unfold overshoot at hover ⊢; omega, ?_⟩
    rw [min_eq_left hin.1, min_eq_left hin.2]
    exact hreach.run (by omega) fun w hxw hw => snake_run hxw hw
  · rw [← heq]
    exact h

def predecessor (v : Int → Int) (d : Nat) (k : Int) : Int :=
  if FromAbove v d k then k + 1 else k - 1

theorem predecessor_onDiagonal (hk : OnDiagonal (d + 1) k) :
    OnDiagonal d (predecessor v (d + 1) k) := by
  unfold OnDiagonal at hk ⊢
  unfold predecessor
  split
  · rename_i h
    unfold FromAbove at h
    push_cast at h
    omega
  · rename_i h
    unfold FromAbove at h
    push_cast at h
    omega

theorem furthest_clamped (old new : List α) (d : Nat) (hk : OnDiagonal d k) :
    Clamped old new d (furthest old new d k) (furthest old new d k - k) := by
  induction d generalizing k with
  | zero =>
    have hzero : k = 0 := by
      unfold OnDiagonal at hk
      push_cast at hk
      omega
    subst hzero
    refine Clamped.snake ⟨0, by unfold overshoot; push_cast; omega, ?_⟩
    exact .origin
  | succ d ih =>
    have hprev := ih (predecessor_onDiagonal (v := furthest old new d) hk)
    apply Clamped.snake
    unfold launch
    unfold predecessor at hprev
    split
    · rename_i habove
      rw [if_pos habove] at hprev
      have h := hprev.insert
      rwa [show furthest old new d (k + 1) - (k + 1) + 1 = furthest old new d (k + 1) - k by omega]
        at h
    · rename_i habove
      rw [if_neg habove] at hprev
      have h := hprev.delete
      rwa [show furthest old new d (k - 1) - (k - 1) = furthest old new d (k - 1) + 1 - k by omega]
        at h

theorem furthest_nonneg (old new : List α) (hk : OnDiagonal d k) :
    0 ≤ furthest old new d k ∧ k ≤ furthest old new d k := by
  obtain ⟨e, _, hreach⟩ := furthest_clamped old new d hk
  have h := hreach.bounds
  omega

theorem entry_nonneg (old new : List α) (hk : OnDiagonal d k) :
    0 ≤ entry old new d k ∧ k ≤ entry old new d k := by
  cases d with
  | zero =>
    have h := hk.2.1
    exact ⟨le_refl _, h⟩
  | succ d =>
    have hprev := furthest_nonneg old new
      (predecessor_onDiagonal (v := furthest old new d) hk)
    unfold predecessor at hprev
    rw [entry, launch]
    split
    · rename_i habove
      rw [if_pos habove] at hprev
      omega
    · rename_i habove
      rw [if_neg habove] at hprev
      omega

/-- Diagonal `k` of round `d` takes `(d + k) / 2` deletions. -/
theorem deletions_le_furthest (old new : List α) (d : Nat) (hk : OnDiagonal d k) :
    d + k ≤ 2 * furthest old new d k := by
  induction d generalizing k with
  | zero =>
    have hnonneg := (furthest_nonneg old new hk).1
    obtain ⟨_, hhigh, _⟩ := hk
    push_cast at hhigh ⊢
    omega
  | succ d ih =>
    have hnonneg := (furthest_nonneg old new hk).1
    obtain ⟨hlow, hhigh, hpar⟩ := hk
    by_cases hleft : k = -(d + 1)
    · omega
    · have hprev := ih (k := k - 1) ⟨by omega, by omega, by omega⟩
      have hge := launch_ge_left (v := furthest old new d) (d := d + 1) (k := k)
        (by exact hleft)
      have hle := launch_le_furthest old new d k
      omega

/-! ## The left border: insertions only -/

theorem fromAbove_left (v : Int → Int) (d : Nat) : FromAbove v (d + 1) (-(d + 1)) :=
  Or.inl (by push_cast; rfl)

theorem furthest_left_le (old new : List α) (d : Nat) :
    furthest old new d (-d) ≤ furthest old new (d + 1) (-(d + 1)) := by
  have hle := launch_le_furthest old new d (-(d + 1))
  rw [launch, if_pos (fromAbove_left _ d), show -((d : Int) + 1) + 1 = -d by omega] at hle
  exact hle

theorem furthest_left_eq_zero {e : Nat} (h : furthest old new d (-d) = 0) (he : e ≤ d) :
    furthest old new e (-e) = 0 := by
  induction d with
  | zero =>
    obtain rfl : e = 0 := by omega
    exact h
  | succ d ih =>
    rcases Nat.lt_or_eq_of_le he with hlt | rfl
    · have hle := furthest_left_le old new d
      have hnonneg := (furthest_nonneg old new (d := d) (k := -d)
        ⟨by omega, by omega, by omega⟩).1
      push_cast at h
      exact ih (by omega) (by omega)
    · exact h

def startsWithInsertion (old new : List α) : Nat → Int → Bool
  | 0, _ => false
  | d + 1, k =>
    if d = 0 then decide (k < 0)
    else startsWithInsertion old new d (predecessor (furthest old new d) (d + 1) k)

theorem startsWithInsertion_left (d : Nat) :
    startsWithInsertion old new (d + 1) (-(d + 1)) = true := by
  induction d with
  | zero => rfl
  | succ d ih =>
    rw [startsWithInsertion, if_neg (by omega), predecessor]
    rw [if_pos (fromAbove_left _ (d + 1))]
    exact ih

/-! ## Meeting the corner -/

/-- The frontier is past the lower right corner on diagonal `k`. -/
def Done (old new : List α) (d : Nat) (k : Int) : Prop :=
  old.length ≤ furthest old new d k ∧ new.length ≤ furthest old new d k - k

theorem Reach.done (h : Reach old new d old.length new.length) :
    Done old new d (old.length - new.length) := by
  have hle := h.le_furthest
  exact ⟨hle, by omega⟩

theorem Done.reach (hk : OnDiagonal d k) (h : Done old new d k) :
    ∃ e ≤ d, Reach old new e old.length new.length := by
  obtain ⟨e, hover, hreach⟩ := furthest_clamped old new d hk
  rw [min_eq_right h.1, min_eq_right h.2] at hreach
  exact ⟨e, by unfold overshoot at hover; omega, hreach⟩

theorem Distance.furthest_eq (h : Distance old new d) :
    furthest old new d (old.length - new.length) = old.length := by
  have hdone := h.reach.done
  obtain ⟨_, _, _, _, hk⟩ := h.reach.bounds
  obtain ⟨e, hover, hreach⟩ := furthest_clamped old new d hk
  rw [min_eq_right hdone.1, min_eq_right hdone.2] at hreach
  have hleast := h.least e hreach
  have h₁ := hdone.1
  unfold overshoot at hover
  omega

theorem distance_of_first_done (hk : OnDiagonal d k) (hdone : Done old new d k)
    (hfirst : ∀ e < d, ∀ j, OnDiagonal e j → ¬ Done old new e j) : Distance old new d := by
  have hleast : ∀ e, Reach old new e old.length new.length → d ≤ e := by
    intro e hreach
    by_contra hlt
    obtain ⟨_, _, _, _, hdiag⟩ := hreach.bounds
    exact hfirst e (by omega) _ hdiag hreach.done
  obtain ⟨e, hle, hreach⟩ := hdone.reach hk
  have heq : e = d := Nat.le_antisymm hle (hleast e hreach)
  exact ⟨heq ▸ hreach, hleast⟩

end Kubepeep.Myers
