import Kubepeep.Diff.Forward

/-!
# Walking the saved frontiers back

`myersBacktrack` repeats the guard of the forward search, but with `d` one smaller than the round
it undoes.  Diagonals have the parity of their round, so the two border tests `k == -d` and
`k != d` never decide anything here, and the border diagonals read the untouched zeros beyond the
frontier instead.  That is harmless on the right border.  On the left border it is harmless as
long as the frontier has left `x = 0`.
-/

open Option List Kubepeep.Go Kubepeep.Myers

namespace Kubepeep.Diff

def spellPrevious (lines : List DiffLineDTO) : List Line :=
  (lines.filter (·.kind ≠ .DiffAdded)).map (·.text)

def spellCurrent (lines : List DiffLineDTO) : List Line :=
  (lines.filter (·.kind ≠ .DiffRemoved)).map (·.text)

@[simp] theorem spellPrevious_append (l r : List DiffLineDTO) :
    spellPrevious (l ++ r) = spellPrevious l ++ spellPrevious r := by
  simp [spellPrevious]

@[simp] theorem spellCurrent_append (l r : List DiffLineDTO) :
    spellCurrent (l ++ r) = spellCurrent l ++ spellCurrent r := by
  simp [spellCurrent]

def previousOf (operations : List DiffOperation) : List Line :=
  spellPrevious (operations.map DiffOperation.line)

def currentOf (operations : List DiffOperation) : List Line :=
  spellCurrent (operations.map DiffOperation.line)

@[simp] theorem previousOf_append (l r : List DiffOperation) :
    previousOf (l ++ r) = previousOf l ++ previousOf r := by
  simp [previousOf]

@[simp] theorem currentOf_append (l r : List DiffOperation) :
    currentOf (l ++ r) = currentOf l ++ currentOf r := by
  simp [currentOf]

theorem previousOf_same (texts : List Line) :
    previousOf (texts.map (⟨.opSame, ·⟩)) = texts := by
  induction texts with
  | nil => rfl
  | cons text texts ih =>
    rw [map_cons, ← singleton_append, previousOf_append, ih]
    rfl

theorem currentOf_same (texts : List Line) :
    currentOf (texts.map (⟨.opSame, ·⟩)) = texts := by
  induction texts with
  | nil => rfl
  | cons text texts ih =>
    rw [map_cons, ← singleton_append, currentOf_append, ih]
    rfl

variable {previous current : List Line}

def stretch (xs : List Line) (a b : Int) : List Line :=
  (xs.drop a.toNat).take (b - a).toNat

variable {a : Int} {xs : List Line}

theorem stretch_append {b c : Int} (ha : 0 ≤ a) (hab : a ≤ b) (hbc : b ≤ c) :
    stretch xs a b ++ stretch xs b c = stretch xs a c := by
  unfold stretch
  rw [show (c - a).toNat = (b - a).toNat + (c - b).toNat by omega, take_add, drop_drop,
    show a.toNat + (b - a).toNat = b.toNat by omega]

theorem stretch_self (xs : List Line) (a : Int) : stretch xs a a = [] := by
  unfold stretch
  rw [Int.sub_self, Int.toNat_zero, take_zero]

variable {text : Line}

theorem stretch_one (ha : 0 ≤ a)
    (h : Slice.get xs a = some text) : stretch xs a (a + 1) = [text] := by
  rw [Slice.get_of_nonneg ha] at h
  unfold stretch
  rw [show (a + 1 - a).toNat = 1 by omega, take_one, head?_drop, h]
  rfl

theorem stretch_length (xs : List Line) {b : Int} (ha : 0 ≤ a) (hab : a ≤ b)
    (hb : b ≤ xs.length) : ((stretch xs a b).length : Int) = b - a := by
  unfold stretch
  rw [length_take, length_drop]
  omega

theorem stretch_snake {k b : Int} (hrun : ∀ z, a ≤ z → z < b → Matches previous current z (z - k))
    (ha : 0 ≤ a) (hk : 0 ≤ a - k) (hab : a ≤ b) :
    stretch previous a b = stretch current (a - k) (b - k) := by
  induction b, hab using Int.leInduction with
  | base => rw [stretch_self, stretch_self]
  | succ b hab ih =>
    obtain ⟨hx₀, hx, hy₀, hy, heq⟩ := hrun b hab (by omega)
    obtain ⟨text, htext⟩ := Slice.exists_get previous hx₀ hx
    have htext' : Slice.get current (b - k) = some text := by
      rw [Slice.get_of_nonneg hy₀, ← heq, ← Slice.get_of_nonneg hx₀, htext]
    rw [← stretch_append ha hab (by omega), ih fun z h₁ h₂ => hrun z h₁ (by omega),
      stretch_one hx₀ htext, show b + 1 - k = b - k + 1 by omega,
      ← stretch_append hk (by omega) (by omega : b - k ≤ b - k + 1), stretch_one hy₀ htext']

theorem retreat_eq (previous : List Line) (toX toY : Int) (c fuel : Nat) {x y : Int}
    (hc : c ≤ fuel) (hx : 0 ≤ x - c) (hn : x ≤ previous.length)
    (hgo : ∀ i : Nat, i < c → toX < x - i ∧ toY < y - i)
    (hstop : ¬ (toX < x - c ∧ toY < y - c)) :
    retreat previous toX toY fuel x y =
      some (((stretch previous (x - c) x).map (⟨.opSame, ·⟩)).reverse, x - c, y - c) := by
  induction c generalizing fuel x y with
  | zero =>
    push_cast at hstop ⊢
    rw [Int.sub_zero, Int.sub_zero] at hstop ⊢
    rw [stretch_self]
    cases fuel with
    | zero => rfl
    | succ fuel =>
      rw [retreat, if_neg hstop]
      rfl
  | succ c ih =>
    obtain ⟨fuel, rfl⟩ : ∃ f, fuel = f + 1 := ⟨fuel - 1, by omega⟩
    push_cast at hx hstop ⊢
    have hhead := hgo 0 (by omega)
    push_cast at hhead
    rw [Int.sub_zero, Int.sub_zero] at hhead
    obtain ⟨text, htext⟩ := Slice.exists_get previous (i := x - 1) (by omega) (by omega)
    rw [retreat, if_pos hhead, htext, ih fuel (by omega) (by omega) (by omega)
      (fun i hi => by have h := hgo (i + 1) (by omega); push_cast at h; omega) (by omega)]
    have hlast := stretch_one (by omega) htext
    rw [show x - 1 + 1 = x by omega] at hlast
    rw [show x - 1 - c = x - (c + 1) by omega, show y - 1 - c = y - (c + 1) by omega,
      ← stretch_append (a := x - (c + 1)) (b := x - 1) (c := x) (by omega) (by omega) (by omega),
      hlast, map_append, reverse_append]
    rfl

/-! ## The three ways through the loop body -/

section Body

variable {trace : List (List Int)} {snapshot : List Int} {d : Nat} {x y a : Int}

/-- The guard holds: walk back to `x = a`, then undo an insertion. -/
theorem backtrackLoop_insert (hget : Slice.get trace d = some snapshot)
    (hguard : takesInsertion snapshot (span previous current) d (x - y) = some true)
    (hread : Slice.get snapshot (x - y + 1 + span previous current) = some a) (ha : 0 ≤ a)
    (hax : a ≤ x) (hx : x ≤ previous.length) (hay : 0 ≤ a - (x - y + 1))
    (hy : y ≤ current.length) :
    ∃ text, Slice.get current (a - (x - y + 1)) = some text ∧
      backtrackLoop trace previous current (d + 1) x y =
        (backtrackLoop trace previous current d a (a - (x - y + 1))).map fun rest =>
          ((stretch previous a x).map (⟨.opSame, ·⟩)).reverse ++ ⟨.opInsert, text⟩ :: rest := by
  unfold span at hguard hread
  obtain ⟨text, htext⟩ := Slice.exists_get current hay (by omega)
  have hretreat := retreat_eq previous a (a - (x - y + 1))
    (x - a).toNat (x - a).toNat (x := x) (y := y) (le_refl _) (by omega) hx
    (fun i hi => by omega) (by omega)
  rw [show x - ((x - a).toNat : Int) = a by omega] at hretreat
  refine ⟨text, htext, ?_⟩
  rw [backtrackLoop, hget]
  simp only [bind_eq_bind, bind_some, hguard, if_true, hread, hretreat, htext]
  rw [show y - ((x - a).toNat : Int) - 1 = a - (x - y + 1) by omega]
  cases backtrackLoop trace previous current d a (a - (x - y + 1)) <;> rfl

/-- The guard fails and `x` is past `a`: walk back to `x = a + 1`, then undo a deletion. -/
theorem backtrackLoop_delete (hget : Slice.get trace d = some snapshot)
    (hguard : takesInsertion snapshot (span previous current) d (x - y) = some false)
    (hread : Slice.get snapshot (x - y - 1 + span previous current) = some a) (ha : 0 ≤ a)
    (hax : a < x) (hx : x ≤ previous.length) :
    ∃ text, Slice.get previous a = some text ∧
      backtrackLoop trace previous current (d + 1) x y =
        (backtrackLoop trace previous current d a (a - (x - y - 1))).map fun rest =>
          ((stretch previous (a + 1) x).map (⟨.opSame, ·⟩)).reverse ++
            ⟨.opDelete, text⟩ :: rest := by
  unfold span at hguard hread
  obtain ⟨text, htext⟩ := Slice.exists_get previous ha (by omega)
  have hretreat := retreat_eq previous a (a - (x - y - 1))
    (x - a - 1).toNat (x - a).toNat (x := x) (y := y) (by omega) (by omega) hx
    (fun i hi => by omega) (by omega)
  rw [show x - ((x - a - 1).toNat : Int) = a + 1 by omega] at hretreat
  refine ⟨text, htext, ?_⟩
  rw [backtrackLoop, hget]
  simp only [bind_eq_bind, bind_some, hguard, Bool.false_eq_true, if_false, hread,
    hretreat]
  rw [if_neg (by omega), show a + 1 - 1 = a by omega, htext,
    show y - ((x - a - 1).toNat : Int) = a - (x - y - 1) by omega]
  cases backtrackLoop trace previous current d a (a - (x - y - 1)) <;> rfl

/-- The guard fails although `x` is `a` already: a line two places further on is inserted. -/
theorem backtrackLoop_stuck (previous current : List Line)
    (hget : Slice.get trace d = some snapshot)
    (hguard : takesInsertion snapshot (span previous current) d (x - y) = some false)
    (hread : Slice.get snapshot (x - y - 1 + span previous current) = some x) :
    backtrackLoop trace previous current (d + 1) x y =
      (Slice.get current (y + 1)).bind fun text =>
        (backtrackLoop trace previous current d x (y - 1)).map (⟨.opInsert, text⟩ :: ·) := by
  unfold span at hguard hread
  rw [backtrackLoop, hget]
  simp only [bind_eq_bind, bind_some, hguard, Bool.false_eq_true, if_false, hread]
  rw [Int.sub_self, Int.toNat_zero, retreat, show x - (x - y - 1) = y + 1 by omega]
  simp only [bind_some, if_true]
  cases Slice.get current (y + 1) with
  | none => rfl
  | some text => cases backtrackLoop trace previous current d x (y - 1) <;> rfl

end Body

/-! ## One level of the backtrack -/

/-- What the guard decides at level `d + 1`: the choice of the forward search, except on the left
border while the frontier is still at `x = 0`. -/
theorem takesInsertion_backtrack {d : Nat} {k : Int} {snapshot : List Int}
    (hs : Snapshot previous current d snapshot) (hk : OnDiagonal (d + 1) k)
    (hleast : -span previous current ≤ k - 1) (hmost : k + 1 ≤ span previous current)
    (hborder : k = -(d + 1) → furthest previous current d (-d) ≠ 0) :
    takesInsertion snapshot (span previous current) d k =
      some (decide (FromAbove (furthest previous current d) (d + 1) k)) := by
  obtain ⟨hlow, hhigh, hpar⟩ := hk
  unfold takesInsertion FromAbove
  push_cast
  rw [if_neg (by omega), if_neg (by omega)]
  by_cases hleft : k = -(d + 1)
  · -- Left border: the zero beyond is compared with a frontier that has left `x = 0`.
    subst hleft
    have hdiag : OnDiagonal d (-d) := ⟨by omega, by omega, by omega⟩
    have hpos := (furthest_nonneg previous current hdiag).1
    rw [hs.beyond (-(d + 1) - 1) (by omega) (by omega) (by omega),
      show -((d : Int) + 1) + 1 = -d by omega, hs.reached (-d) hdiag]
    simp only [bind_eq_bind, bind_some]
    rw [decide_eq_true (by omega)]
    rfl
  · have hbelow : OnDiagonal d (k - 1) := ⟨by omega, by omega, by omega⟩
    rw [hs.reached (k - 1) hbelow]
    by_cases hright : k = d + 1
    · -- Right border: the frontier is never below the zero beyond.
      have hpos := (furthest_nonneg previous current hbelow).1
      rw [hs.beyond (k + 1) (by omega) (by omega) (by omega)]
      simp only [bind_eq_bind, bind_some]
      rw [decide_eq_false (by omega), decide_eq_false (by omega)]
      rfl
    · rw [hs.reached (k + 1) ⟨by omega, by omega, by omega⟩]
      simp only [bind_eq_bind, bind_some, hleft, hright, false_or, ne_eq,
        not_false_eq_true, true_and]
      rfl

/-- The operations of one or more levels, in the order they are appended, spell the stretches
between two points. -/
structure Emits (previous current : List Line) (x₀ y₀ x y : Int) (operations : List DiffOperation) :
    Prop where
  previous_eq : previousOf operations.reverse = stretch previous x₀ x
  current_eq : currentOf operations.reverse = stretch current y₀ y

theorem Emits.append {x₀ y₀ x₁ y₁ x y : Int} {first rest : List DiffOperation} (hx₀ : 0 ≤ x₀)
    (hx₁ : x₀ ≤ x₁) (hx : x₁ ≤ x) (hy₀ : 0 ≤ y₀) (hy₁ : y₀ ≤ y₁) (hy : y₁ ≤ y)
    (hfirst : Emits previous current x₁ y₁ x y first)
    (hrest : Emits previous current x₀ y₀ x₁ y₁ rest) :
    Emits previous current x₀ y₀ x y (first ++ rest) where
  previous_eq := by
    rw [reverse_append, previousOf_append, hrest.previous_eq, hfirst.previous_eq,
      stretch_append hx₀ hx₁ hx]
  current_eq := by
    rw [reverse_append, currentOf_append, hrest.current_eq, hfirst.current_eq,
      stretch_append hy₀ hy₁ hy]

theorem emits_snake {k b : Int} (hrun : ∀ z, a ≤ z → z < b → Matches previous current z (z - k))
    (ha : 0 ≤ a) (hk : 0 ≤ a - k) (hab : a ≤ b) :
    Emits previous current a (a - k) b (b - k)
      ((stretch previous a b).map (⟨.opSame, ·⟩)).reverse where
  previous_eq := by rw [reverse_reverse, previousOf_same]
  current_eq := by rw [reverse_reverse, currentOf_same, stretch_snake hrun ha hk hab]

theorem emits_insert (previous : List Line) (x : Int) {y : Int} (hy : 0 ≤ y)
    (h : Slice.get current y = some text) :
    Emits previous current x y x (y + 1) [⟨.opInsert, text⟩] where
  previous_eq := by
    rw [stretch_self]
    rfl
  current_eq := by
    rw [stretch_one hy h]
    rfl

theorem emits_delete (current : List Line) (y : Int) {x : Int} (hx : 0 ≤ x)
    (h : Slice.get previous x = some text) :
    Emits previous current x y (x + 1) y [⟨.opDelete, text⟩] where
  previous_eq := by
    rw [stretch_one hx h]
    rfl
  current_eq := by
    rw [stretch_self]
    rfl

/-- The operations of one level, from `(x, y)` back to `(x₀, y₀)`: one edit and the snake after
it. -/
structure Level (previous current : List Line) (x₀ y₀ x y : Int)
    (operations : List DiffOperation) : Prop where
  emits : Emits previous current x₀ y₀ x y operations
  x_nonneg : 0 ≤ x₀
  y_nonneg : 0 ≤ y₀
  x_le : x₀ ≤ x
  y_le : y₀ ≤ y
  length : 2 * (operations.length : Int) = x - x₀ + (y - y₀) + 1

theorem level_insert {k x : Int}
    (hrun : ∀ z, a ≤ z → z < x → Matches previous current z (z - k)) (ha : 0 ≤ a) (hax : a ≤ x)
    (hx : x ≤ previous.length) (hy : 0 ≤ a - (k + 1))
    (htext : Slice.get current (a - (k + 1)) = some text) :
    Level previous current a (a - (k + 1)) x (x - k)
      (((stretch previous a x).map (⟨.opSame, ·⟩)).reverse ++ [⟨.opInsert, text⟩]) where
  emits := by
    have hedit := emits_insert previous a hy htext
    rw [show a - (k + 1) + 1 = a - k by omega] at hedit
    exact .append ha (le_refl a) hax hy (by omega) (by omega)
      (emits_snake hrun ha (by omega) hax) hedit
  x_nonneg := ha
  y_nonneg := hy
  x_le := hax
  y_le := by omega
  length := by
    have h := stretch_length previous ha hax hx
    rw [length_append, length_reverse, length_map, length_singleton]
    push_cast
    omega

theorem level_delete {k x : Int}
    (hrun : ∀ z, a + 1 ≤ z → z < x → Matches previous current z (z - k)) (ha : 0 ≤ a)
    (hax : a + 1 ≤ x) (hx : x ≤ previous.length) (hy : 0 ≤ a - (k - 1))
    (htext : Slice.get previous a = some text) :
    Level previous current a (a - (k - 1)) x (x - k)
      (((stretch previous (a + 1) x).map (⟨.opSame, ·⟩)).reverse ++ [⟨.opDelete, text⟩]) where
  emits := by
    have hedit := emits_delete current (a - (k - 1)) ha htext
    have hsnake := emits_snake hrun (by omega) (by omega) hax
    rw [show a + 1 - k = a - (k - 1) by omega] at hsnake
    exact .append ha (by omega) hax hy (le_refl _) (by omega) hsnake hedit
  x_nonneg := ha
  y_nonneg := hy
  x_le := by omega
  y_le := by omega
  length := by
    have h := stretch_length previous (a := a + 1) (by omega) hax hx
    rw [length_append, length_reverse, length_map, length_singleton]
    push_cast
    omega

theorem backtrackLoop_level {d : Nat} {k : Int} {trace : List (List Int)} {snapshot : List Int}
    (hget : Slice.get trace d = some snapshot) (hs : Snapshot previous current d snapshot)
    (hk : OnDiagonal (d + 1) k) (hn : 0 < previous.length) (hm : 0 < current.length)
    (hborder : k = -(d + 1) → furthest previous current d (-d) ≠ 0)
    (hx : furthest previous current (d + 1) k ≤ previous.length)
    (hy : furthest previous current (d + 1) k - k ≤ current.length) :
    ∃ j operations, j = predecessor (furthest previous current d) (d + 1) k ∧
      Level previous current (furthest previous current d j) (furthest previous current d j - j)
        (furthest previous current (d + 1) k) (furthest previous current (d + 1) k - k)
        operations ∧
      backtrackLoop trace previous current (d + 1) (furthest previous current (d + 1) k)
          (furthest previous current (d + 1) k - k) =
        (backtrackLoop trace previous current d (furthest previous current d j)
          (furthest previous current d j - j)).map (operations ++ ·) := by
  have hinside := furthest_nonneg previous current hk
  have hguard := takesInsertion_backtrack hs hk (by unfold span; omega) (by unfold span; omega)
    hborder
  have hdiag := predecessor_onDiagonal (v := furthest previous current d) hk
  have hnonneg := furthest_nonneg previous current hdiag
  have hread := hs.reached _ hdiag
  have hentry := furthest_eq_snake previous current (d + 1) k
  have hle := le_snake previous current k (entry previous current (d + 1) k)
  have hrun : ∀ z, entry previous current (d + 1) k ≤ z → z < furthest previous current (d + 1) k →
      Matches previous current z (z - k) := by
    intro z hz hlt
    exact snake_run hz hlt
  rw [← hentry] at hle
  rw [entry, launch] at hle hrun
  rw [predecessor] at hnonneg hread ⊢
  generalize furthest previous current (d + 1) k = x at *
  have hxk : x - (x - k) = k := by omega
  by_cases habove : FromAbove (furthest previous current d) (d + 1) k
  · rw [if_pos habove] at hnonneg hread hle hrun
    rw [if_pos habove]
    rw [decide_eq_true habove] at hguard
    obtain ⟨text, htext, hloop⟩ := backtrackLoop_insert (x := x) (y := x - k) hget
      (by rw [hxk]; exact hguard) (by rw [hxk]; exact hread) hnonneg.1 hle hx
      (by rw [hxk]; omega) hy
    rw [hxk] at htext hloop
    refine ⟨_, _, rfl, level_insert hrun hnonneg.1 hle hx (by omega) htext, ?_⟩
    rw [hloop]
    congr 1
    funext rest
    rw [append_assoc, singleton_append]
  · rw [if_neg habove] at hnonneg hread hle hrun
    rw [if_neg habove]
    rw [decide_eq_false habove] at hguard
    obtain ⟨text, htext, hloop⟩ := backtrackLoop_delete (x := x) (y := x - k) hget
      (by rw [hxk]; exact hguard) (by rw [hxk]; exact hread) hnonneg.1 (by omega) hx
    rw [hxk] at hloop
    refine ⟨_, _, rfl, level_delete hrun hnonneg.1 hle hx (by omega) htext, ?_⟩
    rw [hloop]
    congr 1
    funext rest
    rw [append_assoc, singleton_append]

end Kubepeep.Diff
