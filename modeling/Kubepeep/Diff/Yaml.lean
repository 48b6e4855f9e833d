import Kubepeep.Diff.Faithful

/-!
# `DiffYAML` on whole documents

Trimming keeps the common lines on both sides and leaves two middles whose first lines differ, so
the results about `myersMiddle` carry over to the rendered diff.
-/

open List Kubepeep.Myers

namespace Kubepeep.Diff

/-! ## Trimming -/

variable (as bs : List Line)

theorem commonPrefix_le_left : commonPrefix as bs ≤ as.length := by
  fun_induction commonPrefix as bs with
  | case1 as b bs ih =>
    rw [length_cons]
    omega
  | case2 => exact Nat.zero_le _
  | case3 => exact Nat.zero_le _

theorem commonPrefix_comm : commonPrefix as bs = commonPrefix bs as := by
  fun_induction commonPrefix as bs with
  | case1 as b bs ih => rw [commonPrefix, if_pos rfl, ih]
  | case2 a as b bs hne => rw [commonPrefix, if_neg (Ne.symm hne)]
  | case3 as bs h =>
    cases as with
    | nil => cases bs <;> rfl
    | cons a as =>
      cases bs with
      | nil => rfl
      | cons b bs => exact absurd rfl (h a as b bs rfl)

theorem commonPrefix_le_right : commonPrefix as bs ≤ bs.length :=
  commonPrefix_comm as bs ▸ commonPrefix_le_left bs as

theorem take_commonPrefix :
    as.take (commonPrefix as bs) = bs.take (commonPrefix as bs) := by
  fun_induction commonPrefix as bs with
  | case1 as b bs ih => rw [take_succ_cons, take_succ_cons, ih]
  | case2 => rw [take_zero, take_zero]
  | case3 => rw [take_zero, take_zero]

theorem drop_commonPrefix_ne {as bs as' bs' : List Line} {a b : Line}
    (ha : as.drop (commonPrefix as bs) = a :: as') (hb : bs.drop (commonPrefix as bs) = b :: bs') :
    a ≠ b := by
  fun_induction commonPrefix as bs with
  | case1 as b bs ih =>
    exact ih ha hb
  | case2 x xs y ys hne =>
    rw [drop_zero, cons.injEq] at ha hb
    rw [← ha.1, ← hb.1]
    exact hne
  | case3 xs ys h =>
    exact (h a as' b bs' ha hb).elim

structure TrimSpec (previous current : List Line) (t : Trimmed) : Prop where
  previous_eq : previous.take t.head ++ t.previous ++ previous.drop (previous.length - t.tail) =
    previous
  current_eq : previous.take t.head ++ t.current ++ previous.drop (previous.length - t.tail) =
    current
  ends : (previous.take t.head).length + (previous.drop (previous.length - t.tail)).length =
    t.head + t.tail
  heads : ∀ {p c ps cs}, t.previous = p :: ps → t.current = c :: cs → p ≠ c

theorem trim_spec (previous current : List Line) :
    TrimSpec previous current (trim previous current) := by
  unfold trim
  dsimp only
  generalize hhead : commonPrefix previous current = head
  have hleft : head ≤ previous.length := hhead ▸ commonPrefix_le_left previous current
  have hright : head ≤ current.length := hhead ▸ commonPrefix_le_right previous current
  have hfront : previous.take head = current.take head := hhead ▸ take_commonPrefix previous current
  generalize htail : commonPrefix (previous.drop head).reverse (current.drop head).reverse = tail
  have htailLeft : tail ≤ previous.length - head := by
    have h := htail ▸ commonPrefix_le_left (previous.drop head).reverse (current.drop head).reverse
    rwa [length_reverse, length_drop] at h
  have htailRight : tail ≤ current.length - head := by
    have h := htail ▸ commonPrefix_le_right (previous.drop head).reverse (current.drop head).reverse
    rwa [length_reverse, length_drop] at h
  have hback : previous.drop (previous.length - tail) = current.drop (current.length - tail) := by
    have h := htail ▸ take_commonPrefix (previous.drop head).reverse (current.drop head).reverse
    rw [take_reverse, take_reverse, reverse_inj, drop_drop, drop_drop,
      length_drop, length_drop] at h
    rwa [show head + (previous.length - head - tail) = previous.length - tail by omega,
      show head + (current.length - head - tail) = current.length - tail by omega] at h
  have hrebuild : ∀ xs : List Line, head + tail ≤ xs.length →
      xs.take head ++ (xs.drop head).take (xs.length - tail - head) ++ xs.drop (xs.length - tail) =
        xs := by
    intro xs hlen
    rw [← take_add, show head + (xs.length - tail - head) = xs.length - tail by omega,
      take_append_drop]
  refine ⟨hrebuild previous (by omega), ?_, ?_, ?_⟩
  · rw [hfront, hback]
    exact hrebuild current (by omega)
  · dsimp only
    rw [length_take, length_drop]
    omega
  · intro p c ps cs hp hc
    have hpfull : previous.drop head = p :: (ps ++ (previous.drop head).drop
        (previous.length - tail - head)) := by
      rw [← cons_append, ← hp, take_append_drop]
    have hcfull : current.drop head = c :: (cs ++ (current.drop head).drop
        (current.length - tail - head)) := by
      rw [← cons_append, ← hc, take_append_drop]
    rw [← hhead] at hpfull hcfull
    exact drop_commonPrefix_ne hpfull hcfull

theorem myersDiff_eq (previous current : List Line) :
    myersDiff previous current =
      (myersMiddle (trim previous current).previous
          (trim previous current).current).map fun middle =>
        (previous.take (trim previous current).head).map (⟨.opSame, ·⟩) ++ middle ++
          (previous.drop (previous.length - (trim previous current).tail)).map (⟨.opSame, ·⟩) := by
  unfold myersDiff
  split
  · rename_i hempty
    obtain rfl : previous = [] := length_eq_zero_iff.mp (by omega)
    obtain rfl : current = [] := length_eq_zero_iff.mp (by omega)
    rfl
  · dsimp only
    cases myersMiddle (trim previous current).previous (trim previous current).current <;> rfl

/-! ## Rendering -/

theorem renderLoop_spec (ops : List DiffOperation) (lines : List DiffLineDTO)
    (h : lines.length ≤ MaximumDiffLines) :
    ((renderLoop ops lines).2 = false ↔ lines.length + ops.length ≤ MaximumDiffLines) ∧
      ((renderLoop ops lines).2 = false →
        (renderLoop ops lines).1 = lines ++ ops.map DiffOperation.line) := by
  induction ops generalizing lines with
  | nil => simp [renderLoop, h]
  | cons op ops ih =>
    rw [renderLoop]
    split
    · rename_i hfull
      rw [length_cons]
      simp only [Bool.true_eq_false, false_implies, and_true, false_iff]
      omega
    · rename_i hroom
      have hlen : (lines ++ [op.line]).length = lines.length + 1 := by
        rw [length_append, length_singleton]
      obtain ⟨hflag, hlines⟩ := ih (lines ++ [op.line]) (by omega)
      refine ⟨?_, fun hfalse => ?_⟩
      · rw [hflag, hlen, length_cons]
        omega
      · rw [hlines hfalse, append_assoc, map_cons, singleton_append]

/-! ## Documents -/

/-- No panic, and an untruncated diff spells both documents. -/
def Spells (current previous : List UInt8) : Prop :=
  ∃ dto, DiffYAML current previous = some dto ∧
    (dto.truncated = false →
      spellPrevious dto.lines = splitLines previous ∧ spellCurrent dto.lines = splitLines current)

/-- Where the defect does not show: the documents are equal, or both middles have lines and the
greedy path between them begins with a deletion.  A path that begins with an insertion goes
unnoticed only if the diff is cut off and the first removed line reappears early enough. -/
def Harmless (t : Trimmed) : Prop :=
  t.previous = [] ∧ t.current = [] ∨
    t.previous ≠ [] ∧ t.current ≠ [] ∧ ∃ d, Distance t.previous t.current d ∧
      (startsWithInsertion t.previous t.current d (t.previous.length - t.current.length) = true →
        2 * (MaximumDiffLines + 1) <
          2 * (t.head + t.tail) + t.previous.length + t.current.length + d ∧
        (t.current.idxOf (t.previous.headD []) = 1 ∨
          t.current.idxOf (t.previous.headD []) + 2 < t.current.length))

variable {current previous : List UInt8}

theorem diffYAML_eq (hc : (splitLines current).length ≤ maximumDiffInputLines)
    (hp : (splitLines previous).length ≤ maximumDiffInputLines) :
    DiffYAML current previous =
      (myersDiff (splitLines previous) (splitLines current)).map fun ops =>
        { absent := false
          truncated := (renderLoop ops []).2
          lines := (renderLoop ops []).1 } := by
  unfold DiffYAML
  rw [take_of_length_le hc, take_of_length_le hp]
  dsimp only
  cases myersDiff (splitLines previous) (splitLines current) <;> rfl

/-- The common ends spell themselves, so a document diff is right when its middle is. -/
theorem spells_iff_middle {t : Trimmed} (hc : (splitLines current).length ≤ maximumDiffInputLines)
    (hp : (splitLines previous).length ≤ maximumDiffInputLines)
    (ht : trim (splitLines previous) (splitLines current) = t) :
    Spells current previous ↔ ∃ middle, myersMiddle t.previous t.current = some middle ∧
      (t.head + t.tail + middle.length ≤ MaximumDiffLines →
        previousOf middle = t.previous ∧ currentOf middle = t.current) := by
  have hspec := trim_spec (splitLines previous) (splitLines current)
  have hdiff := myersDiff_eq (splitLines previous) (splitLines current)
  rw [ht] at hspec hdiff
  obtain ⟨hprevious, hcurrent, hends, _⟩ := hspec
  unfold Spells
  rw [diffYAML_eq hc hp, hdiff, Option.map_map]
  generalize hfront : (splitLines previous).take t.head = front at *
  generalize hback : (splitLines previous).drop ((splitLines previous).length - t.tail) = back at *
  have hrender : ∀ middle : List DiffOperation,
      (((renderLoop (front.map (⟨.opSame, ·⟩) ++ middle ++ back.map (⟨.opSame, ·⟩)) []).2 = false →
        spellPrevious (renderLoop (front.map (⟨.opSame, ·⟩) ++ middle ++
          back.map (⟨.opSame, ·⟩)) []).1 = splitLines previous ∧
        spellCurrent (renderLoop (front.map (⟨.opSame, ·⟩) ++ middle ++
          back.map (⟨.opSame, ·⟩)) []).1 = splitLines current) ↔
      (t.head + t.tail + middle.length ≤ MaximumDiffLines →
        previousOf middle = t.previous ∧ currentOf middle = t.current)) := by
    intro middle
    obtain ⟨hflag, hlines⟩ := renderLoop_spec
      (front.map (⟨.opSame, ·⟩) ++ middle ++ back.map (⟨.opSame, ·⟩)) [] (Nat.zero_le _)
    simp only [length_nil, length_append, length_map, Nat.zero_add] at hflag
    rw [show front.length + middle.length + back.length = t.head + t.tail + middle.length by omega]
      at hflag
    rw [← hflag]
    refine imp_congr_right fun hfalse => ?_
    rw [hlines hfalse, nil_append]
    change previousOf _ = _ ∧ currentOf _ = _ ↔ _
    rw [previousOf_append, previousOf_append, previousOf_same, previousOf_same, currentOf_append,
      currentOf_append, currentOf_same, currentOf_same]
    rw [← hprevious, ← hcurrent]
    rw [append_cancel_right_eq, append_cancel_left_eq, append_cancel_right_eq,
      append_cancel_left_eq]
  constructor
  · rintro ⟨dto, hdto, hspell⟩
    obtain ⟨middle, hmiddle, rfl⟩ := Option.map_eq_some_iff.mp hdto
    exact ⟨middle, hmiddle, (hrender middle).mp hspell⟩
  · rintro ⟨middle, hmiddle, hspell⟩
    exact ⟨_, by rw [hmiddle, Option.map_some], (hrender middle).mpr hspell⟩

theorem harmless_cons_iff {head tail d : Nat} {p c : Line} {ps cs : List Line}
    (hdistance : Distance (p :: ps) (c :: cs) d)
    (hstart : startsWithInsertion (p :: ps) (c :: cs) d
      ((p :: ps).length - (c :: cs).length) = true) :
    Harmless ⟨head, tail, p :: ps, c :: cs⟩ ↔
      2 * (MaximumDiffLines + 1) <
        2 * (head + tail) + (p :: ps).length + (c :: cs).length + d ∧
      ((c :: cs).idxOf p = 1 ∨ (c :: cs).idxOf p + 2 < (c :: cs).length) := by
  unfold Harmless
  dsimp only
  rw [headD_cons]
  constructor
  · rintro (⟨h, _⟩ | ⟨_, _, e, he, hcond⟩)
    · exact absurd h (cons_ne_nil p ps)
    · obtain rfl := he.unique hdistance
      exact hcond hstart
  · intro h
    exact Or.inr ⟨cons_ne_nil p ps, cons_ne_nil c cs, d, hdistance, fun _ => h⟩

/-- For documents within the input bound, `DiffYAML` neither panics nor misspells an untruncated
diff exactly when its trimmed middles are harmless. -/
theorem diffYAML_spells_iff (current previous : List UInt8)
    (hc : (splitLines current).length ≤ maximumDiffInputLines)
    (hp : (splitLines previous).length ≤ maximumDiffInputLines) :
    Spells current previous ↔ Harmless (trim (splitLines previous) (splitLines current)) := by
  have hspec := trim_spec (splitLines previous) (splitLines current)
  rw [spells_iff_middle hc hp rfl]
  obtain ⟨_, _, _, hheads⟩ := hspec
  generalize trim (splitLines previous) (splitLines current) = t at *
  obtain ⟨head, tail, old, new⟩ := t
  dsimp only at hheads ⊢
  cases old with
  | nil =>
    cases new with
    | nil => exact iff_of_true ⟨[], rfl, fun _ => ⟨rfl, rfl⟩⟩ (Or.inl ⟨rfl, rfl⟩)
    | cons c cs =>
      have hpanic : myersMiddle [] (c :: cs) = none := myersMiddle_one_sided
        (Or.inl ⟨rfl, List.cons_ne_nil c cs⟩)
      simp [Harmless, hpanic]
  | cons p ps =>
    cases new with
    | nil =>
      have hpanic : myersMiddle (p :: ps) [] = none := myersMiddle_one_sided
        (Or.inr ⟨List.cons_ne_nil p ps, rfl⟩)
      simp [Harmless, hpanic]
    | cons c cs =>
      obtain ⟨d, hdistance, hgood, hbad⟩ := myersMiddle_spec ps cs (hheads rfl rfl)
      cases hstart : startsWithInsertion (p :: ps) (c :: cs) d
          ((p :: ps).length - (c :: cs).length) with
      | false =>
        obtain ⟨operations, hmiddle, hprevious, hcurrent⟩ := hgood hstart
        refine iff_of_true ⟨operations, hmiddle, fun _ => ⟨hprevious, hcurrent⟩⟩ (Or.inr ?_)
        refine ⟨List.cons_ne_nil p ps, List.cons_ne_nil c cs, d, hdistance, fun h => ?_⟩
        rw [hstart] at h
        exact absurd h Bool.false_ne_true
      | true =>
        rw [harmless_cons_iff hdistance hstart]
        rcases hbad hstart with ⟨hrange, operations, hmiddle, hcount, hspell⟩ | ⟨hrange, hmiddle⟩
        · rw [hmiddle]
          constructor
          · rintro ⟨middle, hsome, hfit⟩
            obtain rfl := Option.some.inj hsome
            refine ⟨?_, hrange⟩
            by_contra hshort
            exact hspell (hfit (by omega)).2
          · rintro ⟨hlong, _⟩
            exact ⟨operations, rfl, fun hfit => absurd hfit (by omega)⟩
        · rw [hmiddle]
          constructor
          · rintro ⟨middle, hsome, _⟩
            exact absurd hsome.symm (Option.some_ne_none middle)
          · rintro ⟨_, h⟩
            exact absurd h hrange

/-- `previous = "a\nb\n"`, `current = "b\nc\n"`: the first line goes and a last one comes. -/
theorem diffYAML_spells_shifted :
    DiffYAML [98, 10, 99, 10] [97, 10, 98, 10] = some
      { absent := false
        truncated := false
        lines := [⟨.DiffRemoved, [97]⟩, ⟨.DiffSame, [98]⟩, ⟨.DiffAdded, [99]⟩] } ∧
    Spells [98, 10, 99, 10] [97, 10, 98, 10] := by
  have hdistance : Distance [[97], [98]] ([[98], [99]] : List Line) 2 := by
    refine ⟨?_, fun e he => ?_⟩
    · have hdeleted : Reach [[97], [98]] ([[98], [99]] : List Line) 1 1 0 :=
        Reach.origin.delete (by decide)
      exact (hdeleted.keep (by simp [Matches])).insert (by decide)
    · -- without an edit the corner is not reached, with one it is on another diagonal
      have hfar := he.le_furthest
      have ⟨_, _, _, _, hdiagonal⟩ := he.bounds
      match e with
      | 0 => exact absurd hfar (by decide)
      | 1 => exact absurd hdiagonal.2.2 (by decide)
      | e + 2 => omega
  refine ⟨by decide, (diffYAML_spells_iff _ _ (by decide) (by decide)).mpr (Or.inr ?_)⟩
  refine ⟨by decide, by decide, 2, hdistance, fun h => absurd h (by decide)⟩

/-- `previous = "a\n"`, `current = "a\nb\n"`: one added line makes the backtrack panic. -/
theorem diffYAML_added_line_panics :
    (splitLines [97, 10, 98, 10]).length ≤ maximumDiffInputLines ∧
      (splitLines [97, 10]).length ≤ maximumDiffInputLines ∧
      ¬ Spells [97, 10, 98, 10] [97, 10] := by
  refine ⟨by decide, by decide, ?_⟩
  rintro ⟨dto, hdto, _⟩
  exact absurd hdto.symm (Option.some_ne_none dto)

end Kubepeep.Diff
