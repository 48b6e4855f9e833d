import Mathlib

/-!
# The order of a page

`internal/integration/kubernetesruntime/resources_sort.go` compares texts byte by byte, and runs of
digits by their values.  A text is a sequence of pieces, bytes and values, and the comparison is
the lexicographic one.
-/

open List

namespace Kubepeep.Resources

abbrev Byte := Fin 256

/-- `strings.Compare` and `int64Compare`. -/
def threeWay {α : Type} [LinearOrder α] (left right : α) : Int :=
  if left < right then -1 else if left > right then 1 else 0

def isASCIIDigit (value : Byte) : Bool := 48 ≤ value && value ≤ 57

/-- `value[significantDigitStart:digitRunEnd]`: the digits that `value` begins with, from the first
that is not a zero. -/
def significantDigits (value : List Byte) : List Byte :=
  (value.takeWhile isASCIIDigit).dropWhile (· == 48)

theorem length_dropWhile_lt (p : Byte → Bool) (b : Byte) (rest : List Byte) :
    (rest.dropWhile p).length < (b :: rest).length :=
  Nat.lt_succ_of_le (dropWhile_suffix p).length_le

def naturalTextCompare : List Byte → List Byte → Int
  | [], [] => 0
  | [], _ :: _ => -1
  | _ :: _, [] => 1
  | l :: left, r :: right =>
    if isASCIIDigit l && isASCIIDigit r then
      let leftDigits := significantDigits (l :: left)
      let rightDigits := significantDigits (r :: right)
      if leftDigits.length < rightDigits.length then -1
      else if leftDigits.length > rightDigits.length then 1
      else if threeWay leftDigits rightDigits ≠ 0 then threeWay leftDigits rightDigits
      else naturalTextCompare (left.dropWhile isASCIIDigit) (right.dropWhile isASCIIDigit)
    else if l < r then -1
    else if l > r then 1
    else naturalTextCompare left right
termination_by left => left.length
decreasing_by
  · exact length_dropWhile_lt ..
  · exact Nat.lt_succ_self _

def pageSortLess (primary canonical : Int) (descending : Bool) : Bool :=
  if primary = 0 then decide (canonical < 0)
  else if descending then decide (primary > 0)
  else decide (primary < 0)

/-- `naturalTextFieldsCompare` and `lexicalTextFieldsCompare`: the first fields that differ
decide. -/
def textFieldsCompare (compare : List Byte → List Byte → Int) :
    List (List Byte) → List (List Byte) → Int
  | [], [] => 0
  | [], _ :: _ => -1
  | _ :: _, [] => 1
  | l :: left, r :: right =>
    if compare l r ≠ 0 then compare l r else textFieldsCompare compare left right

def naturalTextFieldsCompare := textFieldsCompare naturalTextCompare

def lexicalTextFieldsCompare := textFieldsCompare threeWay

/-! ## Pieces -/

section

variable {α : Type} [LinearOrder α] {a b : α}

theorem threeWay_neg : threeWay a b < 0 ↔ a < b := by
  unfold threeWay
  grind

theorem threeWay_pos : 0 < threeWay a b ↔ b < a := by
  unfold threeWay
  grind

theorem threeWay_eq_zero : threeWay a b = 0 ↔ a = b := by
  unfold threeWay
  grind

theorem threeWay_cons (as bs : List α) :
    threeWay (a :: as) (b :: bs) =
      if threeWay a b ≠ 0 then threeWay a b else threeWay as bs := by
  unfold threeWay
  simp only [cons_lt_cons_iff, gt_iff_lt]
  grind

theorem threeWay_toLex {β : Type} [LinearOrder β] (c d : β) :
    threeWay (toLex (a, c)) (toLex (b, d)) =
      if threeWay a b ≠ 0 then threeWay a b else threeWay c d := by
  unfold threeWay
  simp only [Prod.Lex.toLex_lt_toLex, gt_iff_lt]
  grind

end

/-- A byte, or a run of digits: it lies where the digits are, among other runs by its value. -/
abbrev Piece := Byte ×ₗ ℕ ×ₗ List Byte

def firstPiece (b : Byte) (rest : List Byte) : Piece :=
  if isASCIIDigit b then
    toLex (48, toLex ((significantDigits (b :: rest)).length, significantDigits (b :: rest)))
  else toLex (b, toLex (0, []))

def pieces : List Byte → List Piece
  | [] => []
  | b :: rest =>
    firstPiece b rest :: pieces (if isASCIIDigit b then rest.dropWhile isASCIIDigit else rest)
termination_by value => value.length
decreasing_by
  split
  · exact length_dropWhile_lt ..
  · exact Nat.lt_succ_self _

theorem threeWay_firstPiece {l r : Byte} (h : ¬(isASCIIDigit l && isASCIIDigit r) = true)
    (left right : List Byte) : threeWay (firstPiece l left) (firstPiece r right) =
      threeWay l r := by
  unfold firstPiece isASCIIDigit at *
  split <;> split <;> simp only [threeWay_toLex] <;> unfold threeWay <;> grind

theorem threeWay_run {l r : Byte} (hl : isASCIIDigit l) (hr : isASCIIDigit r)
    (left right : List Byte) : threeWay (firstPiece l left) (firstPiece r right) =
      let leftDigits := significantDigits (l :: left)
      let rightDigits := significantDigits (r :: right)
      if leftDigits.length < rightDigits.length then -1
      else if leftDigits.length > rightDigits.length then 1
      else threeWay leftDigits rightDigits := by
  simp only [firstPiece, hl, hr, if_true, threeWay_toLex]
  grind [threeWay]

theorem naturalTextCompare_eq (left right : List Byte) :
    naturalTextCompare left right = threeWay (pieces left) (pieces right) := by
  fun_induction naturalTextCompare left right with
  | case1 | case2 | case3 => simp [pieces, threeWay]
  -- two runs of digits: by length, by their digits, or by what follows them
  | case4 | case5 | case6 | case7 => grind [pieces, threeWay_cons, threeWay_run]
  | case8 | case9 | case10 => grind [pieces, threeWay_cons, threeWay_firstPiece, threeWay]

/-! ## Leading zeros -/

/-- A run of digits without leading zeros; a run of zeros keeps one. -/
def runText (digits : List Byte) : List Byte :=
  if digits.isEmpty then [48] else digits

def stripZeros : List Byte → List Byte
  | [] => []
  | b :: rest =>
    if isASCIIDigit b then
      runText (significantDigits (b :: rest)) ++ stripZeros (rest.dropWhile isASCIIDigit)
    else b :: stripZeros rest
termination_by value => value.length
decreasing_by
  · exact length_dropWhile_lt ..
  · exact Nat.lt_succ_self _

def Piece.text (piece : Piece) : List Byte :=
  if (ofLex piece).1 = 48 then runText (ofLex (ofLex piece).2).2 else [(ofLex piece).1]

variable (value : List Byte)

theorem stripZeros_eq :
    stripZeros value = (pieces value).flatMap Piece.text := by
  fun_induction stripZeros value with
  | case1 => simp [pieces]
  | case2 b rest hdigit ih => simp [pieces, firstPiece, hdigit, Piece.text, ih]
  | case3 b rest hdigit ih =>
    have hne : b ≠ 48 := by grind [isASCIIDigit]
    simp [pieces, firstPiece, hdigit, Piece.text, ih, hne]

theorem pieces_append {run tail : List Byte} (hne : run ≠ []) (hrun : ∀ b ∈ run, isASCIIDigit b)
    (htail : ∀ b ∈ tail.head?, isASCIIDigit b = false) :
    pieces (run ++ tail) =
      toLex (48, toLex ((run.dropWhile (· == 48)).length, run.dropWhile (· == 48))) ::
        pieces tail := by
  have hnone : tail.takeWhile isASCIIDigit = [] ∧ tail.dropWhile isASCIIDigit = tail := by
    cases tail <;> simp_all
  cases run with
  | nil => contradiction
  | cons b rest =>
    obtain ⟨hb, hrest⟩ := forall_mem_cons.mp hrun
    have hdigits : significantDigits (b :: (rest ++ tail)) = (b :: rest).dropWhile (· == 48) := by
      rw [significantDigits, ← cons_append, takeWhile_append_of_pos hrun, hnone.1, append_nil]
    rw [cons_append, pieces, firstPiece, if_pos hb, if_pos hb, hdigits,
      dropWhile_append_of_pos hrest, hnone.2]

theorem head_stripZeros :
    ∀ b ∈ (stripZeros (value.dropWhile isASCIIDigit)).head?, isASCIIDigit b = false := by
  have hhead := head?_dropWhile_not isASCIIDigit value
  cases h : value.dropWhile isASCIIDigit with
  | nil => simp [stripZeros]
  | cons b rest =>
    rw [h] at hhead
    simp_all [stripZeros]

theorem runText_digits {value : List Byte} :
    ∀ b ∈ runText (significantDigits value), isASCIIDigit b := by
  intro b hb
  unfold runText at hb
  split at hb
  · rw [mem_singleton.mp hb]
    decide
  · exact mem_takeWhile_imp ((dropWhile_sublist _).mem hb)

theorem pieces_stripZeros : pieces (stripZeros value) = pieces value := by
  fun_induction stripZeros value with
  | case1 => rfl
  | case2 b rest hdigit ih =>
    have hdrop : (runText (significantDigits (b :: rest))).dropWhile (· == 48) =
        significantDigits (b :: rest) := by
      unfold runText
      split
      · simp_all
      · exact dropWhile_idempotent _ _
    rw [pieces_append (by grind [runText]) runText_digits (head_stripZeros rest), hdrop, ih, pieces,
      firstPiece, if_pos hdigit, if_pos hdigit]
  | case3 b rest hdigit ih => simp [pieces, firstPiece, hdigit, ih]

theorem pieces_eq_iff {left right : List Byte} :
    pieces left = pieces right ↔ stripZeros left = stripZeros right := by
  constructor
  · intro h
    rw [stripZeros_eq, stripZeros_eq, h]
  · intro h
    rw [← pieces_stripZeros, h, pieces_stripZeros]

/-! ## Orders -/

structure TotalPreorder {Row : Type} (compare : Row → Row → Int) : Prop where
  swap : ∀ a b, compare a b < 0 ↔ 0 < compare b a
  trans : ∀ a b c, compare a b ≤ 0 → compare b c ≤ 0 → compare a c ≤ 0

theorem TotalPreorder.of_key {Row α : Type} [LinearOrder α] {compare : Row → Row → Int}
    (key : Row → α) (h : ∀ a b, compare a b = threeWay (key a) (key b)) :
    TotalPreorder compare where
  swap a b := by rw [h, h, threeWay_neg, threeWay_pos]
  trans a b c hab hbc := by
    rw [h, ← not_lt, threeWay_pos, not_lt] at *
    exact hab.trans hbc

theorem textFieldsCompare_eq {α : Type} [LinearOrder α] {compare : List Byte → List Byte → Int}
    {key : List Byte → α} (h : ∀ l r, compare l r = threeWay (key l) (key r))
    (left right : List (List Byte)) :
    textFieldsCompare compare left right = threeWay (left.map key) (right.map key) := by
  fun_induction textFieldsCompare compare left right with
  | case1 | case2 | case3 => simp [threeWay]
  | case4 | case5 => grind [threeWay_cons]

theorem pageSortLess_strictWeakOrder {Row : Type} {primary canonical : Row → Row → Int}
    (hprimary : TotalPreorder primary) (hcanonical : TotalPreorder canonical) (descending : Bool) :
    IsStrictWeakOrder Row fun a b => pageSortLess (primary a b) (canonical a b) descending := by
  obtain ⟨hswap, htrans⟩ := hprimary
  obtain ⟨hswap', htrans'⟩ := hcanonical
  unfold pageSortLess
  refine { irrefl := ?_, trans := ?_, incomp_trans := ?_ } <;> grind

/-- The comparison of texts is a total preorder that identifies two texts when they agree but for
leading zeros, and a page is sorted by a strict weak order in both directions. -/
theorem naturalTextCompare_totalPreorder :
    TotalPreorder naturalTextCompare ∧
      (∀ a b, naturalTextCompare a b = 0 ↔ stripZeros a = stripZeros b) ∧
      TotalPreorder naturalTextFieldsCompare ∧ TotalPreorder lexicalTextFieldsCompare ∧
      ∀ (Row : Type) (primary canonical : Row → Row → Int) (descending : Bool),
        TotalPreorder primary → TotalPreorder canonical →
          IsStrictWeakOrder Row fun a b =>
            pageSortLess (primary a b) (canonical a b) descending := by
  refine ⟨.of_key pieces naturalTextCompare_eq, ?_,
    .of_key (map pieces) (textFieldsCompare_eq naturalTextCompare_eq),
    .of_key (map id) (textFieldsCompare_eq fun _ _ => rfl),
    fun _ _ _ descending hprimary hcanonical =>
      pageSortLess_strictWeakOrder hprimary hcanonical descending⟩
  intro a b
  rw [naturalTextCompare_eq, threeWay_eq_zero, pieces_eq_iff]

end Kubepeep.Resources
