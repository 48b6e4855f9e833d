import Kubepeep.Go.Json
import Kubepeep.Lib.Bisect

/-!
# Fitting one log line into an SSE event

`fitLogEvent` (`internal/services/resources/logs.go`) shortens the text of a log line until the
encoded line fits the event budget.  It bisects over byte offsets and moves each probe back to a
rune boundary, so it is a snapped bisection in the sense of `Kubepeep.Lib.Bisect`.
-/

open Nat String Bool Kubepeep.Go

namespace Kubepeep.Logs

def MaximumLogEventBytes : Nat := 68 * 2 ^ 10

def logSSEEnvelopeReserve : Nat := 64

/-- The text is a `String`, that is, valid UTF-8 by construction. -/
structure LogLineDTO where
  timestamp : Option String
  text : String
  truncated : Bool
  deriving DecidableEq, Repr

/-- `json.Marshal` of one line. -/
def LogLineDTO.marshal (line : LogLineDTO) : String :=
  "\x7b\"timestamp\":" ++ Json.marshalStringPtr line.timestamp ++
    ",\"text\":" ++ Json.marshalString line.text ++
    ",\"truncated\":" ++ Json.marshalBool line.truncated ++ "\x7d"

def LogLineDTO.fits (line : LogLineDTO) : Bool :=
  decide (line.marshal.utf8ByteSize ≤ MaximumLogEventBytes - logSSEEnvelopeReserve)

/-- A slice bound `text[:offset]` that is in range and keeps the slice valid UTF-8. -/
structure Cut (text : String) where
  offset : Nat
  le_size : offset ≤ text.utf8ByteSize
  valid : (text.toByteArray.extract 0 offset).IsValidUTF8

def Cut.zero (text : String) : Cut text where
  offset := 0
  le_size := zero_le _
  valid := by simp

def Cut.take {text : String} (cut : Cut text) : String :=
  fromUTF8 (text.toByteArray.extract 0 cut.offset) cut.valid

/-- The inner loop: `middle--` until the slice is valid UTF-8 (`utf8.ValidString`). -/
def moveBack (text : String) : (middle : Nat) → middle ≤ text.utf8ByteSize → Cut text
  | 0, _ => .zero text
  | middle + 1, h =>
    if hv : (text.toByteArray.extract 0 (middle + 1)).IsValidUTF8 then
      ⟨middle + 1, h, hv⟩
    else
      moveBack text middle (by omega)

variable {text : String}

theorem middle_le_size {low high : Int} (hhigh : high ≤ text.utf8ByteSize)
    (hlh : low ≤ high) : ((low + high) / 2).toNat ≤ text.utf8ByteSize := by
  omega

/-- The outer loop; `none` stands for an exhausted iteration budget. -/
def fitLoop (line : LogLineDTO) :
    Nat → (low high : Int) → high ≤ line.text.utf8ByteSize → Cut line.text →
      Option (Cut line.text)
  | 0, _, _, _, _ => none
  | fuel + 1, low, high, hhigh, best =>
    if hlh : low ≤ high then
      let middle := moveBack line.text ((low + high) / 2).toNat (middle_le_size hhigh hlh)
      if { line with text := middle.take }.fits then
        fitLoop line fuel (middle.offset + 1) high hhigh middle
      else
        fitLoop line fuel low (middle.offset - 1)
          (by have h := middle.le_size; omega) best
    else
      some best

/-- `fitLogEvent`, with a bound on the iterations of its outer loop. -/
def fitLogEvent (fuel : Nat) (line : LogLineDTO) : Option LogLineDTO :=
  if line.fits then
    some line
  else
    let line := { line with truncated := true }
    (fitLoop line fuel 0 line.text.utf8ByteSize (le_refl _) (.zero line.text)).map
      fun best => { line with text := best.take }

/-! ## Encoded size -/

/-- The text contributes its escaped bytes and nothing else. -/
theorem LogLineDTO.marshal_size (line : LogLineDTO) :
    line.marshal.utf8ByteSize =
      { line with text := "" }.marshal.utf8ByteSize +
        (Json.escapeRunes line.text.toList).utf8ByteSize := by
  unfold LogLineDTO.marshal
  simp only [utf8ByteSize_append, Json.marshalString_size, toList_empty,
    Json.escapeRunes, utf8ByteSize_empty]
  omega

theorem LogLineDTO.fits_iff (line : LogLineDTO) :
    line.fits = true ↔ line.marshal.utf8ByteSize ≤ MaximumLogEventBytes - logSSEEnvelopeReserve :=
  decide_eq_true_iff

theorem LogLineDTO.fits_of_append (line : LogLineDTO) {p q : String}
    (h : { line with text := p ++ q }.fits = true) : { line with text := p }.fits = true := by
  rw [LogLineDTO.fits_iff, LogLineDTO.marshal_size] at h ⊢
  simp only [toList_append, Json.escapeRunes_append, utf8ByteSize_append] at h ⊢
  omega

theorem utf8ByteSize_append_middle_le (a c : String) {b b' : String}
    (h : b.utf8ByteSize ≤ b'.utf8ByteSize) :
    (a ++ b ++ c).utf8ByteSize ≤ (a ++ b' ++ c).utf8ByteSize := by
  simp only [utf8ByteSize_append]
  omega

variable {line : LogLineDTO}

/-- `true` is one byte shorter than `false`, so marking a line as truncated keeps it in budget. -/
theorem LogLineDTO.fits_truncated (h : line.fits = true) :
    { line with truncated := true }.fits = true := by
  have hsize : { line with truncated := true }.marshal.utf8ByteSize ≤
      line.marshal.utf8ByteSize := by
    unfold LogLineDTO.marshal
    apply utf8ByteSize_append_middle_le
    dsimp only
    cases line.truncated <;> decide
  exact (LogLineDTO.fits_iff _).mpr (hsize.trans ((LogLineDTO.fits_iff line).mp h))

/-! ## Cuts -/

variable {a b : Cut text}

theorem Cut.ext (h : a.offset = b.offset) : a = b := by
  cases a
  cases b
  cases h
  rfl

theorem Cut.split (cut : Cut text) :
    ∃ rest, text = cut.take ++ rest ∧ cut.take.utf8ByteSize = cut.offset := by
  have hvalid : (⟨cut.offset⟩ : Pos.Raw).IsValid text :=
    Pos.Raw.isValid_iff_isValidUTF8_extract_zero.mpr
      ⟨Pos.Raw.le_iff.mpr cut.le_size, cut.valid⟩
  obtain ⟨front, rest, htext, hend⟩ := Pos.Raw.isValid_iff_exists_append.mp hvalid
  have hoffset : cut.offset = front.utf8ByteSize := congrArg Pos.Raw.byteIdx hend
  have hfront : cut.take = front := by
    apply toByteArray_inj.mp
    change text.toByteArray.extract 0 cut.offset = front.toByteArray
    rw [hoffset, show text.toByteArray = front.toByteArray ++ rest.toByteArray by
      rw [htext, toByteArray_append]]
    exact ByteArray.extract_append_eq_left rfl
  exact ⟨rest, by rw [hfront]; exact htext, by rw [hfront, hoffset]⟩

variable {front rest : String}

theorem exists_cut (h : text = front ++ rest) :
    ∃ cut : Cut text, cut.offset = front.utf8ByteSize ∧ cut.take = front := by
  have hbytes : text.toByteArray.extract 0 front.utf8ByteSize = front.toByteArray := by
    rw [h, toByteArray_append]
    exact ByteArray.extract_append_eq_left rfl
  refine ⟨⟨front.utf8ByteSize, ?_, ?_⟩, rfl, ?_⟩
  · rw [h, utf8ByteSize_append]
    omega
  · rw [hbytes]
    exact front.isValidUTF8
  · exact toByteArray_inj.mp hbytes

theorem Cut.take_append (h : a.offset ≤ b.offset) : ∃ q, b.take = a.take ++ q := by
  obtain ⟨_, _, hsize⟩ := b.split
  have hbytes : b.take.toByteArray.extract 0 a.offset = text.toByteArray.extract 0 a.offset := by
    change (text.toByteArray.extract 0 b.offset).extract 0 a.offset = _
    rw [ByteArray.extract_extract, zero_add, zero_add, min_eq_left h]
  let inner : Cut b.take := ⟨a.offset, by omega, by rw [hbytes]; exact a.valid⟩
  obtain ⟨q, hq, _⟩ := inner.split
  have hinner : inner.take = a.take := toByteArray_inj.mp hbytes
  exact ⟨q, by rw [hq, hinner]⟩

theorem exists_rune_append {q : String} (h : 0 < q.utf8ByteSize) :
    ∃ d after, q = singleton d ++ after := by
  cases hq : q.toList with
  | nil =>
    have hempty : q = "" := String.toList_inj.mp (by rw [hq, String.toList_empty])
    rw [hempty, utf8ByteSize_empty] at h
    omega
  | cons d ds =>
    refine ⟨d, ofList ds, toList_inj.mp ?_⟩
    rw [hq, toList_append, toList_singleton, toList_ofList, List.singleton_append]

variable {c : Char}

theorem Cut.past_rune (htext : text = front ++ (singleton c ++ rest)) (cut : Cut text)
    (h : front.utf8ByteSize < cut.offset) : front.utf8ByteSize + c.utf8Size ≤ cut.offset := by
  obtain ⟨start, hstart, hfront⟩ := exists_cut htext
  obtain ⟨q, hq⟩ := Cut.take_append (a := start) (b := cut) (by omega)
  obtain ⟨tail, htail, hsize⟩ := cut.split
  have hlist : q.toList ++ tail.toList = c :: rest.toList := by
    have happ : front ++ (q ++ tail) = front ++ (singleton c ++ rest) := by
      rw [← htext, ← append_assoc, ← hfront, ← hq, ← htail]
    have hcancel := congrArg toList happ
    simpa only [toList_append, List.append_cancel_left_eq, toList_singleton,
      List.singleton_append] using hcancel
  rw [hq, hfront, utf8ByteSize_append] at hsize
  obtain ⟨d, after, rfl⟩ := exists_rune_append (q := q) (by omega)
  rw [toList_append, toList_singleton, List.singleton_append, List.cons_append,
    List.cons.injEq] at hlist
  rw [hlist.1, utf8ByteSize_append, utf8ByteSize_singleton] at hsize
  omega

/-- The cut the inner loop reaches from `middle`, for every `middle`. -/
def cutBelow (text : String) (middle : Nat) : Cut text :=
  moveBack text (min middle text.utf8ByteSize) (min_le_right _ _)

def runeFloor (text : String) (middle : Nat) : Nat :=
  (cutBelow text middle).offset

def fitsAt (line : LogLineDTO) (middle : Nat) : Bool :=
  { line with text := (cutBelow line.text middle).take }.fits

theorem cutBelow_eq_moveBack {middle : Nat} (h : middle ≤ text.utf8ByteSize) :
    cutBelow text middle = moveBack text middle h := by
  unfold cutBelow
  congr 1
  exact min_eq_left h

theorem moveBack_offset_le (text : String) (middle : Nat) (h : middle ≤ text.utf8ByteSize) :
    (moveBack text middle h).offset ≤ middle := by
  induction middle with
  | zero => exact le_refl 0
  | succ middle ih =>
    rw [moveBack]
    split
    · exact le_refl _
    · exact le_succ_of_le (ih _)

theorem le_moveBack_offset (cut : Cut text) (middle : Nat)
    (h : middle ≤ text.utf8ByteSize) (hle : cut.offset ≤ middle) :
    cut.offset ≤ (moveBack text middle h).offset := by
  induction middle with
  | zero => exact hle
  | succ middle ih =>
    rw [moveBack]
    split
    · exact hle
    · rename_i hinvalid
      apply ih
      have hne : cut.offset ≠ middle + 1 := fun he => hinvalid (he ▸ cut.valid)
      omega

theorem cutBelow_offset (text : String) (cut : Cut text) : cutBelow text cut.offset = cut := by
  apply Cut.ext
  rw [cutBelow_eq_moveBack cut.le_size]
  exact le_antisymm (moveBack_offset_le _ _ _) (le_moveBack_offset cut _ _ (le_refl _))

theorem runeFloor_snapping (text : String) : Bisect.Snapping (runeFloor text) where
  le m := by
    have h := moveBack_offset_le text (min m text.utf8ByteSize) (min_le_right _ _)
    exact h.trans (min_le_left _ _)
  greatest c m hc hle := by
    have hcut := (cutBelow text c).le_size
    have hoffset : (cutBelow text c).offset = c := hc
    have h := le_moveBack_offset (cutBelow text c) (min m text.utf8ByteSize)
      (min_le_right _ _) (by omega)
    rw [hoffset] at h
    exact h
  stop m := congrArg Cut.offset (cutBelow_offset text (cutBelow text m))

theorem fitLoop_eq_search (line : LogLineDTO) (fuel : Nat) (low high : Int)
    (hhigh : high ≤ line.text.utf8ByteSize) (best : Cut line.text) :
    (fitLoop line fuel low high hhigh best).map Cut.offset =
      Bisect.search (runeFloor line.text) (fitsAt line) fuel low high best.offset := by
  induction fuel generalizing low high best with
  | zero => rfl
  | succ fuel ih =>
    rw [fitLoop, Bisect.search]
    by_cases hlh : low ≤ high
    · rw [dif_pos hlh, if_pos hlh]
      have hmiddle := cutBelow_eq_moveBack (middle_le_size hhigh hlh)
      have hprobe : Bisect.probe (runeFloor line.text) low high =
          (moveBack line.text ((low + high) / 2).toNat (middle_le_size hhigh hlh)).offset := by
        rw [← hmiddle]
        rfl
      have htest : fitsAt line (Bisect.probe (runeFloor line.text) low high) =
          { line with text := (moveBack line.text ((low + high) / 2).toNat
            (middle_le_size hhigh hlh)).take }.fits := by
        rw [hprobe, fitsAt, cutBelow_offset]
      rw [htest, hprobe]
      dsimp only
      split
      · exact ih _ _ _ _
      · exact ih _ _ _ _
    · rw [dif_neg hlh, if_neg hlh]
      rfl

/-! ## The longest prefix in budget -/

theorem fitsAt_of_le {c d : Nat} (hc : runeFloor line.text c = c)
    (hd : runeFloor line.text d = d) (hcd : c ≤ d) (hok : fitsAt line d = true) :
    fitsAt line c = true := by
  obtain ⟨q, hq⟩ := Cut.take_append (a := cutBelow line.text c) (b := cutBelow line.text d) (by
    change runeFloor line.text c ≤ runeFloor line.text d
    omega)
  unfold fitsAt at hok ⊢
  rw [hq] at hok
  exact LogLineDTO.fits_of_append line hok

theorem exists_threshold (line : LogLineDTO) (hempty : { line with text := "" }.fits = true) :
    ∃ limit ≤ line.text.utf8ByteSize,
      Bisect.Threshold (runeFloor line.text) (fitsAt line) limit := by
  let passes : Nat → Prop := fun c => runeFloor line.text c = c ∧ fitsAt line c = true
  have hzero : passes 0 := by
    have hcut : cutBelow line.text 0 = .zero line.text := cutBelow_offset _ (.zero line.text)
    have htake : (Cut.zero line.text).take = "" := String.toByteArray_inj.mp (by
      change line.text.toByteArray.extract 0 0 = _
      simp)
    refine ⟨congrArg Cut.offset hcut, ?_⟩
    rw [fitsAt, hcut, htake]
    exact hempty
  have hspec := findGreatest_spec (zero_le line.text.utf8ByteSize) hzero
  refine ⟨findGreatest passes line.text.utf8ByteSize, findGreatest_le _, hspec.1, ?_⟩
  intro c hc
  constructor
  · intro hok
    have hle : c ≤ line.text.utf8ByteSize := hc ▸ (cutBelow line.text c).le_size
    exact le_findGreatest hle ⟨hc, hok⟩
  · intro hle
    exact fitsAt_of_le hc hspec.1 hle hspec.2

/-- What `fitLogEvent` is for: a line in budget is kept, any other line keeps the longest valid
UTF-8 prefix of its text whose encoding fits. -/
def LongestFit (line result : LogLineDTO) : Prop :=
  if line.fits then
    result = line
  else
    result.timestamp = line.timestamp ∧ result.truncated = true ∧ result.fits = true ∧
      (∃ rest, line.text = result.text ++ rest) ∧
      ∀ front rest, line.text = front ++ rest →
        { line with text := front, truncated := true }.fits = true →
        front.utf8ByteSize ≤ result.text.utf8ByteSize

theorem longestFit_of_threshold (hfits : line.fits = false) (cut : Cut line.text)
    (ht : Bisect.Threshold (runeFloor line.text) (fitsAt { line with truncated := true })
      cut.offset) :
    LongestFit line { line with truncated := true, text := cut.take } := by
  obtain ⟨rest, hrest, hsize⟩ := cut.split
  rw [LongestFit, if_neg (by rw [hfits]; exact false_ne_true)]
  refine ⟨rfl, rfl, ?_, ⟨rest, hrest⟩, ?_⟩
  · have hpass := (ht.pass cut.offset ht.stop).mpr (le_refl _)
    rw [fitsAt, cutBelow_offset] at hpass
    exact hpass
  · intro front rest hfront hok
    obtain ⟨other, hoffset, htake⟩ := exists_cut hfront
    have hother := cutBelow_offset line.text other
    have hstop : runeFloor line.text other.offset = other.offset := congrArg Cut.offset hother
    have hle := (ht.pass other.offset hstop).mp (by rw [fitsAt, hother, htake]; exact hok)
    change front.utf8ByteSize ≤ cut.take.utf8ByteSize
    omega

/-- `low, high, best := 0, len(line.Text), 0` has not lost the threshold. -/
theorem window_start {limit : Nat} (h : limit ≤ text.utf8ByteSize) :
    Bisect.Window (runeFloor text) limit 0 text.utf8ByteSize 0 where
  bestStop := le_zero.mp ((runeFloor_snapping text).le 0)
  low_best := Or.inl ⟨rfl, rfl⟩
  best_le := zero_le _
  limit_le := Int.ofNat_le.mpr h

theorem fitLogEvent_of_not_fits {fuel : Nat} (h : line.fits = false) : fitLogEvent fuel line =
      (fitLoop { line with truncated := true } fuel 0 line.text.utf8ByteSize (le_refl _)
        (.zero line.text)).map fun best => { line with truncated := true, text := best.take } := by
  rw [fitLogEvent, if_neg (by rw [h]; exact false_ne_true)]

theorem fitLogEvent_some {fuel : Nat} {result : LogLineDTO} (hfits : line.fits = false)
    (h : fitLogEvent fuel line = some result) :
    ∃ cut : Cut line.text, result = { line with truncated := true, text := cut.take } ∧
      Bisect.search (runeFloor line.text) (fitsAt { line with truncated := true }) fuel 0
        line.text.utf8ByteSize 0 = some cut.offset := by
  rw [fitLogEvent_of_not_fits hfits, Option.map_eq_some_iff] at h
  obtain ⟨cut, hcut, hresult⟩ := h
  refine ⟨cut, hresult.symm, ?_⟩
  have hsearch := fitLoop_eq_search { line with truncated := true } fuel 0 line.text.utf8ByteSize
    (le_refl _) (.zero line.text)
  rw [hcut] at hsearch
  exact hsearch.symm

theorem runeFloor_front (h : text = front ++ rest) :
    runeFloor text front.utf8ByteSize = front.utf8ByteSize := by
  obtain ⟨cut, hoffset, _⟩ := exists_cut h
  rw [← hoffset]
  exact congrArg Cut.offset (cutBelow_offset text cut)

theorem fitsAt_front (h : line.text = front ++ rest) :
    fitsAt line front.utf8ByteSize = { line with text := front }.fits := by
  obtain ⟨cut, hoffset, htake⟩ := exists_cut h
  rw [← hoffset, fitsAt, cutBelow_offset, htake]

theorem threshold_eq_front (line : LogLineDTO) {limit : Nat}
    (htext : line.text = front ++ (singleton c ++ rest))
    (hfront : { line with text := front }.fits = true)
    (hover : { line with text := front ++ singleton c }.fits = false)
    (ht : Bisect.Threshold (runeFloor line.text) (fitsAt line) limit) :
    limit = front.utf8ByteSize := by
  have hnext : line.text = (front ++ singleton c) ++ rest := by
    rw [append_assoc]
    exact htext
  have hlow : front.utf8ByteSize ≤ limit :=
    (ht.pass _ (runeFloor_front htext)).mp ((fitsAt_front htext).trans hfront)
  have hhigh : ¬ (front ++ singleton c).utf8ByteSize ≤ limit := by
    apply mt (ht.pass _ (runeFloor_front hnext)).mpr
    rw [fitsAt_front hnext, hover]
    exact false_ne_true
  rw [utf8ByteSize_append, utf8ByteSize_singleton] at hhigh
  rcases lt_or_eq_of_le hlow with hlt | heq
  · have hcut : (cutBelow line.text limit).offset = limit := ht.stop
    rw [← hcut] at hlt hhigh
    exact absurd (Cut.past_rune htext _ hlt) hhigh
  · exact heq.symm

/-- `c` is the first rune of the text that no longer fits. -/
structure Overruns (line : LogLineDTO) (front : String) (c : Char) (rest : String) : Prop where
  text_eq : line.text = front ++ (singleton c ++ rest)
  front_fits : { line with text := front, truncated := true }.fits = true
  next_over : { line with text := front ++ singleton c, truncated := true }.fits = false

/-- No rune ends so close to the end of the text that fewer than its own bytes, less one, follow:
no rune of two bytes at the end, of three before the last byte, of four before the last two. -/
def Clear (front : String) : Prop :=
  ∀ before d after, front = before ++ (singleton d ++ after) →
    d.utf8Size ≤ after.utf8ByteSize + 1

theorem Overruns.not_fits (h : Overruns line front c rest) : line.fits = false := by
  by_contra hfits
  have hline := LogLineDTO.fits_truncated ((not_eq_false _).mp hfits)
  have hnext := LogLineDTO.fits_of_append { line with truncated := true }
    (p := front ++ singleton c) (q := rest) (by
      rw [append_assoc, ← h.text_eq]
      exact hline)
  exact false_ne_true (h.next_over.symm.trans hnext)

theorem Overruns.size_le (h : Overruns line front c rest) :
    front.utf8ByteSize + c.utf8Size ≤ line.text.utf8ByteSize := by
  rw [h.text_eq, utf8ByteSize_append, utf8ByteSize_append, utf8ByteSize_singleton]
  omega

theorem Overruns.threshold (h : Overruns line front c rest)
    (hempty : { line with text := "" }.fits = true) :
    Bisect.Threshold (runeFloor line.text) (fitsAt { line with truncated := true })
      front.utf8ByteSize := by
  have hempty' := LogLineDTO.fits_truncated hempty
  obtain ⟨limit, _, ht⟩ := exists_threshold { line with truncated := true } hempty'
  have hlimit := threshold_eq_front { line with truncated := true } h.text_eq h.front_fits
    h.next_over ht
  exact hlimit ▸ ht

theorem Overruns.window (h : Overruns line front c rest) :
    Bisect.Window (runeFloor line.text) front.utf8ByteSize 0 line.text.utf8ByteSize 0 :=
  window_start (Nat.le_of_add_right_le h.size_le)

/-- A midpoint at or above a later rune boundary is not moved back below it. -/
theorem lt_probe {b next : Nat} {high : Int} (hstop : runeFloor text next = next) (hlt : b < next)
    (hmiddle : 2 * (next : Int) ≤ b + 1 + high) :
    b < Bisect.probe (runeFloor text) (b + 1) high := by
  have hge := (runeFloor_snapping text).greatest next ((b + 1 + high) / 2).toNat hstop (by omega)
  exact hlt.trans_le hge

theorem Overruns.next (h : Overruns line front c rest) (hnarrow : c.utf8Size = 1)
    (hclear : Clear front) {b : Nat} {high : Int} (hstop : runeFloor line.text b = b)
    (hb : b ≤ front.utf8ByteSize) (hhigh : front.utf8ByteSize ≤ high) (hlh : b + 1 ≤ high) :
    b < Bisect.probe (runeFloor line.text) (b + 1) high := by
  rcases Nat.lt_or_eq_of_le hb with hlt | heq
  · -- The rune at `b` is one of `front`, and its end is not past the midpoint.
    obtain ⟨start, hstart, hfront⟩ := exists_cut h.text_eq
    have hcut : (cutBelow line.text b).offset = b := hstop
    obtain ⟨q, hq⟩ := Cut.take_append (a := cutBelow line.text b) (b := start) (by omega)
    obtain ⟨_, _, hsize⟩ := (cutBelow line.text b).split
    generalize (cutBelow line.text b).take = before at hq hsize
    rw [hfront] at hq
    have hfull := congrArg utf8ByteSize hq
    rw [utf8ByteSize_append, hsize, hcut] at hfull
    obtain ⟨d, after, rfl⟩ := exists_rune_append (q := q) (by omega)
    rw [utf8ByteSize_append, utf8ByteSize_singleton] at hfull
    have hroom := hclear before d after hq
    have htext : line.text = (before ++ String.singleton d) ++
        (after ++ (singleton c ++ rest)) := by
      rw [h.text_eq, hq]
      simp only [append_assoc]
    have hend := runeFloor_front htext
    rw [utf8ByteSize_append, utf8ByteSize_singleton, hsize, hcut] at hend
    have := d.utf8Size_pos
    exact lt_probe hend (by omega) (by omega)
  · have htext : line.text = (front ++ String.singleton c) ++ rest := by
      rw [h.text_eq, append_assoc]
    have hend := runeFloor_front htext
    rw [utf8ByteSize_append, utf8ByteSize_singleton, hnarrow] at hend
    exact lt_probe hend (by omega) (by omega)

theorem Overruns.returns (h : Overruns line front c rest)
    (hempty : { line with text := "" }.fits = true) (hnarrow : c.utf8Size = 1)
    (hclear : Clear front) :
    ∃ fuel result, fitLogEvent fuel line = some result ∧ LongestFit line result := by
  have hsnap := runeFloor_snapping line.text
  have ht := h.threshold hempty
  have hn := Bisect.narrows_of_next hsnap ht
    (fun b high hstop hb hhigh hlh => h.next hnarrow hclear hstop hb hhigh hlh)
    (line.text.utf8ByteSize + 1) 0 line.text.utf8ByteSize 0 h.window (by omega)
  obtain ⟨fuel, hsearch⟩ := hn.returns_limit hsnap ht h.window
  have hloop := fitLoop_eq_search { line with truncated := true } fuel 0
    line.text.utf8ByteSize (le_refl _) (.zero line.text)
  rw [show (Cut.zero line.text).offset = 0 from rfl, hsearch, Option.map_eq_some_iff] at hloop
  obtain ⟨cut, hcut, hoffset⟩ := hloop
  refine ⟨fuel, _, ?_, longestFit_of_threshold h.not_fits cut (hoffset ▸ ht)⟩
  rw [fitLogEvent_of_not_fits h.not_fits, hcut, Option.map_some]

/-- When the first rune that no longer fits takes more than one byte, the loop never ends: the
upper end of the interval never drops below that rune. -/
theorem Overruns.hangs (h : Overruns line front c rest)
    (hempty : { line with text := "" }.fits = true) (hwide : 2 ≤ c.utf8Size) (fuel : Nat) :
    fitLogEvent fuel line = none := by
  have hsnap := runeFloor_snapping line.text
  have ht := h.threshold hempty
  have hgap : runeFloor line.text (front.utf8ByteSize + 1) ≠ front.utf8ByteSize + 1 := by
    intro hstop
    have hcut : (cutBelow line.text (front.utf8ByteSize + 1)).offset = front.utf8ByteSize + 1 :=
      hstop
    have hpast := Cut.past_rune h.text_eq (cutBelow line.text (front.utf8ByteSize + 1)) (by omega)
    omega
  cases hrun : fitLogEvent fuel line with
  | none => rfl
  | some result =>
    obtain ⟨cut, _, hsearch⟩ := fitLogEvent_some h.not_fits hrun
    have hn := (Bisect.search_some hsnap ht h.window hsearch).1
    have hsize := h.size_le
    exact absurd hn (Bisect.not_narrows_of_gap hsnap ht h.window hgap (by omega))

/-- `n` euro signs of three bytes each, followed by `k` letters. -/
def euroText (n k : Nat) : String :=
  ofList (List.replicate n '€' ++ List.replicate k 'a')

theorem euroText_fits_iff (n k : Nat) :
    (⟨none, euroText n k, true⟩ : LogLineDTO).fits = true ↔ 45 + n * 3 + k ≤ 69568 := by
  have hempty : (⟨none, "", true⟩ : LogLineDTO).marshal.utf8ByteSize = 45 := by decide +kernel
  have heuro : (Json.escapeRune '€').utf8ByteSize = 3 := by decide +kernel
  have hletter : (Json.escapeRune 'a').utf8ByteSize = 1 := by decide +kernel
  rw [LogLineDTO.fits_iff, LogLineDTO.marshal_size]
  dsimp only
  rw [hempty, euroText, toList_ofList, Json.escapeRunes_append, utf8ByteSize_append,
    Json.escapeRunes_size_replicate, Json.escapeRunes_size_replicate, heuro, hletter]
  unfold MaximumLogEventBytes logSSEEnvelopeReserve
  omega

theorem euroText_overruns {n k : Nat} (hfits : 45 + n * 3 + k = 69568) (more : Nat) :
    Overruns ⟨none, euroText n (k + 1 + more), false⟩ (euroText n k) 'a' (euroText 0 more) where
  text_eq := by
    apply toList_inj.mp
    simp [euroText, List.replicate_add, List.append_assoc]
  front_fits := (euroText_fits_iff n k).mpr (by omega)
  next_over := by
    have hnext : euroText n k ++ singleton 'a' = euroText n (k + 1) := by
      apply toList_inj.mp
      simp [euroText, List.replicate_succ']
    rw [hnext, ← Bool.not_eq_true]
    exact mt (euroText_fits_iff n (k + 1)).mp (by omega)

theorem euroText_clear (n k : Nat) : Clear (euroText n (k + 3)) := by
  intro before d after h
  have hlist : List.replicate n '€' ++ List.replicate k 'a' ++ ['a', 'a', 'a'] =
      before.toList ++ d :: after.toList := by
    have := congrArg toList h
    rw [euroText, toList_ofList, toList_append, toList_append, toList_singleton,
      List.singleton_append, List.replicate_add, ← List.append_assoc] at this
    exact this
  have hletters : ['a', 'a', 'a'] <:+ before.toList ++ d :: after.toList :=
    hlist ▸ List.suffix_append _ _
  have hrune : d :: after.toList <:+ before.toList ++ d :: after.toList := List.suffix_append _ _
  by_cases hlong : 3 ≤ after.toList.length
  · have hsub := List.suffix_of_suffix_length_le hletters
      ((List.suffix_cons d _).trans hrune) hlong
    have hsize := utf8Len_le_of_suffix hsub
    rw [← utf8ByteSize_ofList, ← utf8ByteSize_ofList, ofList_toList] at hsize
    have hthree : (ofList ['a', 'a', 'a']).utf8ByteSize = 3 := by decide +kernel
    have := d.utf8Size_le_four
    omega
  · -- The rune is one of the last three letters.
    have hsub := List.suffix_of_suffix_length_le hrune hletters (by
      rw [List.length_cons]
      change after.toList.length + 1 ≤ 3
      omega)
    have hd : d = 'a' := by simpa using hsub.subset List.mem_cons_self
    rw [hd]
    exact Nat.le_add_left _ _

end Kubepeep.Logs
