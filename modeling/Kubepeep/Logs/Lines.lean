import Kubepeep.Go.Bufio

/-!
# The lines of a log

`Read` splits the bytes of a log at every LF (`splitLogLines`); `Follow` and `Download` read one
bounded line after the other through a `bufio.Reader` (`readBoundedLine`).  The latter drops the CR
before an LF, and reports a line as truncated once a fragment of it ends at the limit, even if
nothing of the line is cut.
-/

open Nat Option Bool List Kubepeep.Go.Bufio

namespace Kubepeep.Logs

/-! ## Splitting -/

def splitLogLines (raw : List UInt8) : List (List UInt8) :=
  if raw = [] then []
  else
    let parts := raw.splitOn LF
    if parts.getLast? = some [] then parts.dropLast else parts

/-- A line of the log, and whether an LF ends it. -/
structure LogLine where
  bytes : List UInt8
  ended : Bool
  deriving DecidableEq, Repr

def LogLine.text (line : LogLine) : List UInt8 :=
  if line.ended then dropCR line.bytes else line.bytes

def logLines (raw : List UInt8) : List LogLine :=
  let parts := raw.splitOn LF
  parts.dropLast.map (⟨·, true⟩) ++
    ((parts.getLast?.filter (· ≠ [])).map fun bytes => LogLine.mk bytes false).toList

/-- The first line of a log and the bytes after its LF. -/
inductive Begins : List UInt8 → LogLine → List UInt8 → Prop
  | ended {front rest : List UInt8} (h : LF ∉ front) :
      Begins (front ++ LF :: rest) ⟨front, true⟩ rest
  | last {bytes : List UInt8} (h : LF ∉ bytes) : Begins bytes ⟨bytes, false⟩ []

theorem exists_begins (raw : List UInt8) : ∃ line rest, Begins raw line rest := by
  by_cases h : LF ∈ raw
  · obtain ⟨front, rest, rfl, hfront⟩ := eq_append_cons_of_mem h
    exact ⟨_, _, .ended hfront⟩
  · exact ⟨_, _, .last h⟩

theorem splitOn_ended {front : List UInt8} (h : LF ∉ front) (rest : List UInt8) :
    (front ++ LF :: rest).splitOn LF = front :: rest.splitOn LF := by
  have hfront : front.splitOnP (· == LF) = [front] :=
    splitOnP_eq_singleton fun byte hbyte => beq_false_of_ne fun heq => h (heq ▸ hbyte)
  show (front ++ LF :: rest).splitOnP (· == LF) = front :: rest.splitOnP (· == LF)
  rw [splitOnP_append_cons front rest (by exact beq_self_eq_true LF), hfront]
  rfl

theorem splitOn_last {bytes : List UInt8} (h : LF ∉ bytes) : bytes.splitOn LF = [bytes] :=
  splitOnP_eq_singleton fun _ hbyte => beq_false_of_ne fun heq => h (heq ▸ hbyte)

theorem splitOn_ne_nil (raw : List UInt8) : raw.splitOn LF ≠ [] := by
  obtain ⟨line, rest, h⟩ := exists_begins raw
  cases h with
  | ended h => simp [splitOn_ended h]
  | last h => simp [splitOn_last h]

variable {rest raw : List UInt8} {line : LogLine}

theorem Begins.logLines (h : Begins raw line rest)
    (hne : raw ≠ []) : logLines raw = line :: logLines rest := by
  cases h with
  | @ended front rest h =>
    unfold Logs.logLines
    rw [splitOn_ended h]
    obtain ⟨part, parts, hparts⟩ := exists_cons_of_ne_nil (splitOn_ne_nil rest)
    rw [hparts]
    simp [getLast?_cons_cons]
  | last h =>
    unfold Logs.logLines
    rw [splitOn_last h]
    simp [Option.filter, hne]

theorem Begins.splitLogLines (h : Begins raw line rest)
    (hne : raw ≠ []) : splitLogLines raw = line.bytes :: splitLogLines rest := by
  cases h with
  | @ended front rest h =>
    unfold Logs.splitLogLines
    rw [splitOn_ended h, if_neg hne]
    by_cases hrest : rest = []
    · subst hrest
      rfl
    · obtain ⟨part, parts, hparts⟩ := exists_cons_of_ne_nil (splitOn_ne_nil rest)
      rw [if_neg hrest, hparts]
      simp only [getLast?_cons_cons, dropLast_cons_cons]
      split <;> rfl
  | last h =>
    unfold Logs.splitLogLines
    rw [splitOn_last h, if_neg hne]
    simp [hne]

theorem Begins.rest_length (h : Begins raw line rest)
    (hne : raw ≠ []) : rest.length < raw.length := by
  cases h with
  | ended h =>
    rw [length_append, length_cons]
    omega
  | last h => exact length_pos_iff.mpr hne

theorem Begins.rest_of_unended (h : Begins raw line rest)
    (hended : line.ended = false) : rest = [] := by
  cases h with
  | ended h => cases hended
  | last h => rfl

theorem Begins.text_of_unended (h : Begins raw line rest)
    (hended : line.ended = false) : line.text = raw := by
  cases h with
  | ended h => cases hended
  | last h => rfl

theorem Begins.bytes_length (h : Begins raw line rest) : line.bytes.length ≤ raw.length := by
  cases h with
  | ended h => simp
  | last h => exact le_rfl

theorem splitLogLines_eq (raw : List UInt8) : splitLogLines raw = (logLines raw).map (·.bytes) := by
  -- Line after line: the bytes after the first LF are fewer.
  induction hlength : raw.length using Nat.strong_induction_on generalizing raw with
  | _ length ih =>
    by_cases hne : raw = []
    · subst hne
      rfl
    · obtain ⟨line, rest, h⟩ := exists_begins raw
      have hshort := h.rest_length hne
      rw [h.splitLogLines hne, h.logLines hne, map_cons, ih _ (by omega) rest rfl]

/-! ## Bounded lines -/

structure BoundedLine (ε : Type) where
  bytes : List UInt8
  truncated : Bool
  err : Option ε
  next : Reader ε

variable {ε : Type} {size maximum : Nat}

/-- The loop of `readBoundedLine`, with a bound on its iterations. -/
def readBoundedLoop (size maximum : Nat) :
    Nat → Reader ε → List UInt8 → Bool → Option (BoundedLine ε)
  | 0, _, _, _ => none
  | fuel + 1, reader, result, truncated => do
    let read ← ReadLine size reader
    let remaining := maximum - result.length
    let result := result ++ read.fragment.take remaining
    let truncated := truncated || decide (read.fragment.length > remaining)
    if read.err.isSome || !read.isPrefix then
      return ⟨result, truncated, read.err, read.next⟩
    else
      readBoundedLoop size maximum fuel read.next result
        (truncated || decide (result.length ≥ maximum))

/-- Every fragment but the last has a byte, if the buffer has two. -/
def readBoundedLine (size maximum : Nat) (reader : Reader ε) : Option (BoundedLine ε) :=
  readBoundedLoop size maximum (reader.content.length + 1) reader [] false

def overrunsLoop (size maximum : Nat) : Nat → Nat → List UInt8 → Bool
  | 0, _, _ => false
  | fuel + 1, seen, bytes =>
    let fragment := dropCR (bytes.take size)
    decide (size ≤ bytes.length) && (decide (maximum ≤ seen + fragment.length) ||
      overrunsLoop size maximum fuel (seen + fragment.length) (bytes.drop fragment.length))

def LogLine.overruns (size maximum : Nat) (line : LogLine) : Bool :=
  overrunsLoop size maximum (line.bytes.length + 1) 0 line.bytes

variable (bytes : List UInt8)

theorem dropCR_length_le : (dropCR bytes).length ≤ bytes.length := by
  unfold dropCR
  split
  · simp
  · exact le_rfl

theorem length_le_dropCR : bytes.length ≤ (dropCR bytes).length + 1 := by
  unfold dropCR
  split
  · rw [length_dropLast]
    omega
  · exact le_succ _

theorem dropCR_begins : dropCR bytes <+: bytes := by
  unfold dropCR
  split
  · exact dropLast_prefix bytes
  · exact prefix_rfl

/-- The CR that ends a line is never part of a fragment that another one follows. -/
theorem dropCR_fragment (size : Nat) (bytes : List UInt8) :
    dropCR bytes = dropCR (bytes.take size) ++
      dropCR (bytes.drop (dropCR (bytes.take size)).length) := by
  obtain ⟨later, hlater⟩ := (dropCR_begins (bytes.take size)).trans (List.take_prefix size bytes)
  have hdrop : bytes.drop (dropCR (bytes.take size)).length = later := by
    nth_rewrite 2 [← hlater]
    exact drop_left
  rw [hdrop]
  by_cases hempty : later = []
  · have hwhole : dropCR (bytes.take size) = bytes := by
      rwa [hempty, append_nil] at hlater
    have hle := dropCR_length_le (bytes.take size)
    rw [hwhole, length_take] at hle
    rw [hempty, take_of_length_le (by omega)]
    exact (append_nil _).symm
  · nth_rewrite 1 [← hlater]
    unfold dropCR
    rw [getLast?_append_of_ne_nil _ hempty, dropLast_append_of_ne_nil hempty]
    split <;> rfl

variable {line : LogLine} {rest raw : List UInt8}

theorem Begins.line_unique {front next : List UInt8}
    (h : Begins raw line rest) (hfront : LF ∉ front) (hraw : raw = front ++ LF :: next) :
    line = ⟨front, true⟩ ∧ rest = next := by
  cases h with
  | @ended first rest h =>
    have hparts := congrArg (splitOn LF) hraw
    rw [splitOn_ended h, splitOn_ended hfront] at hparts
    obtain rfl := (cons.inj hparts).1
    exact ⟨rfl, (cons.inj (append_cancel_left hraw)).2⟩
  | last h => exact absurd (hraw ▸ mem_append_right front mem_cons_self) h

theorem Begins.last_unique (h : Begins raw line rest)
    (hraw : LF ∉ raw) : line = ⟨raw, false⟩ ∧ rest = [] := by
  cases h with
  | ended h => exact absurd (mem_append_right _ mem_cons_self) hraw
  | last h => exact ⟨rfl, rfl⟩

variable {bytes : List UInt8}

theorem Begins.begins (h : Begins raw line rest)
    (hbytes : LF ∉ bytes) (hraw : bytes <+: raw) : bytes <+: line.bytes := by
  cases h with
  | @ended front rest h =>
    by_cases hlength : bytes.length ≤ front.length
    · exact prefix_of_prefix_length_le hraw (prefix_append front _) hlength
    · -- Longer bytes contain the LF.
      have hend : front ++ [LF] <+: front ++ LF :: rest := ⟨rest, by simp⟩
      have hsub := prefix_of_prefix_length_le hend hraw (by simp; omega)
      exact absurd (hsub.subset (by simp)) hbytes
  | last h => exact hraw

theorem Begins.drop {fragment next : List UInt8}
    (h : Begins raw line rest) (hfragment : fragment <+: line.bytes)
    (hraw : raw = fragment ++ next) :
    Begins next { line with bytes := line.bytes.drop fragment.length } rest := by
  obtain ⟨later, hlater⟩ := hfragment
  cases h with
  | @ended front rest h =>
    have hfront : fragment ++ later = front := hlater
    subst hfront
    rw [append_assoc] at hraw
    rw [← append_cancel_left hraw, drop_left]
    exact .ended fun hmem => h (mem_append_right _ hmem)
  | last h =>
    have hlast : fragment ++ later = raw := hlater
    subst hlast
    rw [← append_cancel_left hraw, drop_left]
    exact .last fun hmem => h (mem_append_right _ hmem)

def LogLine.after (size : Nat) (line : LogLine) : LogLine :=
  { line with bytes := line.bytes.drop (dropCR (line.bytes.take size)).length }

theorem LogLine.text_after (size : Nat) (line : LogLine) :
    line.text = dropCR (line.bytes.take size) ++ (line.after size).text := by
  have hbegins := (dropCR_begins (line.bytes.take size)).trans (List.take_prefix size line.bytes)
  unfold LogLine.after LogLine.text
  split
  · exact dropCR_fragment size line.bytes
  · exact (prefix_iff_eq_append.mp hbegins).symm

theorem LogLine.after_length (hsize : 2 ≤ size) (h : size ≤ line.bytes.length) :
    (line.after size).bytes.length < line.bytes.length := by
  have hle := length_le_dropCR (line.bytes.take size)
  rw [length_take] at hle
  show (line.bytes.drop _).length < _
  rw [length_drop]
  omega

theorem Begins.fragment {next : List UInt8}
    (h : Begins raw line rest) (hbytes : LF ∉ bytes) (hbegins : bytes <+: raw)
    (hraw : raw = dropCR bytes ++ next) (hsize : bytes.length = size) :
    bytes = line.bytes.take size ∧ size ≤ line.bytes.length ∧
      Begins next (line.after size) rest := by
  have hstart := h.begins hbytes hbegins
  have htake : bytes = line.bytes.take size := hsize ▸ prefix_iff_eq_take.mp hstart
  refine ⟨htake, hsize ▸ hstart.length_le, ?_⟩
  rw [LogLine.after, ← htake]
  exact h.drop ((dropCR_begins bytes).trans hstart) hraw

structure ReadsLine (size : Nat) (reader : Reader ε) (line : LogLine) (rest text : List UInt8)
    (overrun : Bool) (result : BoundedLine ε) : Prop where
  bytes : result.bytes = text
  content : result.next.content = rest
  continues : reader.Continues size result.next
  of_truncated : result.truncated = true → overrun = true
  -- Whether an unended line that fills the buffer is a fragment depends on the source.
  truncated : overrun = true → line.ended = true ∨ reader.source.errWithLast = false →
    result.truncated = true
  err : ∀ err, result.err = some err → line.ended = false ∧ err = reader.source.err
  last : line = ⟨[], false⟩ → result.err = some reader.source.err

/-- As much of a fragment is appended as there is room for; `done` is what was read of the line. -/
theorem readBoundedLoop_succ {fuel : Nat} {reader : Reader ε} {done : List UInt8}
    {read : LineRead ε} {truncated : Bool} (hread : ReadLine size reader = some read)
    (hcut : maximum < done.length → truncated = true) :
    readBoundedLoop size maximum (fuel + 1) reader (done.take maximum) truncated =
      if read.err.isSome || !read.isPrefix then
        some ⟨(done ++ read.fragment).take maximum,
          truncated || decide (maximum < (done ++ read.fragment).length), read.err, read.next⟩
      else
        readBoundedLoop size maximum fuel read.next ((done ++ read.fragment).take maximum)
          (truncated || decide (maximum ≤ (done ++ read.fragment).length)) := by
  have htake : done.take maximum ++ read.fragment.take (maximum - (done.take maximum).length) =
      (done ++ read.fragment).take maximum := by
    rw [take_append, length_take]
    congr 2
    omega
  rw [readBoundedLoop, hread, bind_eq_bind, bind_some]
  dsimp only
  rw [htake]
  cases truncated with
  | true => rfl
  | false =>
    have hroom : done.length ≤ maximum := not_lt.mp fun hlong => Bool.false_ne_true (hcut hlong)
    have hlength : (done ++ read.fragment).length = done.length + read.fragment.length :=
      length_append
    rw [length_take, Bool.false_or, Bool.false_or, Bool.false_or, ← Bool.decide_or, length_take,
      min_eq_right hroom, hlength]
    have hover : read.fragment.length > maximum - done.length ↔
        maximum < done.length + read.fragment.length := by omega
    have hfull : maximum < done.length + read.fragment.length ∨
        min maximum (done.length + read.fragment.length) ≥ maximum ↔
          maximum ≤ done.length + read.fragment.length := by omega
    simp only [hover, hfull]
    rfl

theorem overrunsLoop_short {count seen : Nat} (h : bytes.length < size) :
    overrunsLoop size maximum count seen bytes = false := by
  cases count with
  | zero => rfl
  | succ count => rw [overrunsLoop, decide_eq_false (by omega), Bool.false_and]

theorem overrunsLoop_full {count seen : Nat} (h : size ≤ bytes.length) :
    overrunsLoop size maximum (count + 1) seen bytes =
      (decide (maximum ≤ seen + (dropCR (bytes.take size)).length) ||
        overrunsLoop size maximum count (seen + (dropCR (bytes.take size)).length)
          (bytes.drop (dropCR (bytes.take size)).length)) := by
  rw [overrunsLoop, decide_eq_true h, Bool.true_and]

theorem readBoundedLoop_spec (hsize : 2 ≤ size) (fuel : Nat) :
    ∀ (count : Nat) (reader : Reader ε) (done : List UInt8) (truncated : Bool) (line : LogLine)
      (rest : List UInt8), reader.Valid size → Begins reader.content line rest →
      (maximum < done.length → truncated = true) → line.bytes.length < fuel →
      line.bytes.length < count →
      ∃ result, readBoundedLoop size maximum fuel reader (done.take maximum) truncated =
          some result ∧
        (truncated = true ∨ maximum < (done ++ line.text).length → result.truncated = true) ∧
        (line.ended = false → reader.source.errWithLast = true → result.truncated = true →
          truncated = true ∨ maximum < (done ++ line.text).length) ∧
        ReadsLine size reader line rest ((done ++ line.text).take maximum)
          (truncated || overrunsLoop size maximum count done.length line.bytes ||
            decide (maximum < (done ++ line.text).length)) result := by
  induction fuel with
  | zero => exact fun _ _ _ _ _ _ _ _ _ h => absurd h (not_lt_zero _)
  | succ fuel ih =>
    intro count reader done truncated line rest hvalid hbegins hcut hfuel hcount
    obtain ⟨count, rfl⟩ : ∃ left, count = left + 1 := ⟨count - 1, by omega⟩
    obtain ⟨read, hread, hlined⟩ := ReadLine_spec (by omega) hvalid
    rw [readBoundedLoop_succ hread hcut]
    cases hlined with
    | @line front next hfront hcontent hshort hnext =>
      obtain ⟨rfl, rfl⟩ := hbegins.line_unique hfront hcontent
      rw [overrunsLoop_short hshort, Bool.or_false]
      exact ⟨_, rfl, by simp [LogLine.text], by simp, rfl, rfl, hnext, id, fun h _ => h, by simp,
        by simp⟩
    | @last bytes next hbytes hcontent hlength hexact hrest hnext =>
      obtain ⟨rfl, rfl⟩ := hbegins.last_unique (hcontent ▸ hbytes)
      subst hcontent
      refine ⟨_, if_pos (by simp), by simp [LogLine.text], by simp [LogLine.text], rfl,
        hrest, hnext,
        ?_, ?_, ?_, ?_⟩
      · intro hflag
        rw [Bool.or_right_comm]
        exact Bool.or_eq_true_iff.mpr (.inl hflag)
      · -- A line that fills the buffer is whole only if the error came with its last bytes.
        intro hover hsource
        have hlast := hsource.resolve_left Bool.false_ne_true
        have hshort : reader.content.length < size :=
          lt_of_le_of_ne hlength fun h => absurd (hexact h) (by simp [hlast])
        rwa [overrunsLoop_short hshort, Bool.or_false] at hover
      · intro err herr
        refine ⟨rfl, ?_⟩
        split at herr
        · exact (some.inj herr).symm
        · cases herr
      · intro hempty
        have hnil : reader.content = [] := congrArg LogLine.bytes hempty
        rw [hnil]
        rfl
    | @fragment bytes next hbytes hcontent hlength hstart hmore hnext =>
      obtain ⟨rfl, hfull, hafter⟩ := hbegins.fragment hbytes hstart hcontent hlength
      have hless := line.after_length hsize hfull
      rw [line.text_after size, ← append_assoc, if_neg (by simp), overrunsLoop_full hfull,
        ← length_append, ← Bool.or_assoc]
      obtain ⟨result, hloop, hmarked, hwhole, h⟩ :=
        ih count next (done ++ dropCR (line.bytes.take size))
        (truncated || decide (maximum ≤ (done ++ dropCR (line.bytes.take size)).length))
        (line.after size) rest hnext.valid hafter
        (fun hlong => by rw [decide_eq_true hlong.le, Bool.or_true]) (by omega) (by omega)
      refine ⟨result, hloop, fun hlong => hmarked (hlong.imp_left fun h => by simp [h]), ?_,
        h.bytes, h.content, hnext.trans h.continues, h.of_truncated, ?_, ?_, ?_⟩
      · -- More of the line follows, if the error comes with its last byte.
        intro hended hlast htruncated
        have htext := hafter.text_of_unended hended
        have hrest := length_pos_iff.mpr (hmore hlast)
        rw [← htext] at hrest
        rcases hwhole hended (hnext.errWithLast ▸ hlast) htruncated with hfull | hlong
        · rw [Bool.or_eq_true, decide_eq_true_iff] at hfull
          refine hfull.imp_right fun hfull => ?_
          rw [length_append]
          omega
        · exact .inr hlong
      · exact fun hover hsource => h.truncated hover (hnext.errWithLast ▸ hsource)
      · exact fun err herr => hnext.err ▸ h.err err herr
      · intro hline
        rw [hline] at hfull
        exact absurd hfull (by simp; omega)

def fragmentsLoop (size : Nat) : Nat → LogLine → List (List UInt8)
  | 0, _ => []
  | fuel + 1, line =>
    if size ≤ line.bytes.length then
      dropCR (line.bytes.take size) :: fragmentsLoop size fuel (line.after size)
    else
      [line.text]

/-- How `bufio.Reader.ReadLine` cuts a line, with a buffer of `size` bytes. -/
def LogLine.fragments (size : Nat) (line : LogLine) : List (List UInt8) :=
  fragmentsLoop size (line.bytes.length + 1) line

theorem fragmentsLoop_of_text_nil {count : Nat} (hsize : 2 ≤ size) (h : line.text = []) :
    fragmentsLoop size (count + 1) line = [[]] := by
  have hshort : line.bytes.length ≤ 1 := by
    have hle := length_le_dropCR line.bytes
    unfold LogLine.text at h
    split at h
    · rw [h] at hle
      exact hle
    · simp [h]
  rw [fragmentsLoop, if_neg (by omega), h]

/-- A line that just reaches the limit is marked if the last of its fragments is empty. -/
theorem overrunsLoop_iff (hsize : 2 ≤ size) {count : Nat} : ∀ {seen : Nat} {line : LogLine},
    line.bytes.length < count → line.text ≠ [] → seen + line.text.length = maximum →
      (overrunsLoop size maximum count seen line.bytes = true ↔
        (fragmentsLoop size count line).getLast? = some []) := by
  induction count with
  | zero => exact fun h => absurd h (not_lt_zero _)
  | succ count ih =>
    intro seen line hcount htext hlength
    by_cases hfull : size ≤ line.bytes.length
    · have hafter := line.after_length hsize hfull
      obtain ⟨left, rfl⟩ : ∃ left, count = left + 1 := ⟨count - 1, by omega⟩
      rw [line.text_after size, length_append] at hlength
      rw [overrunsLoop_full hfull, or_eq_true, decide_eq_true_iff, fragmentsLoop, if_pos hfull]
      by_cases hrest : (line.after size).text = []
      · rw [hrest] at hlength
        simp only [length_nil] at hlength
        rw [fragmentsLoop_of_text_nil hsize hrest]
        simp only [getLast?_cons_cons, getLast?_singleton, iff_true]
        omega
      · have hpos := length_pos_iff.mpr hrest
        have hmore : fragmentsLoop size (left + 1) (line.after size) ≠ [] := by
          rw [fragmentsLoop]
          split <;> simp
        rw [getLast?_cons_of_ne_nil hmore, ← ih (by omega) hrest
          (by rwa [add_assoc] : seen + (dropCR (line.bytes.take size)).length + _ = maximum)]
        exact ⟨fun h => h.resolve_left (by omega), .inr⟩
    · rw [overrunsLoop_short (not_le.mp hfull), fragmentsLoop, if_neg hfull]
      simp [htext]

theorem overrunsLoop_length {count : Nat} : ∀ {seen : Nat} {line : LogLine},
    overrunsLoop size maximum count seen line.bytes = true →
      maximum ≤ seen + line.text.length := by
  induction count with
  | zero => exact fun h => absurd h false_ne_true
  | succ count ih =>
    intro seen line h
    by_cases hfull : size ≤ line.bytes.length
    · rw [overrunsLoop_full hfull, or_eq_true, decide_eq_true_iff] at h
      rw [line.text_after size, length_append]
      rcases h with hlimit | hlater
      · omega
      · have hle := @ih _ (line.after size) hlater
        omega
    · rw [overrunsLoop_short (not_le.mp hfull)] at h
      exact absurd h false_ne_true

theorem LogLine.overruns_length (h : line.overruns size maximum = true) :
    maximum ≤ line.text.length :=
  (overrunsLoop_length h).trans_eq (zero_add _)

theorem readBoundedLine_cut (hsize : 2 ≤ size) {reader : Reader ε} (hvalid : reader.Valid size)
    (hbegins : Begins reader.content line rest) (maximum : Nat) :
    ∃ result, readBoundedLine size maximum reader = some result ∧
      (maximum < line.text.length → result.truncated = true) ∧
      (line.ended = false → reader.source.errWithLast = true → result.truncated = true →
        maximum < line.text.length) ∧
      ReadsLine size reader line rest (line.text.take maximum)
        (line.overruns size maximum || decide (maximum < line.text.length)) result := by
  have hlength := hbegins.bytes_length
  obtain ⟨result, hloop, hmarked, hwhole, h⟩ :=
    readBoundedLoop_spec hsize (reader.content.length + 1) (line.bytes.length + 1) reader [] false
      line rest hvalid hbegins (absurd · (not_lt_zero maximum))
    (by omega) (lt_succ_self _)
  rw [take_nil] at hloop
  exact ⟨result, hloop, fun hlong => hmarked (.inr hlong), fun hended hlast htruncated =>
    (hwhole hended hlast htruncated).resolve_left Bool.false_ne_true, h⟩

theorem readBoundedLine_spec (hsize : 2 ≤ size) {reader : Reader ε}
    (hvalid : reader.Valid size) (hbegins : Begins reader.content line rest)
    (hlimit : line.text.length ≤ maximum) :
    ∃ result, readBoundedLine size maximum reader = some result ∧
      ReadsLine size reader line rest line.text (line.overruns size maximum) result := by
  obtain ⟨result, hread, _, _, h⟩ := readBoundedLine_cut hsize hvalid hbegins maximum
  rw [take_of_length_le hlimit, decide_eq_false (not_lt.mpr hlimit), Bool.or_false] at h
  exact ⟨result, hread, h⟩

/-- Successive calls of `readBoundedLine`, up to an error, which may come with a line. -/
def readBoundedLines (size maximum : Nat) : Nat → Reader ε → Option (List (List UInt8 × Bool))
  | 0, _ => some []
  | calls + 1, reader => do
    let read ← readBoundedLine size maximum reader
    let line := (read.bytes, read.truncated)
    match read.err with
    | none => return line :: (← readBoundedLines size maximum calls read.next)
    | some _ => return if read.bytes.isEmpty then [] else [line]

def LogLine.cut (maximum : Nat) (line : LogLine) : List UInt8 × Bool :=
  (line.text.take maximum, decide (maximum < line.text.length))

/-- Whether a line of just the limit is read with an empty last fragment.  Of a line without an end
there is none, if the error comes with its last byte. -/
def LogLine.EndsEmpty (size maximum : Nat) (errWithLast : Bool) (line : LogLine) : Prop :=
  line.text.length = maximum ∧ (line.ended = true ∨ errWithLast = false) ∧
    (line.fragments size).getLast? = some []

theorem readBoundedLine_truncated (hsize : 2 ≤ size) (hmaximum : 1 ≤ maximum) {reader : Reader ε}
    (hvalid : reader.Valid size) (hbegins : Begins reader.content line rest) :
    ∃ result, readBoundedLine size maximum reader = some result ∧
      (result.truncated = decide (maximum < line.text.length) ↔
        ¬ line.EndsEmpty size maximum reader.source.errWithLast) ∧
      ∃ overrun, ReadsLine size reader line rest (line.text.take maximum) overrun result := by
  obtain ⟨result, hread, hmarked, hwhole, h⟩ := readBoundedLine_cut hsize hvalid hbegins maximum
  refine ⟨result, hread, ?_, _, h⟩
  by_cases hlong : maximum < line.text.length
  · exact iff_of_true (by rw [hmarked hlong, decide_eq_true hlong]) fun hends => by
      have := hends.1
      omega
  rw [decide_eq_false hlong, ← not_eq_true]
  refine not_congr ⟨?_, ?_⟩
  · intro htruncated
    have hover := h.of_truncated htruncated
    rw [decide_eq_false hlong, Bool.or_false] at hover
    have hlength := LogLine.overruns_length hover
    have htext : line.text ≠ [] := ne_nil_of_length_pos (by omega)
    refine ⟨by omega, ?_, (overrunsLoop_iff hsize (lt_succ_self _) htext (by omega)).mp hover⟩
    by_contra hneither
    push Not at hneither
    exact hlong (hwhole (by simpa using hneither.1) (by simpa using hneither.2) htruncated)
  · intro ⟨hlength, hsource, hfragments⟩
    have htext : line.text ≠ [] := ne_nil_of_length_pos (by omega)
    have hover := (overrunsLoop_iff hsize (lt_succ_self _) htext
      (by rw [zero_add, hlength])).mpr hfragments
    exact h.truncated (by rw [LogLine.overruns, hover, Bool.true_or]) hsource

theorem logLines_nil : logLines [] = [] := rfl

theorem readBoundedLines_eq_iff (hsize : 2 ≤ size) (hmaximum : 1 ≤ maximum) (calls : Nat) :
    ∀ reader : Reader ε, reader.Valid size →
      (readBoundedLines size maximum calls reader =
          some (((logLines reader.content).take calls).map (LogLine.cut maximum)) ↔
        ∀ line ∈ (logLines reader.content).take calls,
          ¬ line.EndsEmpty size maximum reader.source.errWithLast) := by
  induction calls with
  | zero => simp [readBoundedLines]
  | succ calls ih =>
    intro reader hvalid
    obtain ⟨line, rest, hbegins⟩ := exists_begins reader.content
    obtain ⟨read, hread, htruncated, _, h⟩ :=
      readBoundedLine_truncated hsize hmaximum hvalid hbegins
    rw [readBoundedLines, hread, bind_eq_bind, bind_some]
    dsimp only
    by_cases hempty : reader.content = []
    · obtain ⟨rfl, rfl⟩ := hbegins.last_unique (by simp [hempty])
      rw [h.last (by rw [hempty]), h.bytes, hempty]
      simp [LogLine.text, logLines_nil]
    · rw [hbegins.logLines hempty, take_succ_cons, map_cons, forall_mem_cons, ← htruncated,
        LogLine.cut, h.bytes]
      cases herr : read.err with
      | none =>
        have hlater := ih read.next h.continues.valid
        rw [h.content, h.continues.errWithLast] at hlater
        dsimp only
        rw [← hlater]
        cases readBoundedLines size maximum calls read.next <;> simp
      | some err =>
        obtain ⟨hended, -⟩ := h.err err herr
        obtain rfl := hbegins.rest_of_unended hended
        have hbytes : (line.text.take maximum).isEmpty = false := by
          rw [hbegins.text_of_unended hended, isEmpty_eq_false_iff, ne_eq, take_eq_nil_iff]
          exact not_or.mpr ⟨by omega, hempty⟩
        dsimp only
        rw [hbytes]
        simp [logLines_nil]

/-- Successive calls return the lines cut at the limit and mark the longer ones, exactly if no line
of just that length is read with an empty last fragment. -/
theorem readBoundedLines_exact_iff (size maximum calls : Nat) (hmaximum : 1 ≤ maximum)
    (source : Source ε) :
    readBoundedLines (max size 16) maximum calls (NewReader source) =
        some (((logLines source.content).take calls).map (LogLine.cut maximum)) ↔
      ∀ line ∈ (logLines source.content).take calls,
        ¬ line.EndsEmpty (max size 16) maximum source.errWithLast :=
  readBoundedLines_eq_iff (le_max_of_le_right (by decide)) hmaximum calls _ NewReader_valid

instance (size maximum : Nat) (errWithLast : Bool) (line : LogLine) :
    Decidable (line.EndsEmpty size maximum errWithLast) := by
  unfold LogLine.EndsEmpty
  infer_instance

/-- A line of the limit in two fragments, a longer one in three, and the rest of one, in chunks that
end within the lines. -/
def threeLines : Source Unit :=
  ⟨[⟨replicate 18 97, by decide⟩, ⟨97 :: 97 :: LF :: replicate 30 98, by decide⟩,
    ⟨98 :: 98 :: 98 :: LF :: [99], by decide⟩], (), true⟩

theorem readBoundedLines_exact_three :
    readBoundedLines (max 16 16) 20 4 (NewReader threeLines) =
      some [(replicate 20 97, false), (replicate 20 98, true), ([99], false)] :=
  (readBoundedLines_exact_iff 16 20 4 (by decide) threeLines).mpr (by decide +kernel)

def sixteen : Source Unit := ⟨[⟨replicate 16 97 ++ [LF], by decide⟩], (), false⟩

theorem readBoundedLines_marks_whole :
    (logLines sixteen.content).map (LogLine.cut 16) = [(replicate 16 97, false)] ∧
      readBoundedLines 16 16 1 (NewReader sixteen) = some [(replicate 16 97, true)] := by
  decide +kernel

end Kubepeep.Logs
