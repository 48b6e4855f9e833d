import Kubepeep.Dashboard.Blocks
import Kubepeep.Logs.Lines

/-!
# The lines of one scanned log

`readBoundedLogLines` (`internal/services/dashboard/logs.go`) reads a stream line by line, up to a
number of lines and of bytes.  When it reports neither an error nor a truncation, it has returned
every line of the stream, uncut.

The stream is the budget reader of the target.  Whatever the other readers of the scan do, it
delivers some first part of the log in chunks and then an end: the end of the log, the exhausted
budget, or another failure.
-/

open List Bool Option Kubepeep.Go.Bufio Kubepeep.Logs

namespace Kubepeep.Dashboard

inductive ReadError where
  | budgetExhausted
  | failed (err : Failure)
  deriving DecidableEq

inductive ReadEnd where
  | eof
  | error (err : ReadError)
  deriving DecidableEq

structure ScannedLine where
  value : List UInt8
  truncated : Bool
  deriving DecidableEq, Repr

def appendAtMost (destination source : List UInt8) (maximum : Nat) : List UInt8 :=
  destination ++ source.take (maximum - destination.length)

structure LineResult where
  line : List UInt8
  truncated : Bool
  eof : Bool
  err : Option ReadError
  next : Reader ReadEnd

/-- The loop of `readBoundedLine`, with a bound on its iterations. -/
def scanLineLoop (size maximum : Nat) :
    Nat → Reader ReadEnd → List UInt8 → Bool → Option LineResult
  | 0, _, _, _ => none
  | fuel + 1, reader, line, truncated => do
    let (fragment, stop, next) ← ReadSlice size reader
    if fragment.getLast? = some LF then
      let fragment := dropCR fragment.dropLast
      return ⟨appendAtMost line fragment maximum,
        truncated || decide (line.length + fragment.length > maximum), false, none, next⟩
    else
      let cut := truncated || decide (line.length + fragment.length > maximum)
      let line := appendAtMost line fragment maximum
      match stop with
      | .bufferFull => scanLineLoop size maximum fuel next line true
      | .failed (.error .budgetExhausted) =>
        return ⟨line, true, true, some .budgetExhausted, next⟩
      | .failed .eof => return ⟨line, cut, true, none, next⟩
      | .failed (.error err) => return ⟨line, cut, false, some err, next⟩
      | .delim => return ⟨line, cut, false, none, next⟩

def scanLine (size maximum : Nat) (reader : Reader ReadEnd) : Option LineResult :=
  scanLineLoop size maximum (reader.content.length + 1) reader [] false

structure LinesResult where
  lines : List ScannedLine
  truncated : Bool
  err : Option Failure
  deriving DecidableEq

structure ReadEnv where
  ctxErr : Nat → Option Failure
  again : ReadEnd

section

variable (env : ReadEnv) (size maximum maximumLines : Nat)

/-- `limited.N == 0` for a limit that cuts the stream or not. -/
def limitReached (cuts : Bool) (reader : Reader ReadEnd) : Bool :=
  cuts && reader.source.chunks.isEmpty

/-- What follows the loop: the look behind the last line, and the byte limit. -/
def finishLines (cuts reported : Bool) (reader : Reader ReadEnd) (lines : List ScannedLine)
    (truncated : Bool) : LinesResult :=
  let limited := limitReached cuts reader
  if lines.length = maximumLines then
    match reader.peek env.again reported with
    | none => ⟨lines, true, none⟩
    | some (.error .budgetExhausted) => ⟨lines, true, none⟩
    | some .eof => ⟨lines, truncated || limited, none⟩
    | some (.error (.failed err)) => ⟨lines, truncated, some err⟩
  else
    ⟨lines, truncated || limited, none⟩

/-- The loop of `readBoundedLogLines`, with a bound on its iterations. -/
def logLinesLoop (cuts : Bool) :
    Nat → Reader ReadEnd → List ScannedLine → Bool → Option LinesResult
  | 0, _, _, _ => none
  | fuel + 1, reader, lines, truncated =>
    if lines.length < maximumLines then
      match env.ctxErr lines.length with
      | some err => some ⟨lines, truncated, some err⟩
      | none => do
        let read ← scanLine size maximum reader
        let lines :=
          if read.line ≠ [] ∨ read.eof = false then lines ++ [⟨read.line, read.truncated⟩]
          else lines
        let truncated := truncated || read.truncated
        match read.err with
        | some .budgetExhausted => return ⟨lines, true, none⟩
        | some (.failed err) => return ⟨lines, truncated, some err⟩
        | none =>
          if read.eof || limitReached cuts read.next then
            return finishLines env maximumLines cuts read.eof read.next lines truncated
          else
            logLinesLoop cuts fuel read.next lines truncated
    else
      some (finishLines env maximumLines cuts false reader lines truncated)

end

/-- `readBoundedLogLines`; `bufio.NewReaderSize` makes every buffer at least 16 bytes long. -/
def readBoundedLogLines (env : ReadEnv) (source : Source ReadEnd)
    (maxLineBytes maxContainerBytes maximumLines : Nat) : Option LinesResult :=
  logLinesLoop env (max (maxLineBytes + 1) 16) maxLineBytes maximumLines
    (decide (maxContainerBytes ≤ source.content.length)) (source.content.length + 2)
    (NewReader (source.limit maxContainerBytes .eof)) [] false

/-! ## Uncut lines -/

variable {size maximum fuel : Nat}

theorem scanLineLoop_truncated : ∀ {reader : Reader ReadEnd}
    {line : List UInt8} {result : LineResult},
    scanLineLoop size maximum fuel reader line true = some result → result.truncated = true := by
  induction fuel with
  | zero => exact fun h => absurd h (by simp [scanLineLoop])
  | succ fuel ih =>
    intro reader line result h
    obtain ⟨⟨fragment, stop, next⟩, _, h⟩ := bind_eq_some_iff.mp h
    dsimp only at h
    split at h
    · exact (congrArg LineResult.truncated (some.inj h)).symm
    · split at h
      · exact ih h
      all_goals exact (congrArg LineResult.truncated (some.inj h)).symm

theorem scanLineLoop_continues : ∀ {reader : Reader ReadEnd}
    {line : List UInt8} {truncated : Bool} {result : LineResult}, reader.Valid size →
    scanLineLoop size maximum fuel reader line truncated = some result →
    reader.Continues size result.next := by
  induction fuel with
  | zero => exact fun _ h => absurd h (by simp [scanLineLoop])
  | succ fuel ih =>
    intro reader line truncated result hvalid h
    obtain ⟨fragment, stop, next, hslice, hsliced⟩ := ReadSlice_spec hvalid
    have hnext := hsliced.continues
    rw [scanLineLoop, hslice, bind_eq_bind, bind_some] at h
    dsimp only at h
    split at h
    · rwa [← some.inj h]
    · split at h
      · exact hnext.trans (ih hnext.valid h)
      all_goals rwa [← some.inj h]

theorem scanLine_whole {size maximum : Nat} {reader : Reader ReadEnd} {result : LineResult}
    (hvalid : reader.Valid size) (h : scanLine size maximum reader = some result)
    (hwhole : result.truncated = false) (herr : result.err = none) :
    (result.eof = false ∧ ∃ front, LF ∉ front ∧
        reader.content = front ++ LF :: result.next.content ∧ result.line = dropCR front) ∨
      (result.eof = true ∧ LF ∉ reader.content ∧ result.line = reader.content ∧
        result.next.content = [] ∧ reader.source.err = .eof) := by
  obtain ⟨fragment, stop, next, hslice, hsliced⟩ := ReadSlice_spec hvalid
  rw [scanLine, scanLineLoop, hslice, bind_eq_bind, bind_some] at h
  dsimp only at h
  cases hsliced with
  | @delim front next hline hcontent hsize hnext =>
    rw [if_pos (by simp), dropLast_concat] at h
    have hresult := some.inj h
    rw [← hresult] at hwhole ⊢
    have hfits : ¬(dropCR front).length > maximum := by simpa using hwhole
    refine .inl ⟨rfl, front, hline, hcontent, ?_⟩
    show [] ++ (dropCR front).take (maximum - 0) = dropCR front
    rw [nil_append, take_of_length_le (by omega)]
  | failed hline hcontent hsize hexact hrest hnext =>
    have hlast : fragment.getLast? ≠ some LF := fun hlast =>
      hline (mem_of_getLast? hlast)
    rw [if_neg hlast] at h
    cases hend : reader.source.err with
    | eof =>
      rw [hend] at h
      have hresult := some.inj h
      rw [← hresult] at hwhole ⊢
      have hfits : ¬fragment.length > maximum := by simpa using hwhole
      refine .inr ⟨rfl, hcontent ▸ hline, ?_, hrest, rfl⟩
      show [] ++ fragment.take (maximum - 0) = reader.content
      rw [hcontent, nil_append, take_of_length_le (by omega)]
    | error err =>
      rw [hend] at h
      cases err with
      | budgetExhausted =>
        rw [← some.inj h] at herr
        cases herr
      | failed err =>
        rw [← some.inj h] at herr
        cases herr
  | bufferFull hline hcontent hsize hempty hnext =>
    have hlast : fragment.getLast? ≠ some LF := fun hlast =>
      hline (mem_of_getLast? hlast)
    rw [if_neg hlast] at h
    exact absurd (scanLineLoop_truncated h) (by simp [hwhole])

def wholeLine (line : LogLine) : ScannedLine :=
  ⟨line.text, false⟩

section

variable {env : ReadEnv} {size maximum maximumLines : Nat} {cuts reported truncated : Bool}
  {reader : Reader ReadEnd} {lines : List ScannedLine}

theorem finishLines_whole
    (htruncated : (finishLines env maximumLines cuts reported reader lines truncated).truncated =
      false)
    (herr : (finishLines env maximumLines cuts reported reader lines truncated).err = none) :
    truncated = false ∧ limitReached cuts reader = false ∧
      (lines.length = maximumLines → reader.peek env.again reported = some .eof) := by
  unfold finishLines at htruncated herr
  split at htruncated
  · next hlength =>
    rw [if_pos hlength] at herr
    split at htruncated
    · cases htruncated
    · cases htruncated
    · next hpeek =>
      rw [or_eq_false_iff] at htruncated
      exact ⟨htruncated.1, htruncated.2, fun _ => hpeek⟩
    · next err hpeek =>
      rw [hpeek] at herr
      cases herr
  · next hlength =>
    rw [or_eq_false_iff] at htruncated
    exact ⟨htruncated.1, htruncated.2, fun h => absurd h hlength⟩

theorem finishLines_lines :
    (finishLines env maximumLines cuts reported reader lines truncated).lines = lines := by
  unfold finishLines
  split
  · split <;> rfl
  · rfl

theorem limitReached_at_end (h : limitReached cuts reader = false)
    (hend : reader.source.chunks = []) : cuts = false := by
  rwa [limitReached, hend, isEmpty_nil, Bool.and_true] at h

theorem logLinesLoop_whole {fuel : Nat} : ∀ {reader : Reader ReadEnd} {lines : List ScannedLine}
    {truncated : Bool} {result : LinesResult}, reader.Valid size → lines.length ≤ maximumLines →
    logLinesLoop env size maximum maximumLines cuts fuel reader lines truncated = some result →
    result.truncated = false → result.err = none →
    truncated = false ∧ cuts = false ∧ reader.source.err = .eof ∧
      result.lines = lines ++ (logLines reader.content).map wholeLine := by
  induction fuel with
  | zero => exact fun _ _ h => absurd h (by simp [logLinesLoop])
  | succ fuel ih =>
    intro reader lines truncated result hvalid hcount h hwhole herr
    rw [logLinesLoop] at h
    split at h
    · next hmore =>
      split at h
      · rw [← some.inj h] at herr
        cases herr
      · obtain ⟨read, hread, h⟩ := bind_eq_some_iff.mp h
        dsimp only at h
        split at h
        · rw [← some.inj h] at hwhole
          cases hwhole
        · rw [← some.inj h] at herr
          cases herr
        · next hnone =>
          split at h
          · next hlast =>
            have hresult := some.inj h
            rw [← hresult] at hwhole herr
            obtain ⟨htruncated, hlimit, _⟩ := finishLines_whole hwhole herr
            rw [Bool.or_eq_false_iff] at htruncated
            rw [hlimit, Bool.or_false] at hlast
            rcases scanLine_whole hvalid hread htruncated.2 hnone with
              hline | ⟨_, hlf, hline, hrest, hend⟩
            · exact absurd (hline.1.symm.trans hlast) Bool.false_ne_true
            · have hchunks := Source.chunks_of_content (append_eq_nil_iff.mp hrest).2
              refine ⟨htruncated.1, limitReached_at_end hlimit hchunks, hend, ?_⟩
              rw [← hresult, finishLines_lines, hline, htruncated.2, hlast]
              by_cases hempty : reader.content = []
              · rw [if_neg (by simp [hempty]), hempty]
                exact (append_nil lines).symm
              · rw [if_pos (.inl hempty), (Begins.last hlf).logLines hempty]
                rfl
          · next hlast =>
            rw [Bool.not_eq_true, Bool.or_eq_false_iff] at hlast
            have hcontinues := scanLineLoop_continues hvalid hread
            rw [if_pos (.inr hlast.1)] at h
            obtain ⟨htruncated, hcuts, hend, hlines⟩ := ih hcontinues.valid
              (by rw [length_append]; exact hmore) h hwhole herr
            rw [Bool.or_eq_false_iff] at htruncated
            rcases scanLine_whole hvalid hread htruncated.2 hnone with
              ⟨_, front, hlf, hcontent, hline⟩ | hline
            · refine ⟨htruncated.1, hcuts, hcontinues.err.symm.trans hend, ?_⟩
              rw [hlines, hcontent, (Begins.ended hlf).logLines (by simp), hline, htruncated.2,
                map_cons, append_assoc]
              rfl
            · exact absurd (hline.1.symm.trans hlast.1) (by simp)
    · next hfull =>
      have hlength : lines.length = maximumLines := by omega
      have hresult := some.inj h
      rw [← hresult] at hwhole herr
      obtain ⟨htruncated, hlimit, hpeek⟩ := finishLines_whole hwhole herr
      obtain ⟨hchunks, hcontent, hend⟩ := Reader.peek_some hvalid (hpeek hlength)
      refine ⟨htruncated, limitReached_at_end hlimit hchunks, hend.symm, ?_⟩
      rw [← hresult, finishLines_lines, hcontent]
      exact (append_nil lines).symm

end

theorem readBoundedLogLines_whole {env : ReadEnv} {source : Source ReadEnd}
    {maxLineBytes maxContainerBytes maximumLines : Nat} {result : LinesResult}
    (h : readBoundedLogLines env source maxLineBytes maxContainerBytes maximumLines = some result)
    (hwhole : result.truncated = false) (herr : result.err = none) :
    source.err = .eof ∧ result.lines = (logLines source.content).map wholeLine := by
  obtain ⟨_, hcuts, hend, hlines⟩ := logLinesLoop_whole NewReader_valid (Nat.zero_le _) h
    hwhole herr
  have hlimit : source.limit maxContainerBytes .eof = source :=
    Source.limit_of_lt (not_le.mp (of_decide_eq_false hcuts))
  rw [hlimit] at hend hlines
  exact ⟨hend, hlines⟩

end Kubepeep.Dashboard
