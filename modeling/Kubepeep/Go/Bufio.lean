import Mathlib

/-!
# Buffered reads of lines

`bufio.Reader.ReadSlice('\n')` and `ReadLine` over a reader that delivers its bytes in chunks of its
own choice.  What the calls return depends on the bytes alone, with one exception: a line without
an end that fills the buffer is a whole line or a first fragment, depending on whether the error at
the end of the stream came together with the last bytes.
-/

open Option List

namespace Kubepeep.Go.Bufio

def LF : UInt8 := 10

def CR : UInt8 := 13

/-- The bytes of one `Read`.  A `Read` without bytes and without an error is not modelled, since
`fill` tries again. -/
abbrev Chunk := { bytes : List UInt8 // bytes ≠ [] }

structure Source (ε : Type) where
  chunks : List Chunk
  err : ε
  /-- The error comes with the last bytes, not with a `Read` of its own. -/
  errWithLast : Bool

structure Reader (ε : Type) where
  buffered : List UInt8
  err : Option ε
  source : Source ε

inductive SliceEnd (ε : Type) where
  | delim
  | failed (err : ε)
  | bufferFull

variable {ε : Type} (source : Source ε)

def Source.content : List UInt8 :=
  source.chunks.flatMap (·.val)

def Reader.content (reader : Reader ε) : List UInt8 :=
  reader.buffered ++ reader.source.content

def NewReader : Reader ε :=
  ⟨[], none, source⟩

def takeChunks : Nat → List Chunk → List Chunk
  | _, [] => []
  | count, chunk :: rest =>
    if chunk.val.length ≤ count then chunk :: takeChunks (count - chunk.val.length) rest
    else if h : count = 0 then []
    else [⟨chunk.val.take count, by simpa [h] using chunk.property⟩]

/-- `io.LimitedReader` with `N = count`: it reports `eof` after that many bytes.  An error that
comes with the last of them is passed on. -/
def Source.limit (count : Nat) (eof : ε) (source : Source ε) : Source ε :=
  if source.content.length < count ∨
      source.content.length = count ∧ source.errWithLast = true then source
  else ⟨takeChunks count source.chunks, eof, false⟩

variable {source : Source ε}

theorem Source.limit_of_lt {count : Nat} {eof : ε}
    (h : source.content.length < count) : source.limit count eof = source :=
  if_pos (.inl h)

/-- `Read` into `space` bytes. -/
def Source.read (space : Nat) : List UInt8 × Option ε × Source ε :=
  match source.chunks with
  | [] => ([], some source.err, source)
  | chunk :: rest =>
    if hfits : chunk.val.length ≤ space then
      (chunk.val, if source.errWithLast && rest.isEmpty then some source.err else none,
        { source with chunks := rest })
    else
      (chunk.val.take space, none,
        { source with chunks := ⟨chunk.val.drop space, by simpa using hfits⟩ :: rest })

variable (size : Nat) (reader : Reader ε)

def Reader.fill : Reader ε :=
  let (bytes, err, source) := reader.source.read (size - reader.buffered.length)
  ⟨reader.buffered ++ bytes, err, source⟩

/-- What `ReadSlice` returns without another `Read`, if anything. -/
def Reader.slice : Option (List UInt8 × SliceEnd ε × Reader ε) :=
  match reader.buffered.dropWhile (· ≠ LF) with
  | _ :: rest => some (reader.buffered.takeWhile (· ≠ LF) ++ [LF], .delim,
      { reader with buffered := rest })
  | [] =>
    match reader.err with
    | some err => some (reader.buffered, .failed err, { reader with buffered := [], err := none })
    | none =>
      if reader.buffered.length ≥ size then
        some (reader.buffered, .bufferFull, { reader with buffered := [] })
      else
        none

/-- The loop of `ReadSlice('\n')`, with a bound on its iterations. -/
def readSliceLoop (size : Nat) : Nat → Reader ε → Option (List UInt8 × SliceEnd ε × Reader ε)
  | 0, _ => none
  | fuel + 1, reader =>
    match reader.slice size with
    | some result => some result
    | none => readSliceLoop size fuel (reader.fill size)

/-- Every `Read` takes a chunk, fills the buffer or reports the end. -/
def ReadSlice : Option (List UInt8 × SliceEnd ε × Reader ε) :=
  readSliceLoop size (reader.source.chunks.length + 2) reader

structure LineRead (ε : Type) where
  fragment : List UInt8
  isPrefix : Bool
  err : Option ε
  next : Reader ε

def ReadLine : Option (LineRead ε) := do
  match ← ReadSlice size reader with
  | (line, .bufferFull, next) =>
    -- A CR at the end of the buffer may belong to a line end, so it is put back.
    if line.getLast? = some CR then
      return ⟨line.dropLast, true, none, { next with buffered := CR :: next.buffered }⟩
    else
      return ⟨line, true, none, next⟩
  | (line, .delim, next) =>
    if line.dropLast.getLast? = some CR then
      return ⟨line.dropLast.dropLast, false, none, next⟩
    else
      return ⟨line.dropLast, false, none, next⟩
  | (line, .failed err, next) =>
    return ⟨line, false, if line.isEmpty then some err else none, next⟩

/-! ## What is returned -/

structure Reader.Valid (size : Nat) (reader : Reader ε) : Prop where
  le_size : reader.buffered.length ≤ size
  pending : ∀ err, reader.err = some err → reader.source.chunks = [] ∧
    err = reader.source.err ∧ reader.source.errWithLast = true
  kept : reader.source.chunks = [] → reader.source.errWithLast = true → reader.buffered ≠ [] →
    reader.err ≠ none

structure Reader.Continues (size : Nat) (reader next : Reader ε) : Prop where
  valid : next.Valid size
  err : next.source.err = reader.source.err
  errWithLast : next.source.errWithLast = reader.source.errWithLast

inductive Sliced (size : Nat) (reader : Reader ε) :
    List UInt8 → SliceEnd ε → Reader ε → Prop
  | delim {front : List UInt8} {next : Reader ε} (hline : LF ∉ front)
      (hcontent : reader.content = front ++ LF :: next.content) (hsize : front.length < size)
      (hnext : reader.Continues size next) : Sliced size reader (front ++ [LF]) .delim next
  | failed {line : List UInt8} {next : Reader ε} (hline : LF ∉ line)
      (hcontent : reader.content = line) (hsize : line.length ≤ size)
      (hexact : line.length = size → reader.source.errWithLast = true)
      (hrest : next.content = []) (hnext : reader.Continues size next) :
      Sliced size reader line (.failed reader.source.err) next
  | bufferFull {line : List UInt8} {next : Reader ε} (hline : LF ∉ line)
      (hcontent : reader.content = line ++ next.content) (hsize : line.length = size)
      (hempty : next.buffered = [])
      (hmore : reader.source.errWithLast = true → line ≠ [] → next.content ≠ [])
      (hnext : reader.Continues size next) : Sliced size reader line .bufferFull next

variable {reader : Reader ε} {size : Nat} {stop : SliceEnd ε} {line : List UInt8} {next : Reader ε}

theorem Sliced.continues (h : Sliced size reader line stop next) : reader.Continues size next := by
  cases h <;> assumption

theorem eq_of_dropWhile_ne {bytes rest : List UInt8} {first : UInt8}
    (h : bytes.dropWhile (· ≠ LF) = first :: rest) : first = LF := by
  induction bytes with
  | nil => cases h
  | cons byte bytes ih =>
    rw [dropWhile_cons] at h
    split at h
    · exact ih h
    · next hstop =>
      have hbyte : byte = LF := by simpa using hstop
      rw [← (cons.inj h).1, hbyte]

theorem content_of_chunks_nil (h : reader.source.chunks = []) :
    reader.content = reader.buffered := by
  rw [Reader.content, Source.content, h, flatMap_nil, append_nil]

theorem Source.chunks_of_content (h : source.content = []) :
    source.chunks = [] := by
  cases hchunks : source.chunks with
  | nil => rfl
  | cons chunk rest =>
    rw [Source.content, hchunks, flatMap_cons, append_eq_nil_iff] at h
    exact absurd h.1 chunk.property

theorem Reader.slice_spec (h : reader.Valid size)
    (hslice : reader.slice size = some (line, stop, next)) : Sliced size reader line stop next := by
  have hsplit : reader.buffered.takeWhile (· ≠ LF) ++ reader.buffered.dropWhile (· ≠ LF) =
      reader.buffered := takeWhile_append_dropWhile
  have hfront : LF ∉ reader.buffered.takeWhile (· ≠ LF) := fun hmem => by
    simpa using mem_takeWhile_imp hmem
  unfold Reader.slice at hslice
  split at hslice
  · next first rest hdrop =>
    obtain ⟨rfl, rfl, rfl⟩ := hslice
    have hfirst := eq_of_dropWhile_ne hdrop
    rw [hdrop, hfirst] at hsplit
    have hlength := congrArg length hsplit
    rw [length_append, length_cons] at hlength
    have hle := h.le_size
    refine .delim hfront ?_ (by omega) ⟨⟨?_, h.pending, ?_⟩, rfl, rfl⟩
    · show reader.buffered ++ reader.source.content = _
      rw [← hsplit, append_assoc, cons_append]
      rw [hsplit]
      rfl
    · show rest.length ≤ size
      omega
    · exact fun hchunks hlast _ => h.kept hchunks hlast (by rw [← hsplit]; simp)
  · next hdrop =>
    have hline : LF ∉ reader.buffered := by
      rw [hdrop, append_nil] at hsplit
      exact hsplit ▸ hfront
    split at hslice
    · next err herr =>
      obtain ⟨rfl, rfl, rfl⟩ := hslice
      obtain ⟨hchunks, rfl, hlast⟩ := h.pending err herr
      refine .failed hline (content_of_chunks_nil hchunks) h.le_size (fun _ => hlast) ?_
        ⟨⟨Nat.zero_le _, by simp, by simp⟩, rfl, rfl⟩
      exact content_of_chunks_nil hchunks
    · next herr =>
      split at hslice
      · next hfull =>
        obtain ⟨rfl, rfl, rfl⟩ := hslice
        refine .bufferFull hline rfl (le_antisymm h.le_size hfull) rfl (fun hlast hne hnil => ?_)
          ⟨⟨Nat.zero_le _, h.pending, by simp⟩, rfl, rfl⟩
        exact h.kept (Source.chunks_of_content hnil) hlast hne herr
      · cases hslice

theorem Reader.slice_eq_none (h : reader.slice size = none) :
    LF ∉ reader.buffered ∧ reader.err = none ∧ reader.buffered.length < size := by
  unfold Reader.slice at h
  split at h
  · cases h
  · next hdrop =>
    split at h
    · cases h
    · next herr =>
      split at h
      · cases h
      · next hfull =>
        refine ⟨fun hmem => ?_, herr, not_le.mp hfull⟩
        simpa using dropWhile_eq_nil_iff.mp hdrop LF hmem

theorem Reader.slice_failed {err : ε}
    (hline : LF ∉ reader.buffered) (herr : reader.err = some err) : reader.slice size =
      some (reader.buffered, .failed err, { reader with buffered := [], err := none }) := by
  have hdrop : reader.buffered.dropWhile (· ≠ LF) = [] := by
    rw [dropWhile_eq_nil_iff]
    intro byte hbyte
    rw [decide_eq_true_iff]
    rintro rfl
    exact hline hbyte
  unfold Reader.slice
  rw [hdrop, herr]

theorem Reader.fill_cases (hnone : reader.slice size = none) :
    (reader.source.chunks = [] ∧ reader.fill size = { reader with err := some reader.source.err }) ∨
      ((reader.fill size).content = reader.content ∧ reader.Continues size (reader.fill size) ∧
        ((reader.fill size).source.chunks.length < reader.source.chunks.length ∨
          (reader.fill size).buffered.length = size)) := by
  obtain ⟨_, _, hroom⟩ := Reader.slice_eq_none hnone
  cases hchunks : reader.source.chunks with
  | nil =>
    left
    refine ⟨rfl, ?_⟩
    unfold Reader.fill Source.read
    rw [hchunks]
    simp
  | cons chunk rest =>
    right
    have hcontent : reader.content = reader.buffered ++ (chunk.val ++ rest.flatMap (·.val)) := by
      rw [Reader.content, Source.content, hchunks, List.flatMap_cons]
    unfold Reader.fill Source.read
    rw [hchunks]
    dsimp only
    split
    · next hfits =>
      refine ⟨?_, ⟨⟨?_, ?_, ?_⟩, rfl, rfl⟩, .inl ?_⟩
      · rw [hcontent, ← List.append_assoc]
        rfl
      · show (reader.buffered ++ chunk.val).length ≤ size
        rw [List.length_append]
        omega
      · intro err herr
        split at herr
        · next hlast =>
          rw [Bool.and_eq_true, List.isEmpty_iff] at hlast
          exact ⟨hlast.2, (some.inj herr).symm, hlast.1⟩
        · cases herr
      · intro hrest hlast _
        have hrest : rest = [] := hrest
        have hlast : reader.source.errWithLast = true := hlast
        simp [hrest, hlast]
      · show rest.length < (chunk :: rest).length
        exact Nat.lt_succ_self _
    · next hlong =>
      have hlength : (reader.buffered ++ chunk.val.take (size - reader.buffered.length)).length =
          size := by
        rw [List.length_append, List.length_take]
        omega
      refine ⟨?_, ⟨⟨hlength.le, by simp, by simp⟩, rfl, rfl⟩, .inr hlength⟩
      rw [hcontent]
      show (reader.buffered ++ chunk.val.take _) ++ (chunk.val.drop _ ++ rest.flatMap (·.val)) = _
      rw [List.append_assoc, ← List.append_assoc (chunk.val.take _), List.take_append_drop]

theorem Reader.Continues.trans {a b c : Reader ε} (h : a.Continues size b)
    (h' : b.Continues size c) : a.Continues size c :=
  ⟨h'.valid, h'.err.trans h.err, h'.errWithLast.trans h.errWithLast⟩

theorem Sliced.of_fill {middle : Reader ε}
    (hcontent : middle.content = reader.content) (hmiddle : reader.Continues size middle)
    (h : Sliced size middle line stop next) : Sliced size reader line stop next := by
  cases h with
  | delim hline hfront hsize hnext =>
    exact .delim hline (hcontent ▸ hfront) hsize (hmiddle.trans hnext)
  | failed hline hall hsize hexact hrest hnext =>
    rw [hmiddle.err]
    exact .failed hline (hcontent ▸ hall) hsize (fun h => hmiddle.errWithLast ▸ hexact h) hrest
      (hmiddle.trans hnext)
  | bufferFull hline hfront hsize hempty hmore hnext =>
    exact .bufferFull hline (hcontent ▸ hfront) hsize hempty (hmiddle.errWithLast ▸ hmore)
      (hmiddle.trans hnext)

theorem Reader.slice_of_full
    (h : size ≤ reader.buffered.length) : ∃ result, reader.slice size = some result := by
  unfold Reader.slice
  split
  · exact ⟨_, rfl⟩
  · split
    · exact ⟨_, rfl⟩
    · rw [if_pos h]
      exact ⟨_, rfl⟩

theorem readSliceLoop_spec (fuel : Nat) : ∀ reader : Reader ε, reader.Valid size →
    reader.source.chunks.length + 2 ≤ fuel → ∃ line stop next,
      readSliceLoop size fuel reader = some (line, stop, next) ∧
        Sliced size reader line stop next := by
  induction fuel with
  | zero => exact fun _ _ h => absurd h (by omega)
  | succ fuel ih =>
    intro reader h hfuel
    unfold readSliceLoop
    cases hslice : reader.slice size with
    | some result =>
      obtain ⟨line, stop, next⟩ := result
      exact ⟨line, stop, next, rfl, Reader.slice_spec h hslice⟩
    | none =>
      obtain ⟨fuel, rfl⟩ : ∃ left, fuel = left + 1 := ⟨fuel - 1, by omega⟩
      rcases Reader.fill_cases hslice with ⟨hchunks, hfill⟩ | ⟨hcontent, hnext, hmore⟩
      · -- The error at the end is reported at once, with what is buffered.
        obtain ⟨hline, _, hroom⟩ := Reader.slice_eq_none hslice
        have hagain : (reader.fill size).slice size = some (reader.buffered,
            .failed reader.source.err, { reader with buffered := [], err := none }) := by
          rw [hfill]
          exact Reader.slice_failed hline rfl
        refine ⟨_, _, _, by rw [readSliceLoop, hagain], ?_⟩
        refine .failed hline (content_of_chunks_nil hchunks) hroom.le (fun h => by omega) ?_
          ⟨⟨Nat.zero_le _, by simp, by simp⟩, rfl, rfl⟩
        exact content_of_chunks_nil hchunks
      · by_cases hfull : (reader.fill size).buffered.length = size
        · obtain ⟨⟨line, stop, next⟩, hagain⟩ := Reader.slice_of_full hfull.ge
          exact ⟨line, stop, next, by rw [readSliceLoop, hagain],
            .of_fill hcontent hnext (Reader.slice_spec hnext.valid hagain)⟩
        · obtain ⟨line, stop, next, hloop, hsliced⟩ := ih _ hnext.valid (by omega)
          exact ⟨line, stop, next, hloop, .of_fill hcontent hnext hsliced⟩

theorem ReadSlice_spec (h : reader.Valid size) :
    ∃ line stop next, ReadSlice size reader = some (line, stop, next) ∧
      Sliced size reader line stop next :=
  readSliceLoop_spec _ reader h le_rfl

/-! ## Lines -/

def dropCR (line : List UInt8) : List UInt8 :=
  if line.getLast? = some CR then line.dropLast else line

inductive Lined (size : Nat) (reader : Reader ε) : LineRead ε → Prop
  | line {front : List UInt8} {next : Reader ε} (hline : LF ∉ front)
      (hcontent : reader.content = front ++ LF :: next.content) (hsize : front.length < size)
      (hnext : reader.Continues size next) :
      Lined size reader ⟨dropCR front, false, none, next⟩
  | last {line : List UInt8} {next : Reader ε} (hline : LF ∉ line)
      (hcontent : reader.content = line) (hsize : line.length ≤ size)
      (hexact : line.length = size → reader.source.errWithLast = true)
      (hrest : next.content = []) (hnext : reader.Continues size next) :
      Lined size reader
        ⟨line, false, if line.isEmpty then some reader.source.err else none, next⟩
  | fragment {line : List UInt8} {next : Reader ε} (hline : LF ∉ line)
      (hcontent : reader.content = dropCR line ++ next.content) (hsize : line.length = size)
      (hbegins : line <+: reader.content)
      (hmore : reader.source.errWithLast = true → next.content ≠ [])
      (hnext : reader.Continues size next) : Lined size reader ⟨dropCR line, true, none, next⟩

theorem ReadLine_spec (hsize : 1 ≤ size) (h : reader.Valid size) :
    ∃ result, ReadLine size reader = some result ∧ Lined size reader result := by
  obtain ⟨line, stop, next, hslice, hsliced⟩ := ReadSlice_spec h
  unfold ReadLine
  rw [hslice]
  cases hsliced with
  | @delim front next hline hcontent hlength hnext =>
    refine ⟨⟨dropCR front, false, none, next⟩, ?_, .line hline hcontent hlength hnext⟩
    simp only [bind_eq_bind, bind_some, dropLast_concat]
    unfold dropCR
    split <;> rfl
  | failed hline hcontent hlength hexact hrest hnext =>
    exact ⟨_, rfl, .last hline hcontent hlength hexact hrest hnext⟩
  | bufferFull hline hcontent hlength hempty hmore hnext =>
    by_cases hcr : line.getLast? = some CR
    · have hline' : line = dropCR line ++ [CR] := by
        rw [dropCR, if_pos hcr]
        exact (dropLast_append_getLast? CR hcr).symm
      refine ⟨⟨dropCR line, true, none, { next with buffered := CR :: next.buffered }⟩, ?_,
        .fragment hline ?_ hlength ⟨_, hcontent.symm⟩ (by simp [Reader.content])
          ⟨⟨?_, hnext.valid.pending, ?_⟩, hnext.err, hnext.errWithLast⟩⟩
      · simp only [bind_eq_bind, bind_some, dropCR, hcr, if_true]
        rfl
      · rw [hcontent]
        nth_rewrite 1 [hline']
        rw [append_assoc]
        rfl
      · show (CR :: next.buffered).length ≤ size
        rw [hempty]
        exact hsize
      · intro hchunks hlast _ _
        have hnone : next.content = next.buffered := content_of_chunks_nil hchunks
        exact hmore (hnext.errWithLast ▸ hlast) (by rintro rfl; cases hcr) (hnone.trans hempty)
    · have hdrop : dropCR line = line := if_neg hcr
      refine ⟨⟨dropCR line, true, none, next⟩, ?_,
        .fragment hline (by rw [hdrop]; exact hcontent) hlength ⟨_, hcontent.symm⟩
          (fun hlast => hmore hlast (ne_nil_of_length_pos (hlength ▸ hsize))) hnext⟩
      simp only [bind_eq_bind, bind_some, hdrop, hcr, if_false]
      rfl

/-- `Peek(1)`: the error it returns, if there is no byte.  A stream whose end was `reported` before
is asked once more and answers `again`. -/
def Reader.peek (again : ε) (reported : Bool) (reader : Reader ε) : Option ε :=
  if reader.buffered ≠ [] then none
  else
    match reader.err with
    | some err => some err
    | none =>
      if reader.source.chunks ≠ [] then none
      else some (if reported then again else reader.source.err)

theorem Reader.peek_some {again err : ε} (h : reader.Valid size)
    (hpeek : reader.peek again false = some err) :
    reader.source.chunks = [] ∧ reader.content = [] ∧ err = reader.source.err := by
  unfold Reader.peek at hpeek
  split at hpeek
  · cases hpeek
  · next hbuffered =>
    rw [not_not] at hbuffered
    split at hpeek
    · next pending hpending =>
      obtain ⟨hchunks, herr, _⟩ := h.pending pending hpending
      exact ⟨hchunks, (content_of_chunks_nil hchunks).trans hbuffered,
        (some.inj hpeek).symm.trans herr⟩
    · split at hpeek
      · cases hpeek
      · next hchunks =>
        rw [not_not] at hchunks
        exact ⟨hchunks, (content_of_chunks_nil hchunks).trans hbuffered,
          (some.inj hpeek).symm⟩

theorem NewReader_valid : (NewReader source).Valid size :=
  ⟨Nat.zero_le _, by simp [NewReader], by simp [NewReader]⟩

end Kubepeep.Go.Bufio
