import Kubepeep.Logs.Service

/-!
# Read, Follow and Download of one log

Within the limits the three calls still differ in three ways.  `Follow` and `Download` drop blank
lines; they drop the CR before an LF, which `Read` keeps in the text; and they mark a line as
truncated when a fragment of it ends at the limit.  On logs without such lines the three sequences
of lines are the same, for every chunking of the stream, and on no others.
-/

open Nat Bool List Kubepeep.Authorization Kubepeep.Resources Kubepeep.Go Kubepeep.Go.Bufio

namespace Kubepeep.Logs

/-! ## One stream -/

section Stream

variable (service : LogService) (timestamps : Bool)

def lineEvent (line : LogLine) : LogLineDTO :=
  lineDTO service line.text timestamps

/-- What a stream emits for its lines.  Whether an unended last line is marked depends on whether
the source reports its end with the last bytes. -/
inductive Emits (errWithLast : Bool) : List LogLine → List LogLineDTO → Prop
  | nil : Emits errWithLast [] []
  | skip {line : LogLine} {lines : List LogLine} {out : List LogLineDTO} (hblank : line.text = [])
      (h : Emits errWithLast lines out) : Emits errWithLast (line :: lines) out
  | emit {line : LogLine} {lines : List LogLine} {out : List LogLineDTO} {truncated : Bool}
      (htext : line.text ≠ [])
      (hoverruns : truncated = true → line.overruns bufferSize MaximumLogLineBytes = true)
      (hmarked : line.overruns bufferSize MaximumLogLineBytes = true →
        line.ended = true ∨ errWithLast = false → truncated = true)
      (h : Emits errWithLast lines out) :
      Emits errWithLast (line :: lines)
        ({ lineEvent service timestamps line with truncated } :: out)

structure Fits (line : LogLine) : Prop where
  text : line.text.length ≤ MaximumLogLineBytes
  whole : (lineEvent service timestamps line).truncated = false
  event : (lineEvent service timestamps line).fits = true

instance (line : LogLine) : Decidable (Fits service timestamps line) :=
  decidable_of_iff (line.text.length ≤ MaximumLogLineBytes ∧
      (lineEvent service timestamps line).truncated = false ∧
      (lineEvent service timestamps line).fits = true)
    ⟨fun h => ⟨h.1, h.2.1, h.2.2⟩, fun h => ⟨h.text, h.whole, h.event⟩⟩

structure StreamRules.Plain (rules : StreamRules) : Prop where
  event : ∀ (dto : LogLineDTO) (truncated : Bool), dto.truncated = false → dto.fits = true →
    rules.event dto truncated = some { dto with truncated }
  finish : ∀ terminal, (rules.finish terminal .eof).2 = none

def eventSizes (lines : List LogLine) : Nat :=
  (lines.map fun line => (lineEvent service timestamps line).marshal.utf8ByteSize).sum

variable {service timestamps}

variable {dto : LogLineDTO}

theorem marshal_truncated_le (truncated : Bool) (h : dto.truncated = false) :
    { dto with truncated }.marshal.utf8ByteSize ≤ dto.marshal.utf8ByteSize := by
  have hbool : (Json.marshalBool truncated).utf8ByteSize ≤
      (Json.marshalBool dto.truncated).utf8ByteSize := by
    rw [h]
    cases truncated <;> decide
  unfold LogLineDTO.marshal
  exact utf8ByteSize_append_middle_le _ _ hbool

def afterLine (service : LogService) (rules : StreamRules) (timestamps : Bool) (emit : Emitter)
    (fuel : Nat) (read : BoundedLine StreamEnd) (lines : List LogLineDTO) (used : Nat)
    (terminal : FollowTerminal) : Option StreamRun :=
  match read.err with
  | none => streamLoop service rules timestamps emit fuel read.next lines used terminal
  | some err => some ⟨lines, (rules.finish terminal err).1, (rules.finish terminal err).2⟩

variable {rules : StreamRules} {emit : Emitter} {read : BoundedLine StreamEnd}
  {reader : Reader StreamEnd} {terminal : FollowTerminal} {lines : List LogLineDTO}
  {fuel used : Nat}

theorem streamLoop_blank (hread : readBoundedLine bufferSize MaximumLogLineBytes reader = some read)
    (hbytes : read.bytes = []) (htruncated : read.truncated = false) :
    streamLoop service rules timestamps emit (fuel + 1) reader lines used terminal =
      afterLine service rules timestamps emit fuel read lines used terminal := by
  rw [streamLoop, hread, Option.bind_eq_bind, Option.bind_some, hbytes, htruncated]
  rfl

theorem streamLoop_line {line : LogLineDTO} (hemit : ∀ lines line, emit lines line = none)
    (hread : readBoundedLine bufferSize MaximumLogLineBytes reader = some read)
    (hbytes : read.bytes ≠ [])
    (hevent : rules.event (lineDTO service read.bytes timestamps) read.truncated = some line)
    (hused : used + line.marshal.utf8ByteSize ≤ rules.maximum) :
    streamLoop service rules timestamps emit (fuel + 1) reader lines used terminal =
      afterLine service rules timestamps emit fuel read (lines ++ [line])
        (used + line.marshal.utf8ByteSize) (rules.note terminal line) := by
  rw [streamLoop, hread, Option.bind_eq_bind, Option.bind_some]
  rw [if_pos (by simp [hbytes]), hevent, Option.bind_eq_bind, Option.bind_some, hemit]
  rw [if_neg (not_lt.mpr hused)]
  rfl

theorem streamLoop_spec (hrules : rules.Plain)
    (hemit : ∀ lines line, emit lines line = none) (fuel : Nat) :
    ∀ (reader : Reader StreamEnd) (lines : List LogLineDTO) (used : Nat)
      (terminal : FollowTerminal), reader.Valid bufferSize → reader.source.err = .eof →
      (∀ line ∈ logLines reader.content, Fits service timestamps line) →
      used + eventSizes service timestamps (logLines reader.content) ≤ rules.maximum →
      reader.content.length < fuel →
      ∃ run out, streamLoop service rules timestamps emit fuel reader lines used terminal =
          some run ∧ run.lines = lines ++ out ∧ run.err = none ∧
        Emits service timestamps reader.source.errWithLast (logLines reader.content) out := by
  induction fuel with
  | zero => exact fun _ _ _ _ _ _ _ _ h => absurd h (not_lt_zero _)
  | succ fuel ih =>
    intro reader lines used terminal hvalid heof hfits hused hfuel
    obtain ⟨line, rest, hbegins⟩ := exists_begins reader.content
    by_cases hempty : reader.content = []
    · obtain ⟨rfl, rfl⟩ := hbegins.last_unique (by simp [hempty])
      have htext : (LogLine.mk reader.content false).text.length ≤ MaximumLogLineBytes := by
        rw [LogLine.text, hempty]
        exact zero_le _
      obtain ⟨read, hread, h⟩ := readBoundedLine_spec (by decide) hvalid hbegins htext
      rw [hempty] at h ⊢
      have htruncated : read.truncated = false := by
        rw [← not_eq_true]
        intro htruncated
        exact absurd (LogLine.overruns_length (h.of_truncated htruncated)) (by decide)
      rw [streamLoop_blank hread h.bytes htruncated, afterLine, h.last rfl, heof]
      exact ⟨_, [], rfl, (append_nil lines).symm, hrules.finish _, .nil⟩
    · rw [hbegins.logLines hempty] at hfits hused ⊢
      rw [eventSizes, map_cons, sum_cons, ← eventSizes] at hused
      have hline := hfits line mem_cons_self
      obtain ⟨read, hread, h⟩ := readBoundedLine_spec (by decide) hvalid hbegins hline.text
      have hshort := hbegins.rest_length hempty
      have hlater : ∀ (lines : List LogLineDTO) (used : Nat) (terminal : FollowTerminal),
          used + eventSizes service timestamps (logLines rest) ≤ rules.maximum →
          ∃ run out, afterLine service rules timestamps emit fuel read lines used terminal =
              some run ∧ run.lines = lines ++ out ∧ run.err = none ∧
            Emits service timestamps reader.source.errWithLast (logLines rest) out := by
        intro lines used terminal hroom
        unfold afterLine
        cases herr : read.err with
        | none =>
          have hcontent := h.content
          obtain ⟨run, out, hrun⟩ := ih read.next lines used terminal h.continues.valid
            (h.continues.err.trans heof)
            (fun line hmem => hfits line (mem_cons_of_mem _ (hcontent ▸ hmem)))
            (hcontent ▸ hroom) (by rw [hcontent]; omega)
          rw [hcontent, h.continues.errWithLast] at hrun
          exact ⟨run, out, hrun⟩
        | some err =>
          -- Only an unended line, which is the last one, ends in an error.
          obtain ⟨hended, rfl⟩ := h.err err herr
          obtain rfl := hbegins.rest_of_unended hended
          refine ⟨_, [], rfl, (append_nil lines).symm, ?_, .nil⟩
          rw [heof]
          exact hrules.finish terminal
      by_cases hblank : line.text = []
      · have htruncated : read.truncated = false := by
          rw [← not_eq_true]
          intro htruncated
          have hlong := LogLine.overruns_length (h.of_truncated htruncated)
          rw [hblank] at hlong
          exact absurd hlong (by decide)
        rw [streamLoop_blank hread (h.bytes.trans hblank) htruncated]
        obtain ⟨run, out, hrun, hlines, herr, hemits⟩ := hlater lines used terminal
          (by omega)
        exact ⟨run, out, hrun, hlines, herr, .skip hblank hemits⟩
      · let event := { lineEvent service timestamps line with truncated := read.truncated }
        have hevent : rules.event (lineDTO service read.bytes timestamps) read.truncated =
            some event := by
          rw [h.bytes]
          exact hrules.event _ _ hline.whole hline.event
        have hsize : event.marshal.utf8ByteSize ≤ _ := marshal_truncated_le _ hline.whole
        rw [streamLoop_line hemit hread (h.bytes ▸ hblank) hevent (by omega)]
        obtain ⟨run, out, hrun, hlines, herr, hemits⟩ := hlater (lines ++ [event])
          (used + event.marshal.utf8ByteSize) (rules.note terminal event) (by omega)
        exact ⟨run, event :: out, hrun, hlines.trans (append_assoc _ _ _), herr,
          .emit hblank h.of_truncated h.truncated hemits⟩

theorem streamLoop_emits (hrules : rules.Plain)
    (hemit : ∀ lines line, emit lines line = none) {source : Source StreamEnd}
    (herr : source.err = .eof)
    (hfits : ∀ line ∈ logLines source.content, Fits service timestamps line)
    (hroom : eventSizes service timestamps (logLines source.content) ≤ rules.maximum) {fuel : Nat}
    (hfuel : source.content.length < fuel) (terminal : FollowTerminal) :
    ∃ run, streamLoop service rules timestamps emit fuel (NewReader source) [] 0 terminal =
        some run ∧ run.err = none ∧
      Emits service timestamps source.errWithLast (logLines source.content) run.lines := by
  obtain ⟨run, out, hrun, hlines, hnone, hemits⟩ := streamLoop_spec hrules hemit fuel
    (NewReader source) [] 0 terminal NewReader_valid herr hfits
    ((zero_add _).trans_le hroom) hfuel
  exact ⟨run, hrun, hnone, hlines ▸ hemits⟩

theorem fitLogEvent_of_fits (h : dto.fits = true) (fuel : Nat) :
    fitLogEvent fuel dto = some dto :=
  if_pos h

theorem followRules_plain (service : LogService) (target : LogTarget) (source : Source StreamEnd)
    (fuel : Nat) : (followRules service target source fuel).Plain where
  event dto truncated hwhole hfits := by
    show fitLogEvent fuel { dto with truncated := dto.truncated || truncated } = _
    rw [hwhole, Bool.false_or]
    apply fitLogEvent_of_fits
    cases truncated with
    | false => rwa [← hwhole]
    | true => exact LogLineDTO.fits_truncated hfits
  finish terminal := by
    unfold followRules
    split
    · rfl
    · split <;> rfl

theorem downloadRules_plain (source : Source StreamEnd) (fuel : Nat) :
    (downloadRules source fuel).Plain where
  event dto truncated hwhole hfits := by
    show (fitLogEvent fuel dto).map _ = _
    rw [fitLogEvent_of_fits hfits, Option.map_some, hwhole, Bool.false_or]
  finish terminal := by
    unfold downloadRules
    split <;> rfl

end Stream

/-! ## The lines on which the calls agree -/

section Agree

variable (service : LogService) (timestamps : Bool)

def lineRead (line : LogLine) : LogLineDTO :=
  lineDTO service line.bytes timestamps

/-- The line is not blank, a CR at its end makes no difference, and no fragment of it ends at the
limit. -/
def PlainLine (line : LogLine) : Prop :=
  line.text ≠ [] ∧ lineRead service timestamps line = lineEvent service timestamps line ∧
    line.overruns bufferSize MaximumLogLineBytes = false

instance (line : LogLine) : Decidable (PlainLine service timestamps line) :=
  inferInstanceAs (Decidable (_ ∧ _ ∧ _))

variable {service timestamps} {errWithLast : Bool} {lines : List LogLine} {out : List LogLineDTO}

theorem Emits.eq_map (h : Emits service timestamps errWithLast lines out)
    (hfits : ∀ line ∈ lines, Fits service timestamps line)
    (hplain : ∀ line ∈ lines, PlainLine service timestamps line) :
    out = lines.map (lineRead service timestamps) := by
  induction h with
  | nil => rfl
  | skip hblank _ _ => exact absurd hblank (hplain _ mem_cons_self).1
  | @emit line lines out truncated _ hoverruns _ _ ih =>
    obtain ⟨_, hread, hwithin⟩ := hplain line mem_cons_self
    have htruncated : truncated = false := by
      rw [← Bool.not_eq_true]
      intro htruncated
      rw [hoverruns htruncated] at hwithin
      exact Bool.noConfusion hwithin
    rw [map_cons, hread, ih (fun line h => hfits line (mem_cons_of_mem _ h))
      (fun line h => hplain line (mem_cons_of_mem _ h)), htruncated,
      ← (hfits line mem_cons_self).whole]

theorem Emits.length_le (h : Emits service timestamps errWithLast lines out) :
    out.length ≤ lines.length := by
  induction h with
  | nil => exact le_rfl
  | skip _ _ ih => exact ih.trans (le_succ _)
  | emit _ _ _ _ ih => exact succ_le_succ ih

/-- A stream whose end is a `Read` of its own shows every difference. -/
theorem Emits.plain (h : Emits service timestamps false lines out)
    (hfits : ∀ line ∈ lines, Fits service timestamps line)
    (hwhole : ∀ line ∈ lines, (lineRead service timestamps line).truncated = false)
    (hout : out = lines.map (lineRead service timestamps)) :
    ∀ line ∈ lines, PlainLine service timestamps line := by
  induction h with
  | nil => exact fun _ h => absurd h not_mem_nil
  | @skip line lines out _ h _ =>
    -- A skipped line leaves too few.
    have hlength := h.length_le
    rw [hout, length_map, length_cons] at hlength
    omega
  | @emit line lines out truncated htext _ hmarked _ ih =>
    rw [map_cons, cons.injEq] at hout
    obtain ⟨hline, hlater⟩ := hout
    have htruncated : truncated = false :=
      (congrArg LogLineDTO.truncated hline).trans (hwhole line mem_cons_self)
    have hread : lineRead service timestamps line = lineEvent service timestamps line := by
      rw [← hline, htruncated, ← (hfits line mem_cons_self).whole]
    refine forall_mem_cons.mpr ⟨⟨htext, hread, ?_⟩, ih
      (fun line h => hfits line (mem_cons_of_mem _ h))
      (fun line h => hwhole line (mem_cons_of_mem _ h)) hlater⟩
    rw [← not_eq_true]
    intro hoverruns
    exact absurd (hmarked hoverruns (.inr rfl)) (by simp [htruncated])

theorem intercalate_size_append (xs ys : List String) :
    (",".intercalate xs).utf8ByteSize ≤ (",".intercalate (xs ++ ys)).utf8ByteSize := by
  induction xs with
  | nil => simp
  | cons x xs ih =>
    cases xs with
    | nil =>
      cases ys with
      | nil => exact le_rfl
      | cons y ys =>
        rw [singleton_append, String.intercalate_cons_cons, String.intercalate_singleton]
        simp only [String.utf8ByteSize_append]
        omega
    | cons y xs =>
      simp only [cons_append, String.intercalate_cons_cons, String.utf8ByteSize_append] at ih ⊢
      omega

theorem LogReadDTO.marshal_append_le (result : LogReadDTO) (lines more : List LogLineDTO) :
    { result with lines }.marshal.utf8ByteSize ≤
      { result with lines := lines ++ more }.marshal.utf8ByteSize := by
  have hlines := intercalate_size_append (lines.map LogLineDTO.marshal)
    (more.map LogLineDTO.marshal)
  rw [← map_append] at hlines
  unfold LogReadDTO.marshal
  simp only [String.utf8ByteSize_append]
  omega

theorem readLines_eq {raw : List (List UInt8)} : ∀ {result : LogReadDTO},
    result.truncated = false →
    (∀ line ∈ raw, (lineDTO service line timestamps).truncated = false) →
    { result with
      lines := result.lines ++ raw.map (lineDTO service · timestamps) }.marshal.utf8ByteSize ≤
        MaximumLogResponseBytes →
    readLines service timestamps raw result =
      { result with lines := result.lines ++ raw.map (lineDTO service · timestamps) } := by
  induction raw with
  | nil =>
    intro result _ _ _
    rw [readLines, map_nil, append_nil]
  | cons line raw ih =>
    intro result htruncated hwhole hlimit
    rw [map_cons, append_cons] at hlimit ⊢
    have hroom := (LogReadDTO.marshal_append_le result
      (result.lines ++ [lineDTO service line timestamps])
      (raw.map (lineDTO service · timestamps))).trans hlimit
    rw [readLines, hwhole line mem_cons_self]
    simp only [Bool.or_false]
    rw [if_neg (not_lt.mpr hroom)]
    exact ih htruncated (fun line h => hwhole line (mem_cons_of_mem _ h)) hlimit

end Agree

/-! ## The calls -/

/-- All three calls accept the request: `Download` takes neither `tailLines` nor `since`, and
`Follow` no previous container. -/
structure Accepted (service : LogService) (generation : String) (target : LogTarget)
    (query : LogQuery) : Prop where
  previous : query.previous = false
  tailLines : query.tailLines = 0
  since : query.since = ""
  label : service.isDNS1123Label query.container = true
  container : query.container ≠ ""
  namespaceName : service.isDNS1123Subdomain target.namespaceName = true
  pod : service.isDNS1123Subdomain target.pod = true
  allowed : ∃ check, service.authorizer = some check ∧
    (check ⟨generation, target.namespaceName, "", "pods", "log", "get", target.pod⟩).decision =
      .DecisionAllowed

/-- The port delivers the bytes for every request, in chunks of its choice. -/
def Delivers (port : LogPort) (content : List UInt8) : Prop :=
  ∀ target options, ∃ source, port target options = .ok source ∧ source.content = content ∧
    source.err = .eof

def withPort (service : LogService) (port : LogPort) : LogService :=
  { service with port := some port }

def LogQuery.showsTimestamps (query : LogQuery) : Bool :=
  query.timestamps.getD true

structure Within (service : LogService) (query : LogQuery) (content : List UInt8) : Prop where
  size : content.length ≤ MaximumLogContainerBytes
  fits : ∀ line ∈ logLines content, Fits service query.showsTimestamps line
  whole : ∀ line ∈ logLines content, (lineRead service query.showsTimestamps line).truncated = false
  response : (LogReadDTO.mk query.container query.previous
    ((logLines content).map (lineRead service query.showsTimestamps)) false).marshal.utf8ByteSize ≤
      MaximumLogResponseBytes
  events : eventSizes service query.showsTimestamps (logLines content) ≤ MaximumLogFollowBytes

section Calls

variable {service : LogService} {generation : String} {target : LogTarget} {query : LogQuery}
  {port : LogPort} {content : List UInt8}

def LogQuery.normalized (query : LogQuery) : LogQuery :=
  { query with tailLines := 200, timestamps := some query.showsTimestamps }

theorem Accepted.normalize (h : Accepted service generation target query) (follow : Bool) :
    NormalizeLogQuery service query follow = .ok query.normalized := by
  unfold NormalizeLogQuery
  simp [LogQuery.normalized, LogQuery.showsTimestamps, h.label, h.tailLines, h.previous, h.since]
  rfl

theorem Accepted.portFor (h : Accepted service generation target query)
    (hport : service.port = some port) :
    portFor service generation target query.normalized = .ok port := by
  obtain ⟨check, hcheck, hallowed⟩ := h.allowed
  unfold Logs.portFor validateLogTarget authorize
  rw [hport, hcheck]
  simp [h.namespaceName, h.pod, hallowed, LogQuery.normalized, h.container]

theorem Accepted.Read_eq (h : Accepted service generation target query)
    (hport : service.port = some port) (hdelivers : Delivers port content)
    (hwithin : Within service query content) :
    Read service generation target query = (LogReadDTO.mk query.container query.previous
      ((logLines content).map (lineRead service query.showsTimestamps)) false, none) := by
  obtain ⟨source, hopen, hcontent, herr⟩ := hdelivers
    { target with container := query.normalized.container } (readOptions service query.normalized)
  have hsize := hwithin.size
  have hlimit : source.limit (MaximumLogContainerBytes + 1) .eof = source :=
    Source.limit_of_lt (by rw [hcontent]; omega)
  have hlines : readLines service query.showsTimestamps (splitLogLines content)
      ⟨query.container, query.previous, [], false⟩ = LogReadDTO.mk query.container query.previous
        ((logLines content).map (lineRead service query.showsTimestamps)) false := by
    rw [splitLogLines_eq, readLines_eq rfl]
    · rw [nil_append, map_map]
      rfl
    · simpa [lineRead] using hwithin.whole
    · rw [nil_append, map_map]
      exact hwithin.response
  unfold Read
  simp only [h.normalize false, h.portFor hport, hopen, bind, Except.bind, Except.mapError,
    hlimit, herr, hcontent]
  rw [take_of_length_le hsize, decide_eq_false (not_lt.mpr hsize)]
  exact congrArg (·, none) hlines

variable {source : Source StreamEnd} {emit : Emitter}

theorem Accepted.Follow_emits (h : Accepted service generation target query)
    (hport : service.port = some port)
    (hopen : port { target with container := query.normalized.container }
      (followOptions service query.normalized) = .ok source) (herr : source.err = .eof)
    (hwithin : Within service query source.content)
    (hemit : ∀ lines line, emit lines line = none) {fuel : Nat}
    (hfuel : source.content.length < fuel) :
    ∃ run, Follow fuel service generation target query emit = some run ∧ run.err = none ∧
      Emits service query.showsTimestamps source.errWithLast (logLines source.content)
        run.lines := by
  have hsize : source.content.length < MaximumLogFollowBytes + 1 :=
    hwithin.size.trans_lt (by decide)
  unfold Follow
  simp only [h.normalize true, h.portFor hport, hopen, bind, Except.bind, Except.mapError, pure,
    Except.pure, Source.limit_of_lt hsize]
  exact streamLoop_emits (followRules_plain _ _ _ _) hemit herr hwithin.fits hwithin.events hfuel _

theorem Accepted.Download_emits (h : Accepted service generation target query)
    (hport : service.port = some port)
    (hopen : port { target with container := query.normalized.container }
      (downloadOptions query.normalized) = .ok source) (herr : source.err = .eof)
    (hwithin : Within service query source.content)
    (hemit : ∀ lines line, emit lines line = none) {fuel : Nat}
    (hfuel : source.content.length < fuel) :
    ∃ run, Download fuel service generation target query emit = some run ∧ run.err = none ∧
      Emits service query.showsTimestamps source.errWithLast (logLines source.content)
        run.lines := by
  have hsize : source.content.length < MaximumLogDownloadBytes + 1 :=
    hwithin.size.trans_lt (by decide)
  have hrequest : ¬(query.since ≠ "" ∨ query.tailLines ≠ 0) := by
    simp [h.since, h.tailLines]
  unfold Download
  simp only [if_neg hrequest, h.normalize false, h.portFor hport, hopen, bind, Except.bind,
    Except.mapError, pure, Except.pure, Source.limit_of_lt hsize]
  exact streamLoop_emits (downloadRules_plain _ _) hemit herr hwithin.fits
    (hwithin.events.trans (show MaximumLogFollowBytes ≤ MaximumLogDownloadBytes by decide)) hfuel _

theorem Accepted.withPort (h : Accepted service generation target query) :
    Accepted (withPort service port) generation target query :=
  ⟨h.previous, h.tailLines, h.since, h.label, h.container, h.namespaceName, h.pod, h.allowed⟩

theorem Within.withPort (h : Within service query content) :
    Within (withPort service port) query content :=
  ⟨h.size, fun line hline => ⟨(h.fits line hline).text, (h.fits line hline).whole,
    (h.fits line hline).event⟩, h.whole, h.response, h.events⟩

end Calls

def Agree (service : LogService) (generation : String) (target : LogTarget) (query : LogQuery)
    (followEmit downloadEmit : Emitter) (content : List UInt8) : Prop :=
  ∀ fuel, content.length < fuel → ∃ follow download,
    Follow fuel service generation target query followEmit = some follow ∧
      Download fuel service generation target query downloadEmit = some download ∧
      (Read service generation target query).2 = none ∧ follow.err = none ∧ download.err = none ∧
      (Read service generation target query).1.lines = follow.lines ∧
      follow.lines = download.lines

section Main

variable {service : LogService} {generation : String} {target : LogTarget} {query : LogQuery}
  {followEmit downloadEmit : Emitter} {content : List UInt8}

theorem agree_of_plain (haccepted : Accepted service generation target query)
    (hwithin : Within service query content)
    (hfollow : ∀ lines line, followEmit lines line = none)
    (hdownload : ∀ lines line, downloadEmit lines line = none)
    (hplain : ∀ line ∈ logLines content, PlainLine service query.showsTimestamps line)
    {port : LogPort} (hport : service.port = some port) (hdelivers : Delivers port content) :
    Agree service generation target query followEmit downloadEmit content := by
  intro fuel hfuel
  obtain ⟨source, hopen, hcontent, herr⟩ := hdelivers
    { target with container := query.normalized.container } (followOptions service query.normalized)
  obtain ⟨source', hopen', hcontent', herr'⟩ := hdelivers
    { target with container := query.normalized.container } (downloadOptions query.normalized)
  obtain ⟨follow, hrun, hnone, hemits⟩ := haccepted.Follow_emits hport hopen herr
    (hcontent.symm ▸ hwithin) hfollow (hcontent.symm ▸ hfuel)
  obtain ⟨download, hrun', hnone', hemits'⟩ := haccepted.Download_emits hport hopen' herr'
    (hcontent'.symm ▸ hwithin) hdownload (hcontent'.symm ▸ hfuel)
  rw [hcontent] at hemits
  rw [hcontent'] at hemits'
  have hlines := hemits.eq_map hwithin.fits hplain
  have hlines' := hemits'.eq_map hwithin.fits hplain
  refine ⟨follow, download, hrun, hrun', ?_, hnone, hnone', ?_, hlines.trans hlines'.symm⟩
  · rw [haccepted.Read_eq hport hdelivers hwithin]
  · rw [haccepted.Read_eq hport hdelivers hwithin, hlines]

def wholeSource (content : List UInt8) : Source StreamEnd :=
  ⟨if h : content = [] then [] else [⟨content, h⟩], .eof, false⟩

theorem wholeSource_content (content : List UInt8) : (wholeSource content).content = content := by
  unfold wholeSource Source.content
  split
  · next h => exact h.symm
  · exact append_nil content

def wholePort (content : List UInt8) : LogPort := fun _ _ => .ok (wholeSource content)

theorem wholePort_delivers (content : List UInt8) : Delivers (wholePort content) content :=
  fun _ _ => ⟨_, rfl, wholeSource_content content, rfl⟩

theorem plain_of_agree (haccepted : Accepted service generation target query)
    (hwithin : Within service query content)
    (hfollow : ∀ lines line, followEmit lines line = none)
    (hport : service.port = some (wholePort content))
    (hagree : Agree service generation target query followEmit downloadEmit content) :
    ∀ line ∈ logLines content, PlainLine service query.showsTimestamps line := by
  obtain ⟨follow, _, hrun, _, _, _, _, hlines, _⟩ := hagree (content.length + 1)
    (lt_succ_self _)
  have hcontent := wholeSource_content content
  have hfuel : (wholeSource content).content.length < content.length + 1 := by
    rw [hcontent]
    exact lt_succ_self _
  obtain ⟨follow', hrun', _, hemits⟩ := haccepted.Follow_emits hport rfl rfl
    (hcontent.symm ▸ hwithin) hfollow hfuel
  obtain rfl := Option.some.inj (hrun.symm.trans hrun')
  rw [haccepted.Read_eq hport (wholePort_delivers content) hwithin] at hlines
  rw [hcontent] at hemits
  exact hemits.plain hwithin.fits hwithin.whole hlines.symm

/-- Within all limits, `Read`, `Follow` and `Download` return the same lines for every chunking of
the stream if and only if every line of the log is plain. -/
theorem logs_agree_iff (haccepted : Accepted service generation target query)
    (hwithin : Within service query content)
    (hfollow : ∀ lines line, followEmit lines line = none)
    (hdownload : ∀ lines line, downloadEmit lines line = none) :
    (∀ port, Delivers port content →
        Agree (withPort service port) generation target query followEmit downloadEmit content) ↔
      ∀ line ∈ logLines content, PlainLine service query.showsTimestamps line := by
  constructor
  · intro hagree
    show ∀ line ∈ logLines content,
      PlainLine (withPort service (wholePort content)) query.showsTimestamps line
    exact plain_of_agree haccepted.withPort hwithin.withPort hfollow rfl
      (hagree _ (wholePort_delivers content))
  · intro hplain port hdelivers
    exact agree_of_plain haccepted.withPort hwithin.withPort hfollow hdownload hplain rfl hdelivers

end Main

/-! ## Two logs -/

def plainService : LogService where
  port := none
  authorizer := some fun _ => ⟨.DecisionAllowed, some .ReasonSARAllowed⟩
  redactor := none
  containerTerminated _ := false
  isDNS1123Label _ := true
  isDNS1123Subdomain _ := true
  parseInt _ := none
  parseTime _ := none
  toValidUTF8 bytes := String.ofList (bytes.map fun byte => Char.ofNat byte.toNat)

def webTarget : LogTarget := ⟨"shop", "web-0", ""⟩

def appQuery : LogQuery := ⟨"app", false, some false, 0, ""⟩

theorem appQuery_accepted : Accepted plainService "g1" webTarget appQuery :=
  ⟨rfl, rfl, rfl, rfl, by decide, rfl, rfl, _, rfl, rfl⟩

example : lineDTO plainService [97] false = ⟨none, "a", false⟩ := by decide

def twoLines : List UInt8 := [97, LF, 98, LF]

theorem twoLines_within : Within plainService appQuery twoLines :=
  ⟨by decide, by decide +kernel, by decide +kernel, by decide +kernel, by decide +kernel⟩

theorem logs_agree_twoLines : Within plainService appQuery twoLines ∧
    ∀ port, Delivers port twoLines → Agree (withPort plainService port) "g1" webTarget appQuery
      (fun _ _ => none) (fun _ _ => none) twoLines :=
  ⟨twoLines_within,
    (logs_agree_iff appQuery_accepted twoLines_within (fun _ _ => rfl) fun _ _ => rfl).mpr
      (by decide +kernel)⟩

def blankBetween : List UInt8 := [97, LF, LF, 98, LF]

theorem blankBetween_within : Within plainService appQuery blankBetween :=
  ⟨by decide, by decide +kernel, by decide +kernel, by decide +kernel, by decide +kernel⟩

/-- `Read` shows the blank line, `Follow` and `Download` do not. -/
theorem logs_disagree_blank : ∃ service port, Accepted service "g1" webTarget appQuery ∧
    Within service appQuery blankBetween ∧ Delivers port blankBetween ∧
    ¬Agree (withPort service port) "g1" webTarget appQuery (fun _ _ => none) (fun _ _ => none)
      blankBetween := by
  refine ⟨plainService, wholePort blankBetween, appQuery_accepted, blankBetween_within,
    wholePort_delivers _, fun hagree => ?_⟩
  have hplain := plain_of_agree appQuery_accepted.withPort blankBetween_within.withPort
    (fun _ _ => rfl) rfl hagree ⟨[], true⟩ (by decide)
  exact hplain.1 rfl

end Kubepeep.Logs
