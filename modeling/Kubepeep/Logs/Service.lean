import Kubepeep.Logs.FitEvent
import Kubepeep.Logs.Lines
import Kubepeep.Resources.Types

/-!
# Reading, following and downloading a log

`LogService` (`internal/services/resources/logs.go`, `logs_download.go`).  `Read` splits the whole
log, `Follow` and `Download` take one bounded line after the other, and all three turn a line into a
`LogLineDTO` by `lineDTO`.

The contexts of the calls stay live.  What the service gets from elsewhere is a field of
`LogService`: the port, the authorizer, the redactor and the functions of the libraries.
-/

open Kubepeep.Authorization Kubepeep.Resources Kubepeep.Go Kubepeep.Go.Bufio

namespace Kubepeep.Logs

def MaximumLogLineBytes : Nat := 64 * 2 ^ 10

def MaximumLogContainerBytes : Nat := 2 * 2 ^ 20

def MaximumLogResponseBytes : Nat := 10 * 2 ^ 20

def MaximumLogFollowBytes : Nat := 10 * 2 ^ 20

def MaximumLogDownloadBytes : Nat := 64 * 2 ^ 20

/-- The size that `Follow` and `Download` give to `bufio.NewReaderSize`. -/
def bufferSize : Nat := 32 * 2 ^ 10

structure LogQuery where
  container : String
  previous : Bool
  timestamps : Option Bool
  tailLines : Int
  since : String
  deriving DecidableEq, Repr

structure LogTarget where
  namespaceName : String
  pod : String
  container : String
  deriving DecidableEq, Repr

structure LogSourceOptions where
  previous : Bool := false
  timestamps : Bool
  tailLines : Int
  sinceSeconds : Option Int := none
  limitBytes : Int := 0
  follow : Bool := false
  deriving DecidableEq, Repr

structure LogReadDTO where
  container : String
  previous : Bool
  lines : List LogLineDTO
  truncated : Bool
  deriving DecidableEq, Repr

structure FollowTerminal where
  reason : String
  generation : String
  truncated : Bool := false
  deriving DecidableEq, Repr

inductive StreamEnd where
  | eof
  | failed (err : ReadError)

inductive EmitError where
  | slowConsumer
  | other (err : ReadError)

abbrev Emitter := List LogLineDTO → LogLineDTO → Option EmitError

abbrev LogPort := LogTarget → LogSourceOptions → Except ReadError (Source StreamEnd)

structure LogService where
  port : Option LogPort
  authorizer : Option (Key → Capability)
  redactor : Option (List UInt8 → List UInt8)
  /-- `ContainerTerminated`, false for a port that is not a `LogTerminationProbe`. -/
  containerTerminated : LogTarget → Bool
  isDNS1123Label : String → Bool
  isDNS1123Subdomain : String → Bool
  /-- `strconv.ParseInt(number, 10, 64)`. -/
  parseInt : String → Option Int
  /-- `time.Parse(time.RFC3339Nano, text)`, formatted in UTC. -/
  parseTime : List UInt8 → Option String
  /-- `strings.ToValidUTF8(text, "�")`. -/
  toValidUTF8 : List UInt8 → String

/-! ## Requests -/

variable (service : LogService)

def parseSince (value : String) : Except ReadError Int :=
  let invalid := Except.error (validationError "since has an invalid value")
  if value.utf8ByteSize < 2 then invalid
  else
    match value.toList.getLast? with
    | none => invalid
    | some unit =>
      if unit ≠ 's' ∧ unit ≠ 'm' ∧ unit ≠ 'h' then invalid
      else
        let number := value.toList.dropLast
        if number.head? = some '0' then invalid
        else
          match service.parseInt (String.ofList number) with
          | none => invalid
          | some amount =>
            if amount < 1 then invalid
            else
              let multiplier := if unit = 'm' then 60 else if unit = 'h' then 3600 else 1
              if amount > 14400 / multiplier then
                .error (validationError "since must not exceed 4h")
              else
                .ok (amount * multiplier)

def sinceSeconds (value : String) : Option Int :=
  if value = "" then none else (parseSince service value).toOption

def NormalizeLogQuery (query : LogQuery) (follow : Bool) :
    Except ReadError LogQuery := do
  if !service.isDNS1123Label query.container then
    throw (validationError "container must be a DNS label")
  let query := { query with
    tailLines := if query.tailLines = 0 then 200 else query.tailLines
    timestamps := some (query.timestamps.getD true) }
  if query.tailLines < 1 ∨ query.tailLines > 2000 then
    throw (validationError "tailLines must be between 1 and 2000")
  if follow && query.previous then
    throw (validationError "previous is not supported for follow")
  if query.since ≠ "" then
    let seconds ← parseSince service query.since
    if seconds > 14400 then
      throw (validationError "since must not exceed 4h")
  return query

def validateLogTarget (target : LogTarget) : Except ReadError Unit := do
  if !service.isDNS1123Subdomain target.namespaceName || !service.isDNS1123Subdomain target.pod then
    throw (validationError "pod target is invalid")
  if target.container = "" then
    throw (validationError "container is required")

/-- `authorize`, with the port it makes sure of. -/
def authorize (generation : String) (target : LogTarget) :
    Except ReadError LogPort :=
  match service.port, service.authorizer with
  | some port, some check =>
    let key : Key := ⟨generation, target.namespaceName, "", "pods", "log", "get", target.pod⟩
    let capability := check key
    match capability.decision with
    | .DecisionAllowed => .ok port
    | .DecisionDenied => .error (domainError .CodeForbidden "Access to pod logs was denied.")
    | .DecisionUnknown =>
      let failure := ReviewFailure capability
      .error (domainError failure.code failure.message)
  | _, _ => .error (domainError .CodeFeatureUnavailable "Pod logs are unavailable.")

def sanitizePortError (err : ReadError) : ReadError :=
  if err.deadline then
    { err with domain := some (.CodeUpstreamTimeout, "The Kubernetes request timed out.") }
  else if err.canceled then
    { err with domain := some (.CodeGenerationChanged, "The active selection changed.") }
  else if err.domain.isSome then
    err
  else
    { err with
      domain := some (.CodeClusterUnavailable,
        "The Kubernetes API could not complete the request.") }

/-! ## Lines -/

/-- Cut to the limit, then moved back to a rune boundary. -/
def sanitizeText (value : List UInt8) (maximum : Nat) : String :=
  let value := String.ofList ((service.toValidUTF8 value).toList.map fun rune =>
    if rune = '\n' ∨ rune = '\r' ∨ rune = '\t' ∨ rune.toNat ≥ 0x20 then rune else '\uFFFD')
  if h : value.utf8ByteSize ≤ maximum then value
  else (moveBack value maximum (Nat.le_of_not_le h)).take

def parseLogTimestamp (line : List UInt8) (enabled : Bool) :
    Option String × List UInt8 :=
  if !enabled then (none, line)
  else
    match line.idxOf? 32 with
    | none => (none, line)
    | some separator =>
      if separator < 1 then (none, line)
      else
        match service.parseTime (line.take separator) with
        | none => (none, line)
        | some formatted => (some formatted, line.drop (separator + 1))

def lineDTO (raw : List UInt8) (timestamps : Bool) : LogLineDTO :=
  let (timestamp, text) := parseLogTimestamp service raw timestamps
  let text := match service.redactor with
    | some redact => redact text
    | none => text
  ⟨timestamp, sanitizeText service text MaximumLogLineBytes,
    decide (text.length > MaximumLogLineBytes)⟩

/-! ## Read -/

def LogReadDTO.marshal (result : LogReadDTO) : String :=
  "\x7b\"container\":" ++ Json.marshalString result.container ++
    ",\"previous\":" ++ Json.marshalBool result.previous ++
    ",\"lines\":[" ++ ",".intercalate (result.lines.map LogLineDTO.marshal) ++
    "],\"truncated\":" ++ Json.marshalBool result.truncated ++ "\x7d"

/-- The loop of `Read`. -/
def readLines (service : LogService) (timestamps : Bool) :
    List (List UInt8) → LogReadDTO → LogReadDTO
  | [], result => result
  | line :: rest, result =>
    let dto := lineDTO service line timestamps
    let result := { result with truncated := result.truncated || dto.truncated }
    let trial := { result with lines := result.lines ++ [dto] }
    if trial.marshal.utf8ByteSize > MaximumLogResponseBytes then
      { result with truncated := true }
    else
      readLines service timestamps rest trial

def portFor (generation : String) (target : LogTarget)
    (normalized : LogQuery) : Except ReadError LogPort := do
  let target := { target with container := normalized.container }
  validateLogTarget service target
  authorize service generation target

def readOptions (normalized : LogQuery) : LogSourceOptions :=
  { previous := normalized.previous, timestamps := normalized.timestamps.getD true,
    tailLines := normalized.tailLines, sinceSeconds := sinceSeconds service normalized.since,
    limitBytes := MaximumLogContainerBytes }

def followOptions (normalized : LogQuery) : LogSourceOptions :=
  { timestamps := normalized.timestamps.getD true, tailLines := normalized.tailLines,
    sinceSeconds := sinceSeconds service normalized.since, limitBytes := MaximumLogFollowBytes,
    follow := true }

/-- A negative tail makes the adapter omit `TailLines`. -/
def downloadOptions (normalized : LogQuery) : LogSourceOptions :=
  { previous := normalized.previous, timestamps := normalized.timestamps.getD true,
    tailLines := -1 }

def Read (generation : String) (target : LogTarget) (query : LogQuery) :
    LogReadDTO × Option ReadError :=
  let result : LogReadDTO := ⟨query.container, query.previous, [], false⟩
  let answer : Except ReadError LogReadDTO := do
    let normalized ← NormalizeLogQuery service query false
    let port ← portFor service generation target normalized
    let reader ← (port { target with container := normalized.container }
      (readOptions service normalized)).mapError sanitizePortError
    let limited := reader.limit (MaximumLogContainerBytes + 1) .eof
    match limited.err with
    | .failed err => throw (sanitizePortError err)
    | .eof =>
      let raw := limited.content
      return readLines service (normalized.timestamps.getD true)
        (splitLogLines (raw.take MaximumLogContainerBytes))
        ⟨normalized.container, normalized.previous, [],
          decide (raw.length > MaximumLogContainerBytes)⟩
  match answer with
  | .ok result => (result, none)
  | .error err => (result, some err)

/-! ## Follow and Download -/

structure StreamRun where
  lines : List LogLineDTO
  terminal : FollowTerminal
  err : Option ReadError

/-- What `Follow` and `Download` do differently in their loops. -/
structure StreamRules where
  /-- The event for a line and the flag of `readBoundedLine`. -/
  event : LogLineDTO → Bool → Option LogLineDTO
  maximum : Nat
  note : FollowTerminal → LogLineDTO → FollowTerminal
  refuse : EmitError → ReadError
  finish : FollowTerminal → StreamEnd → FollowTerminal × Option ReadError

def FollowTerminal.limitReached (terminal : FollowTerminal) : FollowTerminal :=
  { terminal with reason := "limit_reached", truncated := true }

/-- The loop, with a bound on its iterations. -/
def streamLoop (service : LogService) (rules : StreamRules) (timestamps : Bool) (emit : Emitter) :
    Nat → Reader StreamEnd → List LogLineDTO → Nat → FollowTerminal → Option StreamRun
  | 0, _, _, _, _ => none
  | fuel + 1, reader, lines, used, terminal => do
    let read ← readBoundedLine bufferSize MaximumLogLineBytes reader
    let next := fun lines used terminal =>
      match read.err with
      | none => streamLoop service rules timestamps emit fuel read.next lines used terminal
      | some err =>
        let (terminal, err) := rules.finish terminal err
        return ⟨lines, terminal, err⟩
    if read.bytes ≠ [] || read.truncated then
      let line ← rules.event (lineDTO service read.bytes timestamps) read.truncated
      let encoded := line.marshal.utf8ByteSize
      if used + encoded > rules.maximum then
        return ⟨lines, terminal.limitReached, none⟩
      else
        match emit lines line with
        | some err => return ⟨lines, terminal, some (rules.refuse err)⟩
        | none => next (lines ++ [line]) (used + encoded) (rules.note terminal line)
    else
      next lines used terminal

/-- `limited.N == 0` at the end of the stream. -/
def limitUsed (maximum : Nat) (source : Source StreamEnd) : Bool :=
  decide (maximum + 1 ≤ source.content.length)

def followRules (target : LogTarget) (source : Source StreamEnd) (fuel : Nat) : StreamRules where
  event dto truncated := fitLogEvent fuel { dto with truncated := dto.truncated || truncated }
  maximum := MaximumLogFollowBytes
  note terminal _ := terminal
  refuse
    | .slowConsumer => domainError .CodeLimitExceeded "The log stream consumer is too slow."
    | .other err => err
  finish terminal
    | .eof =>
      if limitUsed MaximumLogFollowBytes source then (terminal.limitReached, none)
      else if service.containerTerminated target then
        ({ terminal with reason := "container_terminated" }, none)
      else (terminal, none)
    | .failed err =>
      if err.canceled then ({ terminal with reason := "generation_changed" }, none)
      else (terminal, some (sanitizePortError err))

def downloadRules (source : Source StreamEnd) (fuel : Nat) : StreamRules where
  event dto truncated := (fitLogEvent fuel dto).map fun line =>
    { line with truncated := line.truncated || truncated }
  maximum := MaximumLogDownloadBytes
  note terminal line := { terminal with truncated := terminal.truncated || line.truncated }
  -- The emitter's error is returned as it is.
  refuse
    | .slowConsumer => {}
    | .other err => err
  finish terminal
    | .eof =>
      if limitUsed MaximumLogDownloadBytes source then (terminal.limitReached, none)
      else (terminal, none)
    | .failed err => (terminal, some (sanitizePortError err))

/-- `Follow`; `fuel` bounds its loop and the one of `fitLogEvent`. -/
def Follow (fuel : Nat) (service : LogService) (generation : String) (target : LogTarget)
    (query : LogQuery) (emit : Emitter) : Option StreamRun :=
  let terminal : FollowTerminal := { reason := "upstream_eof", generation }
  let opened : Except ReadError (LogQuery × LogTarget × Source StreamEnd) := do
    let normalized ← NormalizeLogQuery service query true
    let port ← portFor service generation target normalized
    let target := { target with container := normalized.container }
    let reader ← (port target (followOptions service normalized)).mapError sanitizePortError
    return (normalized, target, reader)
  match opened with
  | .error err => some ⟨[], terminal, some err⟩
  | .ok (normalized, target, source) =>
    streamLoop service (followRules service target source fuel) (normalized.timestamps.getD true)
      emit fuel (NewReader (source.limit (MaximumLogFollowBytes + 1) .eof)) [] 0 terminal

/-- `Download`; `fuel` as for `Follow`. -/
def Download (fuel : Nat) (service : LogService) (generation : String) (target : LogTarget)
    (query : LogQuery) (emit : Emitter) : Option StreamRun :=
  let terminal : FollowTerminal := { reason := "completed", generation }
  let opened : Except ReadError (LogQuery × Source StreamEnd) := do
    if query.since ≠ "" ∨ query.tailLines ≠ 0 then
      throw (validationError "log downloads do not accept tailLines or since")
    let normalized ← NormalizeLogQuery service query false
    let port ← portFor service generation target normalized
    let reader ← (port { target with container := normalized.container }
      (downloadOptions normalized)).mapError sanitizePortError
    return (normalized, reader)
  match opened with
  | .error err => some ⟨[], terminal, some err⟩
  | .ok (normalized, source) =>
    streamLoop service (downloadRules source fuel) (normalized.timestamps.getD true) emit fuel
      (NewReader (source.limit (MaximumLogDownloadBytes + 1) .eof)) [] 0 terminal

end Kubepeep.Logs
