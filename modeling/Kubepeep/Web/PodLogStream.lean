import Kubepeep.Web.EventStream

/-!
# The log stream of a container

`consumeAggregateStream` of `web/src/components/resource/podLogStream.ts` from its first chunk on,
for a signal that is not aborted.
-/

open List

namespace Kubepeep.Web

open Kubepeep.Lib

structure LogTarget where
  pod : String
  container : String

structure AggregatedLogLine extends LogTarget where
  timestamp : Option String
  text : String
  truncated : Bool

structure LogTerminal where
  reason : String
  truncated : Bool

structure APIError where
  status : Nat
  code : String
  message : String

/-- The lines that `onLine` has got, and how the promise is settled. -/
abbrev Settled := List AggregatedLogLine × Except APIError LogTerminal

structure LogState where
  metaSeen : Bool
  lines : List AggregatedLogLine

def LogState.fail (state : LogState) (error : APIError) : Except Settled LogState :=
  .error (state.lines, .error error)

def invalidResponse (message : String) : APIError := ⟨502, "INVALID_RESPONSE", message⟩

def JsValue.string? : JsValue → Option String
  | string value => some value
  | _ => none

section

variable (parse : String → Option Json) (target : LogTarget) (generation : String)
  (decode : Decode)

def deliver (state : LogState) (event : SSEEvent) (property : String → Option JsValue) :
    Except Settled LogState :=
  if event.event ∈ ["meta", "heartbeat", "end"] ∧
      property "generation" ≠ some (.string generation) then
    state.fail ⟨409, "GENERATION_CHANGED", "The log stream generation changed."⟩
  else if event.event = "meta" then
    .ok { state with metaSeen := true }
  else if event.event = "line" then
    if !state.metaSeen then
      state.fail (invalidResponse "The log stream sent data before metadata.")
    else
      let text := ((property "text").bind JsValue.string?).getD ""
      let line := ⟨target, (property "timestamp").bind JsValue.string?, text,
        property "truncated" = some .true⟩
      .ok { state with lines := state.lines ++ [line] }
  else if event.event = "error" then
    state.fail ⟨502, orElse (property "code") "STREAM_ERROR",
      orElse (property "message") "The log stream ended."⟩
  else if event.event = "end" then
    if !state.metaSeen then
      state.fail (invalidResponse "The log stream ended before metadata.")
    else
      .error (state.lines, .ok ⟨orElse (property "reason") "upstream_eof",
        property "truncated" = some .true⟩)
  else
    .ok state

def deliverBlock (state : LogState) (block : Text) : Except Settled LogState :=
  match parseSSEBlock block with
  | none => .ok state
  | some event =>
    match parse event.data with
    | some (.object property) => deliver target generation state event property
    | _ => state.fail (invalidResponse "Invalid log stream event.")

def fitsEventBuffer (text : Text) : Bool := byteLength text ≤ 136 * 1024

def exceededBuffer : APIError := invalidResponse "The log stream exceeded the event buffer."

def boundedBlock (state : LogState) (block : Text) : Except Settled LogState :=
  if fitsEventBuffer block then deliverBlock parse target generation state block
  else state.fail exceededBuffer

/-- `chunk.value.subarray(offset, offset + 32 * 1024)` for every offset of the loop. -/
def slices (chunk : List UInt8) : List (List UInt8) :=
  if _h : chunk = [] then [] else chunk.take (32 * 1024) :: slices (chunk.drop (32 * 1024))
termination_by chunk.length
decreasing_by
  have := length_pos_iff.mpr _h
  rw [length_drop]
  omega

/-- The end of the stream is a terminal of its own. -/
def settle : Except Settled (LogState × Text) → Settled
  | .ok (state, _) => (state.lines, .ok ⟨"upstream_eof", false⟩)
  | .error settled => settled

def consumeAggregateStream (chunks : List (List UInt8)) : Settled :=
  settle (readLoop eventFraming (boundedBlock parse target generation) (fun _ => true)
    fitsEventBuffer (fun state => (state.lines, .error exceededBuffer)) ⟨false, []⟩ []
    (texts decode [] (chunks.flatMap slices)))

/-- The events one by one, without a buffer. -/
def deliverAll (frames : List (Frame eventFraming)) : Settled :=
  settle ((·, []) <$> frames.foldlM
    (fun state frame => deliverBlock parse target generation state frame.block) ⟨false, []⟩)

variable {parse target generation decode} {frames : List (Frame eventFraming)}

theorem slices_flatten (chunk : List UInt8) : (slices chunk).flatten = chunk := by
  fun_induction slices chunk with
  | case1 => rfl
  | case2 chunk h ih => rw [flatten_cons, ih, take_append_drop]

theorem slices_flatMap_flatten (chunks : List (List UInt8)) :
    (chunks.flatMap slices).flatten = chunks.flatten := by
  induction chunks with
  | nil => rfl
  | cons chunk chunks ih =>
    rw [flatMap_cons, flatten_append, slices_flatten, ih, flatten_cons]

theorem byteLength_frame (frame : Frame eventFraming) :
    byteLength frame.text ≤ byteLength frame.block + 4 := by
  obtain ⟨mark, hmark, htext⟩ := nextBlock_eq_some frame.ends
  have hlength := (separators_length mark hmark).1
  rw [htext, append_nil, byteLength, map_append, sum_append]
  exact Nat.add_le_add_left hlength _

theorem foldlM_boundedBlock (hsize : ∀ frame ∈ frames, fitsEventBuffer frame.block)
    (state : LogState) :
    frames.foldlM (fun state frame => boundedBlock parse target generation state frame.block)
        state =
      frames.foldlM (fun state frame => deliverBlock parse target generation state frame.block)
        state := by
  induction frames generalizing state with
  | nil => rfl
  | cons frame frames ih =>
    obtain ⟨hframe, hframes⟩ := forall_mem_cons.mp hsize
    rw [foldlM_cons, foldlM_cons, boundedBlock, if_pos hframe]
    congr 1
    funext state
    exact ih hframes state

/-- However the bytes are cut into chunks, events of at most 136 KiB are delivered one by one. -/
theorem consumeAggregateStream_eq (hdecode : Streaming decode)
    (hsize : ∀ frame ∈ frames, byteLength frame.block ≤ 136 * 1024 - 4)
    {chunks : List (List UInt8)} (hbytes : decode [] chunks.flatten = frames.flatMap Frame.text) :
    consumeAggregateStream parse target generation decode chunks =
      deliverAll parse target generation frames := by
  have hpieces : (texts decode [] (chunks.flatMap slices)).flatten = frames.flatMap Frame.text := by
    rw [texts_flatten hdecode, ← hbytes, slices_flatMap_flatten]
  have hretains : ∀ before after state rest,
      texts decode [] (chunks.flatMap slices) = before ++ after →
      drain eventFraming (boundedBlock parse target generation) ⟨false, []⟩
        ([] ++ before.flatten) = .ok (state, rest) → fitsEventBuffer rest := by
    intro before after state rest hsplit hdrain
    rw [hsplit, flatten_append] at hpieces
    rw [fitsEventBuffer, decide_eq_true_eq]
    rcases rest_of_drain hpieces hdrain with hnil | ⟨frame, hframe, hpart⟩
    · rw [hnil]
      exact Nat.zero_le _
    · have hblock := hsize frame hframe
      exact (byteLength_mono hpart).trans ((byteLength_frame frame).trans (by omega))
  have hblocks : ∀ frame ∈ frames, fitsEventBuffer frame.block := by
    intro frame hframe
    have hblock := hsize frame hframe
    rw [fitsEventBuffer, decide_eq_true_eq]
    omega
  rw [consumeAggregateStream, (readLoop_eq_drain_iff next_nil ?_ hretains).mpr ?_, nil_append,
    hpieces, drain_frames, foldlM_boundedBlock hblocks]
  · rfl
  · exact fun _ h => absurd rfl h
  · exact fun _ _ _ _ _ _ _ => rfl

end

/-- The stream of two log lines, as its frames. -/
def shortLog : List (Frame eventFraming) :=
  [⟨"event: meta\ndata: \x7b\"generation\":\"g\"\x7d\n\n".toList,
      "event: meta\ndata: \x7b\"generation\":\"g\"\x7d".toList, by decide⟩,
    ⟨"event: line\ndata: \x7b\"text\":\"up\"\x7d\n\n".toList,
      "event: line\ndata: \x7b\"text\":\"up\"\x7d".toList, by decide⟩,
    ⟨"event: line\r\ndata: \x7b\"text\":\"down\"\x7d\r\n\r\n".toList,
      "event: line\r\ndata: \x7b\"text\":\"down\"\x7d".toList, by decide⟩,
    ⟨"event: end\ndata: \x7b\"generation\":\"g\",\"reason\":\"deadline\"\x7d\n\n".toList,
      "event: end\ndata: \x7b\"generation\":\"g\",\"reason\":\"deadline\"\x7d".toList, by decide⟩]

def shortLogParse : String → Option Json :=
  parseTable [("\x7b\"generation\":\"g\"\x7d", [("generation", .string "g")]),
    ("\x7b\"text\":\"up\"\x7d", [("text", .string "up")]),
    ("\x7b\"text\":\"down\"\x7d", [("text", .string "down")]),
    ("\x7b\"generation\":\"g\",\"reason\":\"deadline\"\x7d",
      [("generation", .string "g"), ("reason", .string "deadline")])]

def shortLogBytes : List UInt8 := encodeASCII (shortLog.flatMap Frame.text)

/-- The chunks end inside a line and between the two line ends of a separator. -/
theorem consumeAggregateStream_short :
    consumeAggregateStream shortLogParse ⟨"web-0", "web"⟩ "g" decodeASCII
        [shortLogBytes.take 20, (shortLogBytes.drop 20).take 16, shortLogBytes.drop 36] =
      deliverAll shortLogParse ⟨"web-0", "web"⟩ "g" shortLog ∧
    deliverAll shortLogParse ⟨"web-0", "web"⟩ "g" shortLog =
      ([⟨⟨"web-0", "web"⟩, none, "up", false⟩, ⟨⟨"web-0", "web"⟩, none, "down", false⟩],
        .ok ⟨"deadline", false⟩) := by
  exact ⟨consumeAggregateStream_eq decodeASCII_streaming (by decide) (by decide +kernel), rfl⟩

end Kubepeep.Web
