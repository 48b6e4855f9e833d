import Kubepeep.Web.EventStream

/-!
# Live updates

The read loop of `web/src/components/ResourceLiveUpdates.tsx`, for a stream that is not aborted.
What it does with an event that it goes on behind is left out; the event is recorded.
-/

open List

namespace Kubepeep.Web

open Kubepeep.Lib

/-- How the loop ends with an event. -/
inductive Stop where
  | failed (status : Nat) (code message : String)
  | typeError
  | polling (message : String)
  deriving DecidableEq

section

variable (parse : String → Option Json) (generation : String) (decode : Decode)

def otherGeneration (property : String → Option JsValue) : Bool :=
  match property "generation" with
  | some (.string value) => value != generation
  | _ => false

def handlePayload (event : SSEEvent) (property : String → Option JsValue) : Option Stop :=
  if otherGeneration generation property then
    some (.failed 409 "GENERATION_CHANGED" "The resource stream belongs to another generation.")
  else if event.event = "reset" then
    if property "reason" = some (.string "generation_changed") then
      some (.failed 409 "GENERATION_CHANGED" "The active selection changed.")
    else
      some (.polling ("Stream reset (" ++ orElse (property "reason") "state_lost" ++
        "). Refreshing automatically every 5 seconds."))
  else if event.event = "error" then
    let code := orElse (property "code") "STREAM_ERROR"
    if code = "FORBIDDEN" ∨ code = "AUTHORIZATION_UNAVAILABLE" then
      some (.polling (code ++
        ": live watch is unavailable. Refreshing automatically every 5 seconds."))
    else
      some (.failed 502 code (orElse (property "message") "The resource stream ended."))
  else
    none

def handleEvent (event : SSEEvent) : Option Stop :=
  match parse event.data with
  | none => some (.failed 502 "INVALID_RESPONSE" "The resource stream sent invalid JSON.")
  | some .null => some .typeError
  | some .primitive => handlePayload generation event fun _ => none
  | some (.object property) => handlePayload generation event property

/-- An error comes with the events so far; `none` is the one of the event buffer. -/
def handleBlock (processed : List SSEEvent) (block : Text) :
    Except (List SSEEvent × Option Stop) (List SSEEvent) :=
  match parseSSEBlock block with
  | none => .ok processed
  | some event =>
    match handleEvent parse generation event with
    | none => .ok (processed ++ [event])
    | some stop => .error (processed ++ [event], some stop)

def fitsBuffer (buffer : Text) : Bool := byteLength buffer ≤ 128 * 1024

/-- The events that are processed, and the buffer at the end of the stream. -/
def liveUpdates (chunks : List (List UInt8)) :
    Except (List SSEEvent × Option Stop) (List SSEEvent × Text) :=
  readLoop eventFraming (handleBlock parse generation) fitsBuffer (fun _ => true)
    (·, none) [] [] (texts decode [] chunks)

/-- The events one by one, without a buffer. -/
def processAll (frames : List (Frame eventFraming)) :
    Except (List SSEEvent × Option Stop) (List SSEEvent × Text) :=
  (·, []) <$>
    frames.foldlM (fun processed frame => handleBlock parse generation processed frame.block) []

def GoesOn (frame : Frame eventFraming) : Prop :=
  ∀ event, parseSSEBlock frame.block = some event → handleEvent parse generation event = none

variable {parse generation decode} {frames : List (Frame eventFraming)}

theorem foldlM_of_goesOn (h : ∀ frame ∈ frames, GoesOn parse generation frame)
    (processed : List SSEEvent) :
    frames.foldlM (fun processed frame => handleBlock parse generation processed frame.block)
      processed = .ok (processed ++ frames.filterMap (parseSSEBlock ·.block)) := by
  induction frames generalizing processed with
  | nil => simp [pure, Except.pure]
  | cons frame frames ih =>
    obtain ⟨hframe, hframes⟩ := forall_mem_cons.mp h
    rw [foldlM_cons, handleBlock]
    cases hevent : parseSSEBlock frame.block with
    | none =>
      simp only [filterMap_cons, hevent]
      exact ih hframes processed
    | some event =>
      simp only [filterMap_cons, hevent, hframe event hevent]
      rw [append_cons processed event (filterMap _ frames)]
      exact ih hframes (processed ++ [event])

theorem handleBlock_ne_exceeded (processed : List SSEEvent) (block : Text)
    (others : List SSEEvent) :
    handleBlock parse generation processed block ≠ .error (others, none) := by
  unfold handleBlock
  split
  · simp
  · split <;> simp

/-- If no event and no piece of the stream takes more than half of the buffer, it never
overflows. -/
theorem admitted_of_small {pieces : List Text}
    (hframes : ∀ frame ∈ frames, byteLength frame.text ≤ 64 * 1024)
    (hpieces : ∀ piece ∈ pieces, byteLength piece ≤ 64 * 1024)
    (hstream : pieces.flatten = frames.flatMap Frame.text) :
    Admitted fitsBuffer eventFraming (handleBlock parse generation) [] [] pieces := by
  intro before piece after state rest hsplit hdrain
  rw [hsplit, flatten_append] at hstream
  have hrest : byteLength rest ≤ 64 * 1024 := by
    rcases rest_of_drain hstream hdrain with hnil | ⟨frame, hframe, hpart⟩
    · rw [hnil]
      exact Nat.zero_le _
    · exact (byteLength_mono hpart).trans (hframes frame hframe)
  have hpiece := hpieces piece (hsplit ▸ mem_append_right _ mem_cons_self)
  have hlength : byteLength (rest ++ piece) = byteLength rest + byteLength piece := by
    rw [byteLength, map_append, sum_append]
    rfl
  rw [fitsBuffer, decide_eq_true_eq, hlength]
  omega

/-- The events of a stream are processed one by one exactly if, each time a chunk comes, it fits the
buffer with what is left of the chunks before. -/
theorem liveUpdates_eq_iff (hdecode : Streaming decode) {chunks : List (List UInt8)}
    (hbytes : decode [] chunks.flatten = frames.flatMap Frame.text) :
    (liveUpdates parse generation decode chunks = processAll parse generation frames ↔
      Admitted fitsBuffer eventFraming (handleBlock parse generation) [] []
        (texts decode [] chunks)) ∧
    ((∀ frame ∈ frames, GoesOn parse generation frame) →
      processAll parse generation frames =
        .ok (frames.filterMap (parseSSEBlock ·.block), [])) := by
  constructor
  · rw [processAll, ← drain_frames, ← hbytes, ← texts_flatten hdecode]
    exact readLoop_eq_drain_iff next_nil (fun _ _ => handleBlock_ne_exceeded)
      fun _ _ _ _ _ _ => rfl
  · intro h
    rw [processAll, foldlM_of_goesOn h]
    rfl

end

/-- The stream of two events, as its frames. -/
def shortUpdates : List (Frame eventFraming) :=
  [⟨"event: status\r\ndata: \x7b\"generation\":\"g\"\x7d\r\n\r\n".toList,
    "event: status\r\ndata: \x7b\"generation\":\"g\"\x7d".toList, by decide⟩, ping]

def shortUpdatesParse : String → Option Json :=
  parseTable [("\x7b\"generation\":\"g\"\x7d", [("generation", .string "g")]), ("\x7b\x7d", [])]

def shortUpdatesChunks : List (List UInt8) :=
  let bytes := encodeASCII (shortUpdates.flatMap Frame.text)
  [bytes.take 20, (bytes.drop 20).take 20, bytes.drop 40]

/-- The chunks end inside a line and inside the separator. -/
theorem liveUpdates_short :
    Admitted fitsBuffer eventFraming (handleBlock shortUpdatesParse "g") [] []
      (texts decodeASCII [] shortUpdatesChunks) ∧
    liveUpdates shortUpdatesParse "g" decodeASCII shortUpdatesChunks =
      processAll shortUpdatesParse "g" shortUpdates ∧
    processAll shortUpdatesParse "g" shortUpdates =
      .ok ([⟨"status", "\x7b\"generation\":\"g\"\x7d"⟩, ⟨"message", "\x7b\x7d"⟩], []) := by
  have hbytes : decodeASCII [] shortUpdatesChunks.flatten = shortUpdates.flatMap Frame.text := by
    decide
  have hadmitted := @admitted_of_small shortUpdatesParse "g" shortUpdates
    (texts decodeASCII [] shortUpdatesChunks) (by decide) (by decide)
    ((texts_flatten decodeASCII_streaming _).trans hbytes)
  have ⟨hiff, hgoesOn⟩ := @liveUpdates_eq_iff shortUpdatesParse "g" decodeASCII shortUpdates
    decodeASCII_streaming _ hbytes
  refine ⟨hadmitted, hiff.mpr hadmitted, hgoesOn ?_⟩
  intro frame hframe event hevent
  simp only [shortUpdates, mem_cons, not_mem_nil, or_false] at hframe
  rcases hframe with rfl | rfl
  · cases hevent
    rfl
  · cases hevent
    rfl

theorem ping_event : parseSSEBlock ping.block = some ⟨"message", "\x7b\x7d"⟩ := by
  decide

theorem liveUpdates_burst {n : Nat} (hn : 128 * 1024 < n * 9) :
    decodeASCII [] (encodeASCII ((replicate n ping).flatMap Frame.text)) =
      (replicate n ping).flatMap Frame.text ∧
    (∀ frame ∈ replicate n ping, GoesOn (fun _ => some .primitive) "g" frame) ∧
    liveUpdates (fun _ => some .primitive) "g" decodeASCII
      [encodeASCII ((replicate n ping).flatMap Frame.text)] = .error ([], none) := by
  have hdecode : decodeASCII [] (encodeASCII ((replicate n ping).flatMap Frame.text)) =
      (replicate n ping).flatMap Frame.text := by
    have htext : ping.text.map ((fun byte => Char.ofNat byte.toNat) ∘
        fun c => UInt8.ofNat c.toNat) = ping.text := by decide
    rw [flatMap_replicate, decodeASCII, encodeASCII, map_map, map_flatten, map_replicate, htext]
  refine ⟨hdecode, ?_, ?_⟩
  · intro frame hframe event h
    rw [eq_of_mem_replicate hframe, ping_event] at h
    cases h
    rfl
  · have hlength : byteLength ((replicate n ping).flatMap Frame.text) = n * 9 := by
      have hping : (ping.text.map Char.utf8Size).sum = 9 := by decide
      rw [byteLength, flatMap_replicate, map_flatten, map_replicate, sum_flatten, map_replicate,
        hping, sum_replicate, smul_eq_mul]
    have hexceeds : ¬fitsBuffer ((replicate n ping).flatMap Frame.text) := by
      rw [fitsBuffer, hlength, decide_eq_true_eq]
      omega
    rw [liveUpdates, texts, hdecode, readLoop, nil_append, if_neg hexceeds]

theorem burst_exceeds_buffer : ∃ (frames : List (Frame eventFraming)) (chunk : List UInt8),
    (∀ frame ∈ frames, byteLength frame.text ≤ 64 * 1024) ∧
    decodeASCII [] chunk = frames.flatMap Frame.text ∧
    (∀ frame ∈ frames, GoesOn (fun _ => some .primitive) "g" frame) ∧
    liveUpdates (fun _ => some .primitive) "g" decodeASCII [chunk] = .error ([], none) := by
  refine ⟨replicate 14564 ping, _, ?_, liveUpdates_burst (by norm_num)⟩
  intro frame hframe
  rw [eq_of_mem_replicate hframe]
  decide

end Kubepeep.Web
