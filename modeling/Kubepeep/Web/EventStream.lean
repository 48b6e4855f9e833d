import Kubepeep.Go.Unicode
import Kubepeep.Lib.Frames

/-!
# Server-sent events in the user interface

What `web/src/components/ResourceLiveUpdates.tsx` and `resource/podLogStream.ts` share: the search
for the end of a block, `parseSSEBlock`, and the streaming use of `TextDecoder`.
-/

open List

namespace Kubepeep.Web

open Kubepeep.Lib

/-- A string without lone surrogates, as a `TextDecoder` makes it. -/
abbrev Text := List Char

/-- `new TextEncoder().encode(text).byteLength` -/
def byteLength (text : Text) : Nat := (text.map Char.utf8Size).sum

/-- The text behind a match of `\r?\n\r?\n` at its start. -/
def separated : Text → Option Text
  | '\r' :: '\n' :: '\r' :: '\n' :: rest => some rest
  | '\r' :: '\n' :: '\n' :: rest => some rest
  | '\n' :: '\r' :: '\n' :: rest => some rest
  | '\n' :: '\n' :: rest => some rest
  | _ => none

/-- The text before the first match, and the text behind it. -/
def nextBlock : Text → Option (Text × Text)
  | [] => none
  | c :: text =>
    match separated (c :: text) with
    | some rest => some ([], rest)
    | none => (nextBlock text).map fun (block, rest) => (c :: block, rest)

/-- `block.split(/\r?\n/)` -/
def splitLines : Text → List Text
  | [] => [[]]
  | '\r' :: '\n' :: rest => [] :: splitLines rest
  | '\n' :: rest => [] :: splitLines rest
  | c :: rest => (splitLines rest).modifyHead (c :: ·)

/-- What `trimStart` drops. -/
def isTrimmed (c : Char) : Bool := (Go.IsSpace c && c.toNat != 0x85) || c.toNat == 0xfeff

def field? (name : String) (line : Text) : Option Text :=
  if name.toList.isPrefixOf line then some ((line.drop name.length).dropWhile isTrimmed) else none

structure SSEEvent where
  event : String
  data : String
  deriving DecidableEq

/-- A line with a comment is neither of the two. -/
def parseSSEBlock (block : Text) : Option SSEEvent :=
  let events := (splitLines block).filterMap (field? "event:")
  let data := (splitLines block).filterMap (field? "data:")
  if data = [] then none
  else some ⟨.ofList (events.getLastD "message".toList), .ofList (intercalate ['\n'] data)⟩

/-- A property that is neither null nor undefined.  `other` has its text. -/
inductive JsValue where
  | string (value : String)
  | true
  | other (text : String)
  deriving DecidableEq

def JsValue.text : JsValue → String
  | string value => value
  | true => "true"
  | other text => text

/-- `String(value ?? fallback)` -/
def orElse (value : Option JsValue) (fallback : String) : String :=
  (value.map JsValue.text).getD fallback

/-- A result of `JSON.parse`. -/
inductive Json where
  | null
  | primitive
  | object (property : String → Option JsValue)

/-- `decode before chunk` is what `decode(chunk, { stream: true })` returns behind the bytes
`before`. -/
abbrev Decode := List UInt8 → List UInt8 → Text

/-- Decoding in pieces is decoding the concatenation. -/
def Streaming (decode : Decode) : Prop :=
  ∀ before chunk, decode [] (before ++ chunk) = decode [] before ++ decode before chunk

def texts (decode : Decode) : List UInt8 → List (List UInt8) → List Text
  | _, [] => []
  | before, chunk :: chunks => decode before chunk :: texts decode (before ++ chunk) chunks

theorem append_texts_flatten {decode : Decode} (h : Streaming decode) (before : List UInt8)
    (chunks : List (List UInt8)) : decode [] before ++ (texts decode before chunks).flatten =
      decode [] (before ++ chunks.flatten) := by
  induction chunks generalizing before with
  | nil => simp [texts]
  | cons chunk chunks ih =>
    rw [texts, flatten_cons, ← append_assoc, ← h, ih, flatten_cons, append_assoc]

theorem texts_flatten {decode : Decode} (h : Streaming decode) (chunks : List (List UInt8)) :
    (texts decode [] chunks).flatten = decode [] chunks.flatten := by
  have hnil : decode [] [] = [] := self_eq_append_right.mp (h [] [])
  simpa [hnil] using append_texts_flatten h [] chunks

def separators : List String := ["\r\n\r\n", "\r\n\n", "\n\r\n", "\n\n"]

theorem separated_eq_some {text rest : Text} (h : separated text = some rest) :
    ∃ mark ∈ separators, text = mark.toList ++ rest := by
  unfold separated at h
  split at h <;> cases h <;> simp [separators]

theorem separated_append {text rest : Text} (more : Text) (h : separated text = some rest) :
    separated (text ++ more) = some (rest ++ more) := by
  unfold separated at h
  split at h <;> cases h <;> rfl

/-- A separator that only later text completes is behind the first block. -/
theorem separated_late {c : Char} {text : Text} (more : Text) (h : separated (c :: text) = none)
    (hnext : nextBlock text ≠ none) : separated (c :: (text ++ more)) = none := by
  by_contra hlate
  obtain ⟨rest, hrest⟩ := Option.ne_none_iff_exists'.mp hlate
  obtain ⟨mark, hmark, htext⟩ := separated_eq_some hrest
  -- Behind the first character, three more are enough for any of the marks.
  rcases text with _ | ⟨a, _ | ⟨b, _ | ⟨d, text⟩⟩⟩ <;>
    simp only [separators, mem_cons, not_mem_nil, or_false] at hmark <;>
    rcases hmark with rfl | rfl | rfl | rfl <;> simp at htext <;>
    simp_all [separated, nextBlock]

theorem nextBlock_cons {c : Char} {text block rest : Text}
    (h : nextBlock (c :: text) = some (block, rest)) :
    separated (c :: text) = some rest ∧ block = [] ∨ separated (c :: text) = none ∧
      ∃ later, nextBlock text = some (later, rest) ∧ block = c :: later := by
  rw [nextBlock] at h
  cases hseparated : separated (c :: text) with
  | some behind =>
    rw [hseparated] at h
    cases h
    exact .inl ⟨rfl, rfl⟩
  | none =>
    rw [hseparated] at h
    obtain ⟨pair, hnext, hpair⟩ := Option.map_eq_some_iff.mp h
    cases hpair
    exact .inr ⟨rfl, pair.1, hnext, rfl⟩

theorem nextBlock_append {text block rest : Text} (more : Text)
    (h : nextBlock text = some (block, rest)) :
    nextBlock (text ++ more) = some (block, rest ++ more) := by
  induction text generalizing block with
  | nil => cases h
  | cons c text ih =>
    rw [cons_append, nextBlock]
    rcases nextBlock_cons h with ⟨hseparated, hblock⟩ | ⟨hseparated, later, hnext, hblock⟩
    · rw [← cons_append, separated_append more hseparated, hblock]
    · rw [separated_late more hseparated (by simp [hnext]), ih hnext, hblock]
      rfl

theorem nextBlock_eq_some {text block rest : Text} (h : nextBlock text = some (block, rest)) :
    ∃ mark ∈ separators, text = block ++ mark.toList ++ rest := by
  induction text generalizing block with
  | nil => cases h
  | cons c text ih =>
    rcases nextBlock_cons h with ⟨hseparated, hblock⟩ | ⟨-, later, hnext, hblock⟩
    · rw [hblock]
      exact separated_eq_some hseparated
    · obtain ⟨mark, hmark, htext⟩ := ih hnext
      exact ⟨mark, hmark, by rw [hblock, htext]; rfl⟩

theorem byteLength_mono {text whole : Text} (h : text <+: whole) :
    byteLength text ≤ byteLength whole := by
  obtain ⟨rest, hrest⟩ := h
  rw [← hrest, byteLength, byteLength, map_append, sum_append]
  exact Nat.le_add_right _ _

theorem separators_length : ∀ mark ∈ separators,
    byteLength mark.toList ≤ 4 ∧ 0 < mark.toList.length := by
  decide

def eventFraming : Framing Char where
  next := nextBlock
  stable := nextBlock_append
  shorter h := by
    obtain ⟨mark, hmark, htext⟩ := nextBlock_eq_some h
    have hlength := (separators_length mark hmark).2
    rw [htext, length_append, length_append]
    omega

def ping : Frame eventFraming := ⟨"data:\x7b\x7d\n\n".toList, "data:\x7b\x7d".toList, by decide⟩

def decodeASCII : Decode := fun _ chunk => chunk.map fun byte => Char.ofNat byte.toNat

theorem decodeASCII_streaming : Streaming decodeASCII := fun _ _ => map_append

def encodeASCII (text : Text) : List UInt8 := text.map fun c => UInt8.ofNat c.toNat

/-- `JSON.parse` for the texts of a table, which are objects with these properties. -/
def parseTable (table : List (String × List (String × JsValue))) (data : String) : Option Json :=
  (table.lookup data).map fun fields => .object (fields.lookup ·)

end Kubepeep.Web
