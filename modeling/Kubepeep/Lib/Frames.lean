import Mathlib

/-!
# Framed streams

A stream of blocks, each with its end, that is read piece by piece.
-/

open List

namespace Kubepeep.Lib

/-- `next` cuts off the first block.  What comes later does not change where it ends. -/
structure Framing (α : Type) where
  next : List α → Option (List α × List α)
  stable : ∀ {text block rest} (more : List α), next text = some (block, rest) →
    next (text ++ more) = some (block, rest ++ more)
  shorter : ∀ {text block rest}, next text = some (block, rest) → rest.length < text.length

/-- A block with its end. -/
structure Frame {α : Type} (framing : Framing α) where
  text : List α
  block : List α
  ends : framing.next text = some (block, [])

variable {α σ ε : Type} (framing : Framing α) (handle : σ → List α → Except ε σ)

/-- Handle the complete blocks of a buffer.  The rest stays in the buffer. -/
def drain (state : σ) (buffer : List α) : Except ε (σ × List α) :=
  match _h : framing.next buffer with
  | none => .ok (state, buffer)
  | some (block, rest) => handle state block >>= fun state => drain state rest
termination_by buffer.length
decreasing_by exact framing.shorter _h

/-- The pieces are appended to the buffer one by one.  `admits` is asked before the blocks are taken
from the buffer, and `retains` is asked of what they leave. -/
def readLoop (admits retains : List α → Bool) (exceeded : σ → ε) :
    σ → List α → List (List α) → Except ε (σ × List α)
  | state, buffer, [] => .ok (state, buffer)
  | state, buffer, piece :: pieces =>
    if admits (buffer ++ piece) then
      drain framing handle state (buffer ++ piece) >>= fun (state, buffer) =>
        if retains buffer then readLoop admits retains exceeded state buffer pieces
        else .error (exceeded state)
    else
      .error (exceeded state)

variable {framing handle} {state state' : σ} {text more block rest : List α}

theorem drain_of_none (h : framing.next text = none) :
    drain framing handle state text = .ok (state, text) := by
  unfold drain
  split <;> simp_all

theorem drain_of_some (h : framing.next text = some (block, rest)) :
    drain framing handle state text =
      handle state block >>= fun state => drain framing handle state rest := by
  conv_lhs => unfold drain
  split <;> simp_all

theorem handled_of_drain {last : List α} (hnext : framing.next text = some (block, rest))
    (h : drain framing handle state text = .ok (state', last)) :
    ∃ handled, drain framing handle handled rest = .ok (state', last) := by
  rw [drain_of_some hnext] at h
  cases hblock : handle state block with
  | error => rw [hblock] at h; cases h
  | ok handled => exact ⟨handled, by rwa [hblock] at h⟩

/-- The blocks of a text do not depend on how much of it is there when they are taken. -/
theorem drain_append (state : σ) (text more : List α) :
    drain framing handle state (text ++ more) =
      drain framing handle state text >>= fun (state, rest) =>
        drain framing handle state (rest ++ more) := by
  fun_induction drain framing handle state text with
  | case1 => rfl
  | case2 state text block rest hnext ih =>
    rw [drain_of_some (framing.stable more hnext), bind_assoc]
    congr 1
    funext state
    exact ih state

theorem next_nil : framing.next [] = none := by
  cases h : framing.next [] with
  | none => rfl
  | some pair => exact absurd (framing.shorter h) (Nat.not_lt_zero _)

theorem next_of_drain (h : drain framing handle state text = .ok (state', rest)) :
    framing.next rest = none := by
  fun_induction drain framing handle state text with
  | case1 state text hnext =>
    cases h
    exact hnext
  | case2 state text block rest hnext ih =>
    cases hblock : handle state block with
    | error => rw [hblock] at h; cases h
    | ok state₁ => exact ih state₁ (by rwa [hblock] at h)

theorem drain_frames (frames : List (Frame framing)) (state : σ) :
    drain framing handle state (frames.flatMap Frame.text) =
      (·, []) <$> frames.foldlM (fun state frame => handle state frame.block) state := by
  induction frames generalizing state with
  | nil => exact drain_of_none next_nil
  | cons frame frames ih =>
    rw [flatMap_cons, drain_of_some (framing.stable _ frame.ends), foldlM_cons, map_bind]
    simp only [nil_append, ih]

/-- What is left of a part of a stream of frames is a part of one frame. -/
theorem rest_of_drain {frames : List (Frame framing)}
    (hstream : text ++ more = frames.flatMap Frame.text)
    (h : drain framing handle state text = .ok (state', rest)) :
    rest = [] ∨ ∃ frame ∈ frames, rest <+: frame.text := by
  induction frames generalizing state text with
  | nil =>
    obtain ⟨htext, -⟩ := append_eq_nil_iff.mp hstream
    rw [htext, drain_of_none next_nil] at h
    cases h
    exact .inl rfl
  | cons frame frames ih =>
    rcases append_eq_append_iff.mp hstream with ⟨tail, hframe, -⟩ | ⟨later, htext, hlater⟩
    · cases hnext : framing.next text with
      | none =>
        rw [drain_of_none hnext] at h
        cases h
        exact .inr ⟨frame, mem_cons_self, tail, hframe.symm⟩
      | some pair =>
        -- A block that ends in the frame ends with it.
        have hends := framing.stable tail hnext
        rw [← hframe, frame.ends] at hends
        have hnil : [] = pair.2 ++ tail := congrArg Prod.snd (Option.some.inj hends)
        obtain ⟨handled, hdrain⟩ := handled_of_drain hnext h
        rw [(nil_eq_append_iff.mp hnil).1, drain_of_none next_nil] at hdrain
        cases hdrain
        exact .inl rfl
    · rw [htext] at h
      obtain ⟨handled, hdrain⟩ := handled_of_drain (framing.stable later frame.ends) h
      rcases ih hlater.symm hdrain with hnil | ⟨other, hother, hpart⟩
      · exact .inl hnil
      · exact .inr ⟨other, mem_cons_of_mem _ hother, hpart⟩

variable {admits retains : List α → Bool} {exceeded : σ → ε}

theorem drain_ne_exceeded (hexceeded : ∀ state block state',
      handle state block ≠ .error (exceeded state')) (text : List α) :
    drain framing handle state text ≠ .error (exceeded state') := by
  fun_induction drain framing handle state text with
  | case1 => exact fun h => by cases h
  | case2 state text block rest hnext ih =>
    cases hblock : handle state block with
    | error err =>
      intro h
      cases h
      exact hexceeded state block state' hblock
    | ok state₁ => exact ih state₁

/-- Every piece is admitted that the loop comes to. -/
def Admitted (admits : List α → Bool) (framing : Framing α) (handle : σ → List α → Except ε σ)
    (state : σ) (buffer : List α) (pieces : List (List α)) : Prop :=
  ∀ before piece after state' rest, pieces = before ++ piece :: after →
    drain framing handle state (buffer ++ before.flatten) = .ok (state', rest) →
    admits (rest ++ piece)

theorem admitted_cons_iff {buffer piece : List α} {pieces : List (List α)}
    (hbuffer : framing.next buffer = none) :
    Admitted admits framing handle state buffer (piece :: pieces) ↔ admits (buffer ++ piece) ∧
      ∀ state' rest, drain framing handle state (buffer ++ piece) = .ok (state', rest) →
        Admitted admits framing handle state' rest pieces := by
  constructor
  · intro h
    refine ⟨h [] piece pieces state buffer rfl (by simp [drain_of_none hbuffer]), ?_⟩
    intro state₁ rest₁ hdrain before other after state' rest hpieces hok
    refine h (piece :: before) other after state' rest (by rw [hpieces]; rfl) ?_
    rw [flatten_cons, ← append_assoc, drain_append, hdrain]
    exact hok
  · rintro ⟨hfirst, hlater⟩ (_ | ⟨first, before⟩) other after state' rest hpieces hok
    · rw [flatten_nil, append_nil, drain_of_none hbuffer] at hok
      cases hpieces
      cases hok
      exact hfirst
    · cases hpieces
      rw [flatten_cons, ← append_assoc, drain_append] at hok
      cases hdrain : drain framing handle state (buffer ++ piece) with
      | error err => rw [hdrain] at hok; cases hok
      | ok pair =>
        rw [hdrain] at hok
        exact hlater pair.1 pair.2 hdrain before other after state' rest rfl hok

/-- However the text is cut into pieces, the loop does what `drain` does with all of it, unless a
buffer is too large. -/
theorem readLoop_eq_drain_iff {buffer : List α} {pieces : List (List α)}
    (hbuffer : framing.next buffer = none) (hexceeded : ∀ text, ¬admits text →
      ∀ state block state', handle state block ≠ .error (exceeded state'))
    (hretains : ∀ before after state' rest, pieces = before ++ after →
      drain framing handle state (buffer ++ before.flatten) = .ok (state', rest) → retains rest) :
    readLoop framing handle admits retains exceeded state buffer pieces =
        drain framing handle state (buffer ++ pieces.flatten) ↔
      Admitted admits framing handle state buffer pieces := by
  induction pieces generalizing state buffer with
  | nil => simp [readLoop, drain_of_none hbuffer, Admitted]
  | cons piece pieces ih =>
    rw [admitted_cons_iff hbuffer, flatten_cons, ← append_assoc, readLoop]
    by_cases hadmits : admits (buffer ++ piece)
    · rw [if_pos hadmits, drain_append state (buffer ++ piece)]
      cases hdrain : drain framing handle state (buffer ++ piece) with
      | error err => exact iff_of_true rfl ⟨hadmits, fun _ _ h => by cases h⟩
      | ok pair =>
        obtain ⟨state₁, rest₁⟩ := pair
        have hretained : retains rest₁ :=
          hretains [piece] pieces state₁ rest₁ rfl (by simpa using hdrain)
        have hiff := ih (next_of_drain hdrain) fun before after state' rest hpieces hok =>
          hretains (piece :: before) after state' rest (by rw [hpieces]; rfl) (by
            rw [flatten_cons, ← append_assoc, drain_append, hdrain]
            exact hok)
        show (if retains rest₁ then _ else _) = _ ↔ _
        rw [if_pos hretained]
        refine hiff.trans ⟨fun h => ⟨hadmits, ?_⟩, fun h => h.2 _ _ rfl⟩
        intro state' rest hok
        cases hok
        exact h
    · rw [if_neg hadmits]
      have hne := hexceeded _ hadmits
      exact iff_of_false (fun h => drain_ne_exceeded hne _ h.symm) fun h => hadmits h.1

end Kubepeep.Lib
