import Mathlib

/-!
# `encoding/json` strings

`json.Marshal` writes a Go string between quotes, escaping quotes, backslashes, control bytes,
the three HTML characters and the two JavaScript line separators.  Everything else is copied.
-/

open String

namespace Kubepeep.Go.Json

def hexDigit (n : Nat) : String :=
  singleton (Nat.digitChar n)

/-- One rune as `appendString` writes it (HTML escaping on, as in `json.Marshal`). -/
def escapeRune (c : Char) : String :=
  match c.toNat with
  | 0x22 => "\\\""
  | 0x5c => "\\\\"
  | 0x08 => "\\b"
  | 0x0c => "\\f"
  | 0x0a => "\\n"
  | 0x0d => "\\r"
  | 0x09 => "\\t"
  | 0x2028 => "\\u2028"
  | 0x2029 => "\\u2029"
  | code =>
    if code < 0x20 ∨ code = 0x3c ∨ code = 0x3e ∨ code = 0x26 then
      "\\u00" ++ hexDigit (code / 16) ++ hexDigit (code % 16)
    else
      singleton c

def escapeRunes : List Char → String
  | [] => ""
  | c :: cs => escapeRune c ++ escapeRunes cs

def marshalString (s : String) : String :=
  "\"" ++ escapeRunes s.toList ++ "\""

/-- A `*string` field: `nil` is `null`. -/
def marshalStringPtr : Option String → String
  | none => "null"
  | some s => marshalString s

def marshalBool (b : Bool) : String :=
  if b then "true" else "false"

theorem escapeRunes_append (l r : List Char) :
    escapeRunes (l ++ r) = escapeRunes l ++ escapeRunes r := by
  induction l with
  | nil => simp [escapeRunes]
  | cons c cs ih => rw [List.cons_append, escapeRunes, ih, escapeRunes, append_assoc]

theorem escapeRunes_size_replicate (c : Char) (n : Nat) :
    (escapeRunes (List.replicate n c)).utf8ByteSize = n * (escapeRune c).utf8ByteSize := by
  induction n with
  | zero => simp [escapeRunes]
  | succ n ih =>
    rw [List.replicate_succ, escapeRunes, utf8ByteSize_append, ih]
    rw [Nat.succ_mul, Nat.add_comm]

theorem marshalString_size (s : String) :
    (marshalString s).utf8ByteSize = (escapeRunes s.toList).utf8ByteSize + 2 := by
  unfold marshalString
  rw [utf8ByteSize_append, utf8ByteSize_append]
  rw [show "\"".utf8ByteSize = 1 from rfl]
  omega

end Kubepeep.Go.Json
