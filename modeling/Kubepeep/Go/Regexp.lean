import Mathlib

/-!
# Patterns

Regular expressions over runes, and whether a text has a match.  A byte that is not UTF-8 is read as
U+FFFD.
-/

namespace Kubepeep.Go

inductive Regex where
  | empty
  | char (accepts : Char → Bool)
  | cat (first second : Regex)
  | alt (first second : Regex)
  | star (body : Regex)

namespace Regex

/-- Any number of steps, each of which reads something. -/
def iterate (step : List Char → List (List Char)) : Nat → List Char → List (List Char)
  | 0, text => [text]
  | fuel + 1, text =>
    text :: ((step text).filter fun rest => rest.length < text.length).flatMap (iterate step fuel)

/-- What can be left of a text behind a match at its start. -/
def rests : Regex → List Char → List (List Char)
  | .empty, text => [text]
  | .char _, [] => []
  | .char accepts, c :: rest => if accepts c then [rest] else []
  | .cat first second, text => (first.rests text).flatMap second.rests
  | .alt first second, text => first.rests text ++ second.rests text
  | .star body, text => iterate body.rests text.length text

def Match (regex : Regex) (text : List Char) : Bool :=
  text.tails.any fun tail => !(regex.rests tail).isEmpty

end Regex

def isUpper (c : Char) : Bool := 'A'.toNat ≤ c.toNat && c.toNat ≤ 'Z'.toNat

def isDigit (c : Char) : Bool := '0'.toNat ≤ c.toNat && c.toNat ≤ '9'.toNat

def text (word : String) : Regex :=
  word.toList.foldr (fun c rest => .cat (.char (· == c)) rest) .empty

def sequence (parts : List Regex) : Regex := parts.foldr .cat .empty

end Kubepeep.Go
