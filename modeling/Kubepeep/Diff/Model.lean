import Kubepeep.Go.Slice

/-!
# The last-applied diff

`DiffYAML` (`internal/services/resources/diff.go`): split both documents into lines, trim the
common prefix and suffix, run Myers' forward search over the middle, and walk the saved frontiers
back from the corner.  Every slice access is checked; `none` is a panic.
-/

open Kubepeep.Go

namespace Kubepeep.Diff

/-- A Go string: bytes, not necessarily UTF-8. -/
abbrev Line := List UInt8

def maximumDiffInputLines : Nat := 6000

def MaximumDiffLines : Nat := 4000

inductive DiffLineKind where
  | DiffSame
  | DiffAdded
  | DiffRemoved
  deriving DecidableEq, Repr

structure DiffLineDTO where
  kind : DiffLineKind
  text : Line
  deriving DecidableEq, Repr

structure LastAppliedDiffDTO where
  absent : Bool
  truncated : Bool
  lines : List DiffLineDTO
  deriving DecidableEq, Repr

inductive DiffOperationKind where
  | opSame
  | opInsert
  | opDelete
  deriving DecidableEq, Repr

structure DiffOperation where
  kind : DiffOperationKind
  text : Line
  deriving DecidableEq, Repr

/-! ## Lines -/

/-- `strings.ReplaceAll(text, "\r\n", "\n")` -/
def replaceCRLF : List UInt8 → List UInt8
  | 13 :: 10 :: rest => 10 :: replaceCRLF rest
  | byte :: rest => byte :: replaceCRLF rest
  | [] => []

/-- `strings.TrimSuffix(text, "\n")` -/
def trimNewline (text : List UInt8) : List UInt8 :=
  if text.getLast? = some 10 then text.dropLast else text

def splitLines (value : List UInt8) : List Line :=
  let text := replaceCRLF value
  if text = [] then [[]] else (trimNewline text).splitOn 10

/-! ## The forward search -/

/-- The guard `k == -d || (k != d && v[k-1+offset] < v[k+1+offset])`, which the forward search and
the backtrack both evaluate. -/
def takesInsertion (vertical : List Int) (offset d k : Int) : Option Bool :=
  if k = -d then
    some true
  else if k = d then
    some false
  else do
    let left ← Slice.get vertical (k - 1 + offset)
    let right ← Slice.get vertical (k + 1 + offset)
    return decide (left < right)

def entryX (vertical : List Int) (offset d k : Int) : Option Int := do
  if ← takesInsertion vertical offset d k then
    Slice.get vertical (k + 1 + offset)
  else
    let left ← Slice.get vertical (k - 1 + offset)
    return left + 1

/-- `for x < n && y < m && previous[x] == current[y]`; the fuel is `n - x`. -/
def advance (previous current : List Line) : Nat → Int → Int → Option (Int × Int)
  | 0, x, y => some (x, y)
  | fuel + 1, x, y =>
    if x < previous.length ∧ y < current.length then do
      let a ← Slice.get previous x
      let b ← Slice.get current y
      if a = b then advance previous current fuel (x + 1) (y + 1) else some (x, y)
    else
      some (x, y)

/-- The inner loop of round `d` over the remaining diagonals `k, k + 2, ..`; the flag says whether
the corner was met. -/
def myersRound (previous current : List Line) (offset d : Int) :
    Nat → Int → List Int → Option (List Int × Bool)
  | 0, _, vertical => some (vertical, false)
  | remaining + 1, k, vertical => do
    let start ← entryX vertical offset d k
    let (x, y) ← advance previous current (previous.length - start).toNat start (start - k)
    let vertical ← Slice.set vertical (k + offset) x
    if x ≥ previous.length ∧ y ≥ current.length then
      return (vertical, true)
    else
      myersRound previous current offset d remaining (k + 2) vertical

/-- The outer loop: the trace when the corner is met, `some none` when the rounds run out. -/
def myersSearch (previous current : List Line) (offset : Int) :
    Nat → Nat → List Int → List (List Int) → Option (Option (List (List Int)))
  | 0, _, _, _ => some none
  | rounds + 1, d, vertical, trace => do
    let (vertical, met) ← myersRound previous current offset d (d + 1) (-d) vertical
    let trace := trace ++ [vertical]
    if met then
      return some trace
    else
      myersSearch previous current offset rounds (d + 1) vertical trace

/-! ## The backtrack -/

/-- `for x > previousX && y > previousY`; the fuel is `x - previousX`. -/
def retreat (previous : List Line) (previousX previousY : Int) :
    Nat → Int → Int → Option (List DiffOperation × Int × Int)
  | 0, x, y => some ([], x, y)
  | fuel + 1, x, y =>
    if x > previousX ∧ y > previousY then do
      let text ← Slice.get previous (x - 1)
      let (operations, x, y) ← retreat previous previousX previousY fuel (x - 1) (y - 1)
      return (⟨.opSame, text⟩ :: operations, x, y)
    else
      some ([], x, y)

/-- The loop `for d := len(trace) - 2; d >= 0; d--`, in the order the operations are appended. -/
def backtrackLoop (trace : List (List Int)) (previous current : List Line) :
    Nat → Int → Int → Option (List DiffOperation)
  | 0, _, _ => some []
  | d + 1, x, y => do
    let offset : Int := previous.length + current.length
    let snapshot ← Slice.get trace d
    let k := x - y
    let previousK := if ← takesInsertion snapshot offset d k then k + 1 else k - 1
    let previousX ← Slice.get snapshot (previousK + offset)
    let previousY := previousX - previousK
    let (same, x, y) ← retreat previous previousX previousY (x - previousX).toNat x y
    if x = previousX then
      let text ← Slice.get current previousY
      let rest ← backtrackLoop trace previous current d x (y - 1)
      return same ++ ⟨.opInsert, text⟩ :: rest
    else
      let text ← Slice.get previous (x - 1)
      let rest ← backtrackLoop trace previous current d (x - 1) y
      return same ++ ⟨.opDelete, text⟩ :: rest

def myersBacktrack (trace : List (List Int)) (previous current : List Line) :
    Option (List DiffOperation) := do
  let operations ←
    backtrackLoop trace previous current (trace.length - 1) previous.length current.length
  return operations.reverse

def myersMiddle (previous current : List Line) : Option (List DiffOperation) := do
  let max := previous.length + current.length
  if max = 0 then
    return []
  match ← myersSearch previous current max (max + 1) 0 (List.replicate (2 * max + 1) 0) [] with
  | some trace => myersBacktrack trace previous current
  | none => return previous.map (⟨.opDelete, ·⟩) ++ current.map (⟨.opInsert, ·⟩)

/-! ## Trimming and rendering -/

/-- The length of the common prefix: both trimming loops count equal lines from one end. -/
def commonPrefix : List Line → List Line → Nat
  | a :: as, b :: bs => if a = b then commonPrefix as bs + 1 else 0
  | _, _ => 0

structure Trimmed where
  head : Nat
  tail : Nat
  previous : List Line
  current : List Line

def trim (previous current : List Line) : Trimmed :=
  let head := commonPrefix previous current
  let tail := commonPrefix (previous.drop head).reverse (current.drop head).reverse
  { head
    tail
    previous := (previous.drop head).take (previous.length - tail - head)
    current := (current.drop head).take (current.length - tail - head) }

def myersDiff (previous current : List Line) : Option (List DiffOperation) := do
  if previous.length + current.length = 0 then
    return []
  let trimmed := trim previous current
  let head := (previous.take trimmed.head).map (⟨.opSame, ·⟩)
  let middle ← myersMiddle trimmed.previous trimmed.current
  let tail := (previous.drop (previous.length - trimmed.tail)).map (⟨.opSame, ·⟩)
  return head ++ middle ++ tail

def DiffOperation.line (op : DiffOperation) : DiffLineDTO :=
  match op.kind with
  | .opSame => ⟨.DiffSame, op.text⟩
  | .opInsert => ⟨.DiffAdded, op.text⟩
  | .opDelete => ⟨.DiffRemoved, op.text⟩

def renderLoop : List DiffOperation → List DiffLineDTO → List DiffLineDTO × Bool
  | [], lines => (lines, false)
  | op :: ops, lines =>
    if lines.length ≥ MaximumDiffLines then (lines, true)
    else renderLoop ops (lines ++ [op.line])

def DiffYAML (current previous : List UInt8) : Option LastAppliedDiffDTO := do
  let currentLines := (splitLines current).take maximumDiffInputLines
  let previousLines := (splitLines previous).take maximumDiffInputLines
  let ops ← myersDiff previousLines currentLines
  let (lines, truncated) := renderLoop ops []
  return { absent := false, truncated, lines }

end Kubepeep.Diff
