import Kubepeep.Resources.Types

/-!
# Composite cursors and the k-way merge

`internal/services/resources/cursor.go`: one native continuation and one buffer of un-emitted rows
per origin, and the merge that emits up to a page of them from the admitted origins.
-/

namespace Kubepeep.Resources

variable {T : Type}

structure OriginCursor (T : Type) where
  origin : Origin
  continueToken : String
  resourceVersion : String
  exhausted : Bool
  buffered : List T
  deriving DecidableEq, Repr

structure CompositeCursor (T : Type) where
  version : Int
  origins : List (OriginCursor T)
  deriving DecidableEq, Repr

def canonicalOrigins (origins : List Origin) : List Origin :=
  origins.insertionSort fun a b => a.Key ≤ b.Key

def NewCompositeCursor (T : Type) (origins : List Origin) : CompositeCursor T where
  version := 1
  origins := (canonicalOrigins origins).map fun origin => ⟨origin, "", "", false, []⟩

/-- The loop of `Validate` over the origins, with the keys seen so far. -/
def validateOrigins : List String → List (OriginCursor T × Origin) → Except ReadError Unit
  | _, [] => .ok ()
  | seen, (state, canonical) :: rest =>
    if state.origin.version = "" ∨ state.origin.resource = "" then
      .error (validationError "cursor origin is incomplete")
    else if state.origin.Key ∈ seen ∨ state.origin.Key ≠ canonical.Key then
      .error (validationError "cursor origins do not match this collection")
    else if state.continueToken.utf8ByteSize > MaximumCursorBytes then
      .error (validationError "upstream continue token is too large")
    else if state.exhausted = true ∧ state.continueToken ≠ "" then
      .error (validationError "exhausted cursor origin cannot have a continue token")
    else
      validateOrigins (state.origin.Key :: seen) rest

def CompositeCursor.Validate (cursor : CompositeCursor T) (expected : List Origin) :
    Except ReadError Unit :=
  if cursor.version ≠ 1 then
    .error (validationError "cursor state version is not supported")
  else if cursor.origins.length = 0 ∨ cursor.origins.length ≠ expected.length then
    .error (validationError "cursor origins do not match this collection")
  else
    validateOrigins [] (cursor.origins.zip (canonicalOrigins expected))

def CompositeCursor.Complete (cursor : CompositeCursor T) : Bool :=
  cursor.origins.all fun origin => origin.exhausted && origin.buffered.isEmpty

/-- `sort.SliceStable`; the comparators in use are strict weak orders. -/
def sortListItems (items : List T) (less : T → T → Bool) : List T :=
  items.insertionSort fun a b => !less b a

/-- The origin that the page of the merge belongs to, with its rows appended. -/
def OriginCursor.addPage (state : OriginCursor T) (page : OriginPage T) : OriginCursor T :=
  { state with
    buffered := state.buffered ++ page.items
    continueToken := page.continueToken
    resourceVersion := page.resourceVersion
    exhausted := page.continueToken == "" }

def OriginCursor.sorted (state : OriginCursor T) (less : T → T → Bool) : OriginCursor T :=
  { state with buffered := sortListItems state.buffered less }

/-- `originMergeHeap.Less` on two origins with rows. -/
def heapLess (less : T → T → Bool) (l r : Nat × T) : Bool :=
  if less l.2 r.2 then true else if less r.2 l.2 then false else decide (l.1 < r.1)

/-- The admitted origins with rows left, each with its first row: the content of the heap. -/
def candidates (admitted : String → Bool) (origins : List (OriginCursor T)) : List (Nat × T) :=
  origins.zipIdx.filterMap fun (state, index) =>
    if admitted state.origin.Key then state.buffered.head?.map (index, ·) else none

/-- `heap.Pop`: the least candidate. -/
def popLeast (less : T → T → Bool) : List (Nat × T) → Option (Nat × T)
  | [] => none
  | first :: rest =>
    some (rest.foldl (fun best next => if heapLess less next best then next else best) first)

/-- The emitting loop; every row keeps the index of its origin. -/
def mergeLoop (less : T → T → Bool) (admitted : String → Bool) :
    Nat → List (OriginCursor T) → List (Nat × T) × List (OriginCursor T)
  | 0, origins => ([], origins)
  | room + 1, origins =>
    match popLeast less (candidates admitted origins) with
    | none => ([], origins)
    | some (selected, row) =>
      let (rows, origins) := mergeLoop less admitted room
        (origins.modify selected fun state => { state with buffered := state.buffered.tail })
      ((selected, row) :: rows, origins)

/-- `mergeAuthorizedOriginPages`; a `nil` map admits every origin. -/
def mergeAuthorizedOriginPages (current : CompositeCursor T) (pages : List (OriginPage T))
    (limit : Int) (less : T → T → Bool) (allowed : Option (String → Bool)) :
    Except ReadError (List (Nat × T) × CompositeCursor T) :=
  if limit < 1 ∨ limit > MaximumListLimit then
    .error (validationError "merge arguments are invalid")
  else if ¬ (pages.map fun page => page.origin.Key).Nodup then
    .error (validationError "duplicate origin page")
  else
    let origins := current.origins.map fun state =>
      match pages.find? fun page => page.origin.Key == state.origin.Key with
      | some page => (state.addPage page).sorted less
      | none => state.sorted less
    let (rows, origins) := mergeLoop less (allowed.getD fun _ => true) limit.toNat origins
    .ok (rows, { version := current.version, origins })

end Kubepeep.Resources
