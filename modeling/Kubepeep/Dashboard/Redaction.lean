import Kubepeep.Go.Regexp

/-!
# Private keys in scanned log lines

`scanTarget` (`internal/services/dashboard/logs.go`) passes each line it has read through
`redactPrivateKeyLogLine`, which keeps one bit from line to line, and reports the lines that the
detector picks.  The detector is a parameter.
-/

open List Kubepeep.Go

namespace Kubepeep.Dashboard

inductive LogReasonCode where
  | ErrorKeyword
  | JSONErrorLevel
  | JSONErrorField
  | StackTrace
  | OOM
  | Panic
  deriving DecidableEq, Repr

structure ResourceRef where
  apiGroup : String
  kind : String
  «namespace» : String
  name : String
  uid : String
  deriving DecidableEq, Repr

structure LogTarget where
  «namespace» : String
  pod : String
  container : String
  workload : Option ResourceRef
  deriving DecidableEq, Repr

structure BoundedLine where
  value : List Char
  truncated : Bool
  deriving DecidableEq, Repr

structure DetectedLogMatch where
  timestamp : Option String
  excerpt : List Char
  reasonCode : LogReasonCode
  redacted : Bool
  truncated : Bool
  deriving DecidableEq, Repr

structure LogMatchDTO where
  «namespace» : String
  pod : String
  container : String
  workload : Option ResourceRef
  timestamp : Option String
  excerpt : List Char
  reasonCode : LogReasonCode
  redacted : Bool
  truncated : Bool
  deriving DecidableEq, Repr

/-! ## The code -/

def isLabelHead (c : Char) : Bool := isUpper c || isDigit c

def isLabelChar (c : Char) : Bool := isLabelHead c || c == ' ' || c == '-'

def beginMark : String := "-----BEGIN "

def endMark : String := "-----END "

/-- `[A-Z0-9][A-Z0-9 -]*PRIVATE KEY(?: BLOCK)?-----` behind a mark. -/
def privateKeyLine (mark : String) : Regex :=
  sequence [text mark, .char isLabelHead, .star (.char isLabelChar), text "PRIVATE KEY",
    .alt (text " BLOCK") .empty, text "-----"]

def privateKeyBeginLine : Regex := privateKeyLine beginMark

def privateKeyEndLine : Regex := privateKeyLine endMark

def placeholder : List Char := "[REDACTED_PRIVATE_KEY]".toList

def redactPrivateKeyLogLine (value : List Char) (withinBlock : Bool) :
    (List Char × Bool) × Bool :=
  if withinBlock || privateKeyBeginLine.Match value then
    ((placeholder, true), !privateKeyEndLine.Match value)
  else
    ((value, false), withinBlock)

section Scan

variable (detect : List Char → Bool → Option DetectedLogMatch) (target : LogTarget)

def report (line : BoundedLine) (redaction : List Char × Bool) : Option LogMatchDTO :=
  (detect line.value line.truncated).map fun detected =>
    { «namespace» := target.namespace
      pod := target.pod
      container := target.container
      workload := target.workload
      timestamp := detected.timestamp
      excerpt := if redaction.2 then redaction.1 else detected.excerpt
      reasonCode := detected.reasonCode
      redacted := redaction.2 || detected.redacted
      truncated := detected.truncated }

def scanLines : List BoundedLine → Bool → List LogMatchDTO
  | [], _ => []
  | line :: lines, insidePrivateKey =>
    let (redaction, insidePrivateKey) := redactPrivateKeyLogLine line.value insidePrivateKey
    (report detect target line redaction).toList ++ scanLines lines insidePrivateKey

/-- The matches of `scanTarget` for the lines it has read. -/
def scanTarget (lines : List BoundedLine) : List LogMatchDTO :=
  scanLines detect target lines false

end Scan

end Kubepeep.Dashboard
