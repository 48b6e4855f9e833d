import Kubepeep.Go.Bufio
import Kubepeep.Lib.Effect
import Kubepeep.Updater.Install

/-!
# The executable of a release

The middle of `Update` (`internal/updater/updater.go`): the checksums and the archive are downloaded
from one release, the archive is compared with its checksum, and the executable is taken out of it.
The HTTP client and the formats of the standard library (SHA-256, gzip, tar and zip) are parameters.
-/

open List Kubepeep.Go.Bufio

namespace Kubepeep.Updater

def maximumChecksumsBytes : Nat := 1 <<< 20

def maximumArchiveBytes : Nat := 256 <<< 20

def maximumBinaryBytes : Nat := 128 <<< 20

def ErrChecksum : String := "update: SHA-256 verification failed"

/-- `scheme` is the one of `response.Request.URL`, if the client has set it; `bodyErr` is the error
that ends the body. -/
structure Response where
  statusCode : Nat
  scheme : Option String
  contentLength : Int
  body : List UInt8
  bodyErr : Option String

/-- One entry as the `tar.Reader` returns it; `broken` if its content ends with an error. -/
structure TarEntry where
  name : String
  regular : Bool
  size : Int
  content : List UInt8
  broken : Bool

/-- One entry of a `zip.Reader`, which is opened and closed on its own. -/
structure Entry extends TarEntry where
  opens : Bool
  closes : Bool

/-- `tar` are the entries behind the gzip header, and whether they end with `io.EOF`. -/
structure Formats where
  sha256 : List UInt8 → List UInt8
  tar : List UInt8 → Option (List TarEntry × Bool)
  zip : List UInt8 → Option (List Entry)

structure Service where
  releaseBaseURL : String
  operatingSystem : String
  architecture : String
  allowHTTP : Bool
  newRequest : String → Option String
  Do : String → Except String Response
  formats : Formats

/-- The operations on the files in the temporary directory. -/
inductive DownloadOperation where
  | createAsset
  | writeAsset
  | syncAsset
  | closeAsset
  | openHashed
  | readHashed
  | openArchive
  | createExecutable
  | writeExecutable
  | syncExecutable
  | closeExecutable
  deriving DecidableEq, Repr

def checkFailures {α : Type} (fails : α → Option String) (operations : List (α × String)) :
    Except String Unit :=
  match firstFailure fails operations with
  | some failure => .error failure
  | none => .ok ()

/-! ## Downloads -/

/-- `io.LimitReader(response.Body, maximum+1)`, read to its end. -/
def Response.readLimited (response : Response) (maximum : Nat) (text : String) :
    Except String (List UInt8) :=
  if response.body.length > maximum then
    .error "update: release asset exceeds size limit"
  else
    match response.bodyErr with
    | some cause => .error (text ++ cause)
    | none => .ok response.body

namespace Service

variable (service : Service) (fails : DownloadOperation → Option String)

def releaseURL (version asset : String) : String :=
  service.releaseBaseURL ++ "/v" ++ version ++ "/" ++ asset

/-- What `downloadBytes` and `downloadFile` begin with. -/
def requestAsset (rawURL : String) (maximum : Nat) : Except String Response :=
  match service.newRequest rawURL with
  | some cause => .error ("update: create download request: " ++ cause)
  | none =>
    match service.Do rawURL with
    | .error cause => .error ("update: download release asset: " ++ cause)
    | .ok response =>
      if response.statusCode ≠ 200 then
        .error ("update: release asset returned HTTP " ++ toString response.statusCode)
      else if response.scheme.any (· != "https") ∧ service.allowHTTP = false then
        .error "update: release asset response did not use HTTPS"
      else if response.contentLength > maximum then
        .error "update: release asset exceeds size limit"
      else
        .ok response

def downloadBytes (rawURL : String) (maximum : Nat) : Except String (List UInt8) := do
  let response ← service.requestAsset rawURL maximum
  response.readLimited maximum "update: read release asset: "

/-- The content of the file. -/
def downloadFile (rawURL : String) (maximum : Nat) : Except String (List UInt8) := do
  let response ← service.requestAsset rawURL maximum
  checkFailures fails [
    (.createAsset, "update: create downloaded asset: "),
    (.writeAsset, "update: write downloaded asset: ")]
  let content ← response.readLimited maximum "update: write downloaded asset: "
  checkFailures fails [
    (.syncAsset, "update: sync downloaded asset: "),
    (.closeAsset, "update: close downloaded asset: ")]
  return content

def fileSHA256 (content : List UInt8) : Except String (List UInt8) := do
  checkFailures fails [
    (.openHashed, "update: hash archive: "), (.readHashed, "update: hash archive: ")]
  return service.formats.sha256 content

end Service

/-! ## Checksums -/

/-- The UTF-8 forms of white space.  None begins inside another rune. -/
def whiteSpace : List (List UInt8) :=
  [[9], [10], [11], [12], [13], [32], [0xc2, 0x85], [0xc2, 0xa0], [0xe1, 0x9a, 0x80],
    [0xe2, 0x80, 0xa8], [0xe2, 0x80, 0xa9], [0xe2, 0x80, 0xaf], [0xe2, 0x81, 0x9f],
    [0xe3, 0x80, 0x80]] ++
  (List.range 11).map fun i => [0xe2, 0x80, 0x80 + .ofNat i]

/-- `strings.Fields`: `skip` bytes of white space are still to come, `current` is the field so
far. -/
def fieldsFrom : Nat → List UInt8 → List UInt8 → List (List UInt8)
  | _, current, [] => if current.isEmpty then [] else [current]
  | skip + 1, current, _ :: rest => fieldsFrom skip current rest
  | 0, current, byte :: rest =>
    match whiteSpace.find? fun space => space.isPrefixOf (byte :: rest) with
    | some space =>
      (if current.isEmpty then [] else [current]) ++ fieldsFrom (space.length - 1) [] rest
    | none => fieldsFrom 0 (current ++ [byte]) rest

def Fields (line : List UInt8) : List (List UInt8) :=
  fieldsFrom 0 [] line

/-- The tokens of a `bufio.Scanner`. -/
def scanLines (content : List UInt8) : List (List UInt8) :=
  let lines := content.splitOn LF
  (if lines.getLast? = some [] then lines.dropLast else lines).map dropCR

def hexValue (byte : UInt8) : Option UInt8 :=
  if 48 ≤ byte ∧ byte ≤ 57 then some (byte - 48)
  else if 97 ≤ byte ∧ byte ≤ 102 then some (byte - 87)
  else if 65 ≤ byte ∧ byte ≤ 70 then some (byte - 55)
  else none

/-- `hex.DecodeString` -/
def DecodeString : List UInt8 → Option (List UInt8)
  | [] => some []
  | [_] => none
  | high :: low :: rest => do
    return (16 * (← hexValue high) + (← hexValue low)) :: (← DecodeString rest)

/-- The checksum on a line about the archive. -/
def checksumField (archive : String) (line : List UInt8) : Option (List UInt8) :=
  match Fields line with
  | [checksum, name] =>
    if (if name.head? = some 42 then name.tail else name) = archive.toUTF8.data.toList then
      some checksum
    else none
  | _ => none

def checksumLoop (archive : String) :
    List (List UInt8) → Option (List UInt8) → Except String (List UInt8)
  | [], none => .error "update: release checksum entry is missing"
  | [], some decoded => .ok decoded
  | line :: rest, found =>
    match checksumField archive line with
    | none => checksumLoop archive rest found
    | some field =>
      match DecodeString field with
      | none => .error "update: release checksum entry is invalid"
      | some decoded =>
        if decoded.length ≠ 32 then .error "update: release checksum entry is invalid"
        else if found.isSome then .error "update: release checksum entry is duplicated"
        else checksumLoop archive rest (some decoded)

/-- Only a list that is one line as long as the scanner's buffer is too long for it. -/
def checksumFor (content : List UInt8) (archive : String) : Except String (List UInt8) :=
  if content.length ≥ maximumChecksumsBytes ∧ LF ∉ content.take maximumChecksumsBytes then
    .error "update: release checksum list is invalid"
  else
    checksumLoop archive (scanLines content) none

/-! ## Extraction -/

section

variable (fails : DownloadOperation → Option String)

def writeBoundedFile (entry : TarEntry) : Except String (List UInt8) := do
  checkFailures fails [(.createExecutable, "update: create release executable: ")]
  if (fails .writeExecutable).isSome ∨ entry.broken = true ∨
      (entry.content.length : Int) ≠ entry.size ∨ entry.content.length > maximumBinaryBytes then
    throw "update: release executable is truncated or exceeds its size limit"
  checkFailures fails [
    (.syncExecutable, "update: sync release executable: "),
    (.closeExecutable, "update: close release executable: ")]
  return entry.content

/-- The loop over the entries, which ends with `failure` if the archive does. -/
def extractEntries (binaryName : String) (failure : Option String) :
    List Entry → Option (List UInt8) → Except String (List UInt8)
  | [], found =>
    match failure, found with
    | some failure, _ => .error failure
    | none, none => .error "update: release archive does not contain the expected executable"
    | none, some data => .ok data
  | entry :: rest, found =>
    if entry.name ≠ binaryName then
      extractEntries binaryName failure rest found
    else if found.isSome ∨ entry.regular = false ∨ entry.size < 0 ∨
        entry.size > maximumBinaryBytes then
      .error "update: release archive contains an invalid executable entry"
    else if entry.opens = false then
      .error "update: release executable entry cannot be opened"
    else
      match writeBoundedFile fails entry.toTarEntry with
      | .error failure => .error failure
      | .ok data =>
        if entry.closes = false then .error "update: release executable entry cannot be closed"
        else extractEntries binaryName failure rest (some data)

variable (formats : Formats) (content : List UInt8) (binaryName : String)

def extractTarBinary : Except String (List UInt8) := do
  checkFailures fails [(.openArchive, "update: open release archive: ")]
  match formats.tar content with
  | none => throw "update: release archive is not valid gzip"
  | some (entries, complete) =>
    extractEntries fails binaryName
      (if complete then none else some "update: release archive is not valid tar")
      (entries.map fun entry => { entry with opens := true, closes := true }) none

def extractZipBinary : Except String (List UInt8) :=
  match fails .openArchive, formats.zip content with
  | none, some entries => extractEntries fails binaryName none entries none
  | _, _ => .error "update: release archive is not valid zip"

def extractBinary (operatingSystem : String) : Except String (List UInt8) :=
  if operatingSystem = "windows" then extractZipBinary fails formats content binaryName
  else extractTarBinary fails formats content binaryName

end

/-- The part of `Update` that works in the temporary directory. -/
def Service.fetchExecutable (service : Service) (fails : DownloadOperation → Option String)
    (version archive binaryName : String) : Except String (List UInt8) := do
  let checksums ← service.downloadBytes (service.releaseURL version "checksums.txt")
    maximumChecksumsBytes
  let expected ← checksumFor checksums archive
  let content ← service.downloadFile fails (service.releaseURL version archive) maximumArchiveBytes
  let actual ← service.fileSHA256 fails content
  if expected ≠ actual then
    throw ErrChecksum
  extractBinary fails service.formats content binaryName service.operatingSystem

/-! ## What was fetched -/

/-- The whole body of a good answer from the URL. -/
def Service.Serves (service : Service) (rawURL : String) (maximum : Nat) (content : List UInt8) :
    Prop :=
  ∃ response, service.Do rawURL = .ok response ∧ response.statusCode = 200 ∧
    (service.allowHTTP = true ∨ ∀ scheme ∈ response.scheme, scheme = "https") ∧
    response.body = content ∧ response.bodyErr = none ∧ content.length ≤ maximum

/-- The entries that `extractBinary` goes through. -/
def Formats.entries (formats : Formats) (operatingSystem : String) (content : List UInt8) :
    Option (List TarEntry) :=
  if operatingSystem = "windows" then (formats.zip content).map (·.map (·.toTarEntry))
  else (formats.tar content).map (·.1)

/-- What an update may install: the one executable of the archive whose SHA-256 is the one entry
for it in the checksums of the same release. -/
def Service.Released (service : Service) (version archive binaryName : String)
    (data : List UInt8) : Prop :=
  ∃ checksums content field entries entry,
    service.Serves (service.releaseURL version "checksums.txt") maximumChecksumsBytes checksums ∧
    service.Serves (service.releaseURL version archive) maximumArchiveBytes content ∧
    (scanLines checksums).filterMap (checksumField archive) = [field] ∧
    DecodeString field = some (service.formats.sha256 content) ∧
    service.formats.entries service.operatingSystem content = some entries ∧
    entries.filter (fun entry => entry.name = binaryName) = [entry] ∧
    entry.regular = true ∧ entry.broken = false ∧ entry.content = data ∧
    entry.size = data.length ∧ data.length ≤ maximumBinaryBytes

variable {service : Service} {fails : DownloadOperation → Option String}

theorem serves_of_request {rawURL text : String} {maximum : Nat} {response : Response}
    {content : List UInt8} (hrequest : service.requestAsset rawURL maximum = .ok response)
    (hread : response.readLimited maximum text = .ok content) :
    service.Serves rawURL maximum content := by
  unfold Service.requestAsset at hrequest
  split at hrequest
  · cases hrequest
  split at hrequest
  · cases hrequest
  next answer hanswer =>
  split at hrequest
  · cases hrequest
  next hstatus =>
  split at hrequest
  · cases hrequest
  next hscheme =>
  split at hrequest
  · cases hrequest
  obtain rfl := Except.ok.inj hrequest
  unfold Response.readLimited at hread
  split at hread
  · cases hread
  next hsize =>
  split at hread
  · cases hread
  next hend =>
  obtain rfl := Except.ok.inj hread
  refine ⟨answer, hanswer, not_not.mp hstatus, ?_, rfl, hend, not_lt.mp hsize⟩
  cases hallow : service.allowHTTP with
  | true => exact .inl rfl
  | false =>
    refine .inr fun scheme hmem => ?_
    by_contra hother
    exact hscheme ⟨by simpa [Option.mem_def.mp hmem] using hother, hallow⟩

theorem downloadFile_serves {rawURL : String} {maximum : Nat} {content : List UInt8}
    (h : service.downloadFile fails rawURL maximum = .ok content) :
    service.Serves rawURL maximum content := by
  obtain ⟨response, hrequest, h⟩ := except_bind_eq_ok h
  obtain ⟨_, _, h⟩ := except_bind_eq_ok h
  obtain ⟨read, hread, h⟩ := except_bind_eq_ok h
  obtain ⟨_, _, h⟩ := except_bind_eq_ok h
  obtain rfl := Except.ok.inj h
  exact serves_of_request hrequest hread

/-- The loop returns the checksum it has found before, or the only one that is left. -/
theorem checksumLoop_ok {archive : String} {decoded : List UInt8} :
    ∀ {lines : List (List UInt8)} {found : Option (List UInt8)},
    checksumLoop archive lines found = .ok decoded →
    found = some decoded ∧ lines.filterMap (checksumField archive) = [] ∨
      found = none ∧ ∃ field, lines.filterMap (checksumField archive) = [field] ∧
        DecodeString field = some decoded := by
  intro lines
  induction lines with
  | nil =>
    intro found h
    cases found with
    | none => cases h
    | some other => exact .inl ⟨by rw [Except.ok.inj h], rfl⟩
  | cons line rest ih =>
    intro found h
    unfold checksumLoop at h
    rw [filterMap_cons]
    split at h
    · next hnone =>
      rw [hnone]
      exact ih h
    next field hfield =>
    rw [hfield]
    split at h
    · cases h
    next other hother =>
    split at h
    · cases h
    split at h
    · cases h
    next hfound =>
    rcases ih h with ⟨hsame, hrest⟩ | ⟨hnone, _⟩
    · exact .inr ⟨by simpa using hfound, field, by simp [hrest], hother.trans hsame⟩
    · cases hnone

theorem writeBoundedFile_ok {entry : TarEntry} {data : List UInt8}
    (h : writeBoundedFile fails entry = .ok data) :
    entry.broken = false ∧ entry.content = data ∧ entry.size = data.length ∧
      data.length ≤ maximumBinaryBytes := by
  obtain ⟨_, _, h⟩ := except_bind_eq_ok h
  split at h
  · cases h
  next hwhole =>
  obtain ⟨_, _, h⟩ := except_bind_eq_ok h
  obtain rfl := Except.ok.inj h
  push Not at hwhole
  exact ⟨by simpa using hwhole.2.1, rfl, hwhole.2.2.1.symm, hwhole.2.2.2⟩

/-- The loop returns what it has written before, or the only entry of that name that is left. -/
theorem extractEntries_ok {binaryName : String} {failure : Option String} {data : List UInt8} :
    ∀ {entries : List Entry} {found : Option (List UInt8)},
    extractEntries fails binaryName failure entries found = .ok data →
    let named := (entries.map (·.toTarEntry)).filter fun entry => entry.name = binaryName
    found = some data ∧ named = [] ∨
      found = none ∧ ∃ entry : TarEntry, named = [entry] ∧ entry.regular = true ∧
        entry.broken = false ∧ entry.content = data ∧ entry.size = data.length ∧
        data.length ≤ maximumBinaryBytes := by
  intro entries
  induction entries with
  | nil =>
    intro found h
    cases failure with
    | some failure => cases h
    | none =>
      cases found with
      | none => cases h
      | some other => exact .inl ⟨by rw [Except.ok.inj h], rfl⟩
  | cons entry rest ih =>
    intro found h
    unfold extractEntries at h
    dsimp only
    rw [map_cons]
    split at h
    · next hname =>
      rw [filter_cons_of_neg (by simpa using hname)]
      exact ih h
    next hname =>
    split at h
    · cases h
    next hvalid =>
    split at h
    · cases h
    split at h
    · cases h
    next written hwritten =>
    split at h
    · cases h
    rw [filter_cons_of_pos (by simpa using hname)]
    push Not at hvalid
    rcases ih h with ⟨hsame, hrest⟩ | ⟨hnone, _⟩
    · obtain rfl := Option.some.inj hsame
      exact .inr ⟨by simpa using hvalid.1, _, by rw [hrest], by simpa using hvalid.2.1,
        writeBoundedFile_ok hwritten⟩
    · cases hnone

theorem extractBinary_ok {formats : Formats} {content data : List UInt8}
    {binaryName operatingSystem : String}
    (h : extractBinary fails formats content binaryName operatingSystem = .ok data) :
    ∃ entries entry, formats.entries operatingSystem content = some entries ∧
      entries.filter (fun entry => entry.name = binaryName) = [entry] ∧
      entry.regular = true ∧ entry.broken = false ∧ entry.content = data ∧
      entry.size = data.length ∧ data.length ≤ maximumBinaryBytes := by
  unfold extractBinary at h
  unfold Formats.entries
  split at h
  · next hwindows =>
    rw [if_pos hwindows]
    unfold extractZipBinary at h
    split at h
    · next entries _ hzip =>
      obtain ⟨entry, hentry⟩ := ((extractEntries_ok h).resolve_left (by simp)).2
      exact ⟨_, entry, by rw [hzip]; rfl, hentry⟩
    · cases h
  · next hunix =>
    rw [if_neg hunix]
    obtain ⟨_, _, h⟩ := except_bind_eq_ok h
    split at h
    · cases h
    · next entries complete htar =>
      obtain ⟨entry, hentry⟩ := ((extractEntries_ok h).resolve_left (by simp)).2
      refine ⟨entries, entry, by rw [htar]; rfl, ?_⟩
      simpa [Function.comp_def] using hentry

/-- Whatever the server and the file system answer, the executable that is fetched is the one of
the archive that the checksums of the release vouch for. -/
theorem fetchExecutable_released {version archive binaryName : String} {data : List UInt8}
    (h : service.fetchExecutable fails version archive binaryName = .ok data) :
    service.Released version archive binaryName data := by
  obtain ⟨checksums, hchecksums, hrest⟩ := except_bind_eq_ok h
  obtain ⟨response, hrequest, hread⟩ := except_bind_eq_ok hchecksums
  obtain ⟨expected, hexpected, hrest⟩ := except_bind_eq_ok hrest
  obtain ⟨content, hcontent, hrest⟩ := except_bind_eq_ok hrest
  obtain ⟨actual, hactual, hextract⟩ := except_bind_eq_ok hrest
  obtain ⟨_, _, hhash⟩ := except_bind_eq_ok hactual
  split at hextract
  · cases hextract
  next hsame =>
  rw [← not_not.mp hsame] at hhash
  unfold checksumFor at hexpected
  split at hexpected
  · cases hexpected
  obtain ⟨field, hfield, hdecode⟩ := ((checksumLoop_ok hexpected).resolve_left (by simp)).2
  rw [← Except.ok.inj hhash] at hdecode
  obtain ⟨entries, entry, hentries, hentry⟩ := extractBinary_ok hextract
  exact ⟨checksums, content, field, entries, entry, serves_of_request hrequest hread,
    downloadFile_serves hcontent, hfield, hdecode, hentries, hentry⟩

end Kubepeep.Updater
