import Kubepeep.Go.Unicode
import Kubepeep.Updater.Download

/-!
# An update

`Update` of `internal/updater/updater.go` around `installPlatform`: the checks before it, the lock,
the staged executable, and what the deferred functions remove.
-/

open Function

namespace Kubepeep.Updater

open Kubepeep.Go

def ErrInvalidVersion : String := "update: target version must be an exact X.Y.Z release"

def ErrUnsupported : String := "update: unsupported operating system or architecture"

def ErrConcurrent : String := "update: another update is already in progress"

def versionPart (part : List Char) : Bool :=
  part != [] && (part.length ≤ 1 || part.head? != some '0') && part.all Char.isDigit

def normalizeVersion (raw : String) : Except String String :=
  let value := (TrimSpace raw).toList
  let value := if value.head? = some 'v' then value.tail else value
  let parts := value.splitOn '.'
  if parts.length = 3 ∧ parts.all versionPart then .ok (.ofList value) else .error ErrInvalidVersion

/-- The names of the archive and of the executable in it. -/
def releaseAsset (version operatingSystem architecture : String) :
    Except String (String × String) :=
  if operatingSystem ∉ ["linux", "darwin", "windows"] ∨ architecture ∉ ["amd64", "arm64"] then
    .error ErrUnsupported
  else
    let windows := operatingSystem = "windows"
    .ok ("kubePeep_" ++ version ++ "_" ++ operatingSystem ++ "_" ++ architecture ++
        (if windows then ".zip" else ".tar.gz"),
      if windows then "kubePeep.exe" else "kubePeep")

structure Request where
  currentVersion : String
  targetVersion : String
  deriving DecidableEq, Repr

structure Result where
  currentVersion : String
  targetVersion : String
  archive : String := ""
  scheduled : Bool := false
  alreadyCurrent : Bool := false
  deriving DecidableEq, Repr

/-- The operations of `Update` and `stageCandidate` that may fail. -/
inductive UpdateOperation where
  | resolveExecutable
  | resolveAbsolute
  | inspectExecutable
  | openLock
  | writeLock
  | syncLock
  | closeLock
  | removeLock
  | createTemporary
  | protectTemporary
  | openExtracted
  | createStaged
  | copyStaged
  | protectStaged
  | syncStaged
  | closeStaged
  | removeStaged
  | verifyStaged
  | hashInstalled
  deriving DecidableEq, Repr

/-- What an update meets.  `torn` are the files that failed copies leave. -/
structure Environment where
  service : Service
  fails : UpdateOperation → Option String
  downloadFails : DownloadOperation → Option String
  installFails : Operation → Option String
  regular : Bool
  torn : File
  tornStaged : File

/-- `lock` tells whether the lock file exists. -/
structure UpdateOutcome where
  disk : Disk
  lock : Bool
  result : Except String Result
  verified : Bool

namespace Environment

variable (env : Environment)

/-- An ignored `os.Remove` of the lock file. -/
def unlock (lock : Bool) : Bool :=
  lock && (env.fails .removeLock).isSome

/-- An ignored `os.Remove` of the staged executable. -/
def unstage (disk : Disk) : Disk :=
  if env.fails .removeStaged = none then update disk .staged none else disk

/-- The bits of others to write are dropped. -/
def stagedMode (mode : Nat) : Nat :=
  (mode &&& 0o755) ||| 0o500

def stageCandidate (data : List UInt8) (mode : Nat) (disk : Disk) : Disk × Option String :=
  match firstFailure env.fails [
    (.openExtracted, "update: open release executable: "),
    (.createStaged, "update: create staged executable: ")] with
  | some failure => (disk, some failure)
  | none =>
    let staged := fun file => update disk Path.staged (some file)
    match firstFailure env.fails [(.copyStaged, "update: stage release executable: ")] with
    | some failure => (env.unstage (staged env.tornStaged), some failure)
    | none =>
      if data.length > maximumBinaryBytes then
        (env.unstage (staged ⟨data.take (maximumBinaryBytes + 1), 0o600⟩),
          some "update: release executable exceeds size limit")
      else
        match firstFailure env.fails [(.protectStaged, "update: protect staged executable: ")] with
        | some failure => (env.unstage (staged ⟨data, 0o600⟩), some failure)
        | none =>
          match firstFailure env.fails [
            (.syncStaged, "update: sync staged executable: "),
            (.closeStaged, "update: close staged executable: ")] with
          | some failure => (env.unstage (staged ⟨data, stagedMode mode⟩), some failure)
          | none => (staged ⟨data, stagedMode mode⟩, none)

/-- From the staged executable on, with the lock held. -/
def replaceExecutable (result : Result) (data : List UInt8) (mode : Nat) (disk : Disk) :
    UpdateOutcome :=
  match env.stageCandidate data mode disk with
  | (disk, some failure) => ⟨disk, env.unlock true, .error failure, false⟩
  | (disk, none) =>
    match firstFailure env.fails [
      (.verifyStaged, "update: downloaded binary version check failed: "),
      (.hashInstalled, "update: hash installed executable: ")] with
    | some failure => ⟨env.unstage disk, env.unlock true, .error failure, false⟩
    | none =>
      -- on Unix nothing is scheduled
      let outcome := installPlatform env.installFails env.torn disk
      ⟨env.unstage outcome.disk, env.unlock true,
        match outcome.failure with
        | some failure => .error failure
        | none => .ok result,
        outcome.verified⟩

def updateLocked (result : Result) (binaryName : String) (disk : Disk) (installed : File) :
    UpdateOutcome :=
  match firstFailure env.fails [
    (.createTemporary, "update: create temporary directory: "),
    (.protectTemporary, "update: protect temporary directory: ")] with
  | some failure => ⟨disk, env.unlock true, .error failure, false⟩
  | none =>
    match env.service.fetchExecutable env.downloadFails result.targetVersion result.archive
        binaryName with
    | .error failure => ⟨disk, env.unlock true, .error failure, false⟩
    | .ok data => env.replaceExecutable result data installed.mode disk

/-- Once the versions and the platform have been checked. -/
def updateTo (result : Result) (binaryName : String) (disk : Disk) (lock : Bool) :
    UpdateOutcome :=
  match firstFailure env.fails [
    (.resolveExecutable, "update: resolve executable: "),
    (.resolveAbsolute, "update: resolve executable: "),
    (.inspectExecutable, "update: inspect executable: ")], disk .target with
  | some failure, _ => ⟨disk, lock, .error failure, false⟩
  | none, none =>
    ⟨disk, lock, .error "update: inspect executable: no such file or directory", false⟩
  | none, some installed =>
    if env.regular = false then
      ⟨disk, lock, .error "update: executable is not a regular file", false⟩
    else if lock then
      ⟨disk, lock, .error ErrConcurrent, false⟩
    else
      match firstFailure env.fails [(.openLock, "update: acquire update lock: ")] with
      | some failure => ⟨disk, lock, .error failure, false⟩
      | none =>
        match firstFailure env.fails [
          (.writeLock, "update: initialize update lock: "),
          (.syncLock, "update: sync update lock: "),
          (.closeLock, "update: close update lock: ")] with
        | some failure => ⟨disk, env.unlock true, .error failure, false⟩
        | none => env.updateLocked result binaryName disk installed

def Update (request : Request) (disk : Disk) (lock : Bool) : UpdateOutcome :=
  match normalizeVersion request.targetVersion with
  | .error failure => ⟨disk, lock, .error failure, false⟩
  | .ok targetVersion =>
    let result : Result := { currentVersion := request.currentVersion, targetVersion }
    match normalizeVersion request.currentVersion with
    | .ok current =>
      if current = targetVersion then
        ⟨disk, lock, .ok { result with alreadyCurrent := true }, false⟩
      else install result targetVersion
    | .error _ => install result targetVersion
where
  install (result : Result) (targetVersion : String) : UpdateOutcome :=
    match releaseAsset targetVersion env.service.operatingSystem env.service.architecture with
    | .error failure => ⟨disk, lock, .error failure, false⟩
    | .ok (archive, binaryName) => env.updateTo { result with archive } binaryName disk lock

/-! ## What an update leaves -/

variable {env} {original : File} {disk : Disk} {lock : Bool}

theorem unstage_of_ne {path : Path} (h : path ≠ .staged) : env.unstage disk path = disk path := by
  unfold unstage
  split
  · exact update_of_ne h ..
  · rfl

theorem stageCandidate_cases (data : List UInt8) (mode : Nat) :
    (∃ left failure, env.stageCandidate data mode disk = (left, some failure) ∧
      left .target = disk .target) ∨
    env.stageCandidate data mode disk =
      (update disk .staged (some ⟨data, stagedMode mode⟩), none) := by
  have hkept : ∀ file : File,
      env.unstage (update disk .staged (some file)) .target = disk .target := fun file => by
    rw [unstage_of_ne (by decide), update_of_ne (by decide)]
  unfold stageCandidate
  split
  · exact .inl ⟨_, _, rfl, rfl⟩
  split
  · exact .inl ⟨_, _, rfl, hkept _⟩
  split
  · exact .inl ⟨_, _, rfl, hkept _⟩
  split
  · exact .inl ⟨_, _, rfl, hkept _⟩
  split
  · exact .inl ⟨_, _, rfl, hkept _⟩
  · exact .inr rfl

variable (env) in
/-- The executable is the one that was there, with a backup of it otherwise, or one of the release
of the version, verified in place. -/
def RecoverableTo (version : String) (original : File) (outcome : UpdateOutcome) : Prop :=
  outcome.disk .target = some original ∨ outcome.disk .backup = some original ∨
    ∃ archive binaryName data,
      releaseAsset version env.service.operatingSystem env.service.architecture =
        .ok (archive, binaryName) ∧
      env.service.Released version archive binaryName data ∧
      outcome.disk .target = some ⟨data, stagedMode original.mode⟩ ∧ outcome.verified = true

variable (env) in
def Recoverable (request : Request) (original : File) (outcome : UpdateOutcome) : Prop :=
  outcome.disk .target = some original ∨ ∃ version,
    normalizeVersion request.targetVersion = .ok version ∧
      env.RecoverableTo version original outcome

theorem replaceExecutable_safe {data : List UInt8} (htarget : disk .target = some original)
    (hlost : ¬ Lost env.installFails) (result : Result) :
    let outcome := env.replaceExecutable result data original.mode disk
    outcome.disk .target = some original ∨ outcome.disk .backup = some original ∨
      outcome.disk .target = some ⟨data, stagedMode original.mode⟩ ∧ outcome.verified = true := by
  unfold replaceExecutable
  rcases @stageCandidate_cases env disk data original.mode with
    ⟨left, failure, hstage, hleft⟩ | hstage
  · rw [hstage]
    exact .inl (hleft.trans htarget)
  · rw [hstage]
    dsimp only
    have hsame : update disk .staged (some ⟨data, stagedMode original.mode⟩) .target =
        some original := (update_of_ne (by decide) ..).trans htarget
    split
    · exact .inl ((unstage_of_ne (by decide)).trans hsame)
    · have hsafe := @installPlatform_safe _ env.torn _ _ _ hlost hsame (update_self ..)
      rcases hsafe with ⟨hnew, hverified⟩ | hold | hbackup
      · exact .inr (.inr ⟨(unstage_of_ne (by decide)).trans hnew, hverified⟩)
      · exact .inl ((unstage_of_ne (by decide)).trans hold)
      · exact .inr (.inl ((unstage_of_ne (by decide)).trans hbackup))

theorem updateTo_recoverable (htarget : disk .target = some original)
    (hlost : ¬ Lost env.installFails) {result : Result} {binaryName : String}
    (hasset : releaseAsset result.targetVersion env.service.operatingSystem
      env.service.architecture = .ok (result.archive, binaryName)) :
    env.RecoverableTo result.targetVersion original
      (env.updateTo result binaryName disk lock) := by
  unfold updateTo
  rw [htarget]
  split
  · exact .inl htarget
  · exact .inl htarget
  next installed _ hinstalled =>
    obtain rfl : original = installed := Option.some.inj hinstalled
    split
    · exact .inl htarget
    split
    · exact .inl htarget
    split
    · exact .inl htarget
    split
    · exact .inl htarget
    unfold updateLocked
    split
    · exact .inl htarget
    split
    · exact .inl htarget
    next data hfetched =>
      refine (replaceExecutable_safe htarget hlost result).imp_right (Or.imp_right fun hnew => ?_)
      exact ⟨_, _, data, hasset, fetchExecutable_released hfetched, hnew⟩

/-- Whatever fails, apart from the one combination that loses the executable: after `Update` it is
the original, or a backup of it exists, or it is the executable of the release of the requested
version, taken from the archive that the checksums of the release vouch for and verified in
place. -/
theorem Update_recoverable (htarget : disk .target = some original)
    (hlost : ¬ Lost env.installFails) (request : Request) :
    env.Recoverable request original (env.Update request disk lock) := by
  have hinstall : ∀ version, normalizeVersion request.targetVersion = .ok version →
      env.Recoverable request original (Update.install env disk lock
        { currentVersion := request.currentVersion, targetVersion := version } version) := by
    intro version hversion
    unfold Update.install
    split
    · exact .inl htarget
    next hasset => exact .inr ⟨version, hversion, updateTo_recoverable htarget hlost hasset⟩
  unfold Update
  split
  · exact .inl htarget
  next version hversion =>
  split
  · split
    · exact .inl htarget
    · exact hinstall version hversion
  · exact hinstall version hversion

end Environment

/-- A gzip of a tar with the executable `[2]`. -/
def releaseArchive : List UInt8 :=
  [31, 139, 8, 0, 0, 0, 0, 0, 2, 255, 203, 46, 77, 74, 13, 72, 77, 45, 96, 160, 33, 48, 0, 2, 115,
    83, 83, 48, 13, 4, 232, 52, 16, 24, 34, 177, 65, 226, 230, 38, 70, 70, 12, 10, 6, 12, 116, 0,
    165, 197, 37, 137, 69, 64, 43, 25, 70, 38, 96, 98, 24, 5, 163, 96, 20, 140, 130, 81, 48, 18, 1,
    0, 33, 40, 218, 69, 0, 8, 0, 0]

def releaseChecksum : String :=
  "49a7fd8c98f2a81f54bbbc2f01bc613141601b669c8bcd64165e0493b94ca381"

/-- The formats on the one archive. -/
def releaseFormats : Formats where
  sha256 content :=
    if content = releaseArchive then
      (DecodeString releaseChecksum.toUTF8.data.toList).getD []
    else List.replicate 32 0
  tar content :=
    if content = releaseArchive then some ([⟨"kubePeep", true, 1, [2], false⟩], true) else none
  zip _ := none

def releaseService : Service where
  releaseBaseURL := "https://github.com/fvmoraes/kubepeep/releases/download"
  operatingSystem := "linux"
  architecture := "amd64"
  allowHTTP := false
  newRequest _ := none
  Do url :=
    if url = "https://github.com/fvmoraes/kubepeep/releases/download/v1.1.0/checksums.txt" then
      .ok ⟨200, some "https", -1, (releaseChecksum ++
        "  kubePeep_1.1.0_linux_amd64.tar.gz\n").toUTF8.data.toList, none⟩
    else
      .ok ⟨200, some "https", 80, releaseArchive, none⟩
  formats := releaseFormats

def releaseEnvironment (installFails : Operation → Option String) : Environment :=
  ⟨releaseService, fun _ => none, fun _ => none, installFails, true, ⟨[], 0o600⟩, ⟨[], 0o600⟩⟩

/-- The release replaces the executable; one that reports another version is rolled back. -/
theorem Update_recoverable_release :
    let updated := (releaseEnvironment fun _ => none).Update ⟨"1.0.0", "1.1.0"⟩ stagedDisk false
    let restored := (releaseEnvironment wrongVersion).Update ⟨"1.0.0", "1.1.0"⟩ stagedDisk false
    updated.disk .target = some ⟨[2], 0o755⟩ ∧
      (releaseEnvironment fun _ => none).Recoverable ⟨"1.0.0", "1.1.0"⟩ installedFile updated ∧
    restored.disk .target = some installedFile ∧
      (releaseEnvironment wrongVersion).Recoverable ⟨"1.0.0", "1.1.0"⟩ installedFile restored :=
  ⟨by decide +kernel,
    Environment.Update_recoverable rfl (fun hlost => absurd rfl hlost.2.2.2.1) _,
    by decide +kernel,
    Environment.Update_recoverable rfl (fun hlost => absurd rfl hlost.2.2.2.1) _⟩

end Kubepeep.Updater
