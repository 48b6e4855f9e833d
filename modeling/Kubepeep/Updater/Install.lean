import Mathlib

/-!
# Replacing the executable

`installPlatform` and `copyBackup` of `internal/updater/replace_unix.go`: the installed executable
is copied to a backup, the staged one is renamed over it and verified in place, and the backup is
renamed back when that fails.  Every operation may fail on its own.
-/

open Function

namespace Kubepeep.Updater

/-- `mode` are the permission bits. -/
structure File where
  data : List UInt8
  mode : Nat
  deriving DecidableEq, Repr

/-- The files in the directory of the executable.  The names of `CreateTemp` are new ones. -/
inductive Path where
  | target
  | staged
  | backup
  deriving DecidableEq, Repr

abbrev Disk : Type :=
  Path → Option File

/-- The calls of `syncDirectory` whose result is looked at. -/
inductive DirectorySync where
  | replacement
  | rollback
  | cleanup
  deriving DecidableEq, Repr

/-- The operations that may fail, each at its place in the source. -/
inductive Operation where
  | openInstalled
  | inspectInstalled
  | createBackup
  | copyBackup
  | protectBackup
  | syncBackup
  | closeBackup
  | discardBackup
  | replace
  | openDirectory (sync : DirectorySync)
  | syncDirectory (sync : DirectorySync)
  | verify
  | rollback
  | removeBackup
  | deferredRemove
  deriving DecidableEq, Repr

/-- The first of some operations to fail, with the text of its error; `fails` is the error of an
operation, if it has one. -/
def firstFailure {α : Type} (fails : α → Option String) : List (α × String) → Option String
  | [] => none
  | (operation, text) :: rest =>
    match fails operation with
    | some cause => some (text ++ cause)
    | none => firstFailure fails rest

section

variable (fails : Operation → Option String)

/-- `os.Rename` -/
def rename (operation : Operation) (source destination : Path) (disk : Disk) :
    Disk × Option String :=
  match fails operation, disk source with
  | some cause, _ => (disk, some cause)
  | none, none => (disk, some "no such file or directory")
  | none, some file =>
    (update (update disk destination (some file)) source none, none)

/-- `os.Remove` -/
def remove (operation : Operation) (path : Path) (disk : Disk) : Disk × Option String :=
  match fails operation with
  | some cause => (disk, some cause)
  | none => (update disk path none, none)

def syncDirectory (sync : DirectorySync) : Option String :=
  firstFailure fails [(.openDirectory sync, ""), (.syncDirectory sync, "")]

/-- The second component is the error.  `torn` is what a failed copy leaves behind. -/
def copyBackup (torn : File) (disk : Disk) : Disk × Option String :=
  match disk .target with
  | none =>
    (disk, some "update: open installed executable for backup: no such file or directory")
  | some installed =>
    match firstFailure fails [
      (.openInstalled, "update: open installed executable for backup: "),
      (.inspectInstalled, "update: inspect installed executable for backup: "),
      (.createBackup, "update: create executable backup: ")] with
    | some failure => (disk, some failure)
    | none =>
      match fails .copyBackup with
      | some cause =>
        ((remove fails .discardBackup .backup (update disk .backup (some torn))).1,
          some ("update: copy executable backup: " ++ cause))
      | none =>
        -- `CreateTemp` makes files that only the owner can read and write
        match firstFailure fails [
          (.protectBackup, "update: protect executable backup: ")] with
        | some failure =>
          ((remove fails .discardBackup .backup
            (update disk .backup (some { installed with mode := 0o600 }))).1, some failure)
        | none =>
          let disk := update disk .backup (some installed)
          match firstFailure fails [
            (.syncBackup, "update: sync executable backup: "),
            (.closeBackup, "update: close executable backup: ")] with
          | some failure => ((remove fails .discardBackup .backup disk).1, some failure)
          | none => (disk, none)

def ErrRollback : String :=
  "update: replacement verification failed and the previous binary was restored"

/-- What a call of `installPlatform` leaves: the files, the error, and whether the verification of
the replaced executable has succeeded. -/
structure Outcome where
  disk : Disk
  failure : Option String
  verified : Bool

/-- The deferred removal of the backup, at a return with `removeBackup` set. -/
def failInstall (disk : Disk) (failure : String) (verified : Bool) : Outcome :=
  ⟨(remove fails .deferredRemove .backup disk).1, some failure, verified⟩

def rollBack (disk : Disk) (failure : String) (restored : Option String → String) : Outcome :=
  match rename fails .rollback .backup .target disk with
  | (disk, some cause) =>
    failInstall fails disk (failure ++ "\nupdate: rollback failed: " ++ cause) false
  | (disk, none) => ⟨disk, some (restored (syncDirectory fails .rollback)), false⟩

/-- The result of a sync after a rollback is looked at only when the verification has failed. -/
def restoredAfterSync (_ : Option String) : String :=
  ErrRollback

def restoredAfterVerify : Option String → String
  | none => ErrRollback
  | some cause => ErrRollback ++ "\nupdate: sync rollback: " ++ cause

def installPlatform (torn : File) (disk : Disk) : Outcome :=
  match copyBackup fails torn disk with
  | (disk, some failure) => ⟨disk, some failure, false⟩
  | (disk, none) =>
    match rename fails .replace .staged .target disk with
    | (disk, some cause) =>
      failInstall fails disk ("update: atomically replace executable: " ++ cause) false
    | (disk, none) =>
      match syncDirectory fails .replacement with
      | some cause =>
        rollBack fails disk ("update: sync executable replacement: " ++ cause) restoredAfterSync
      | none =>
        match fails .verify with
        | some cause => rollBack fails disk (ErrRollback ++ ": " ++ cause) restoredAfterVerify
        | none =>
          match remove fails .removeBackup .backup disk with
          | (disk, some cause) =>
            failInstall fails disk
              ("update: replacement succeeded but backup cleanup failed: " ++ cause) true
          | (disk, none) =>
            ⟨disk, (syncDirectory fails .cleanup).map
              ("update: replacement succeeded but directory sync failed: " ++ ·), true⟩

end

/-! ## What is left -/

section

variable {fails : Operation → Option String} {torn original candidate : File} {disk : Disk}

theorem firstFailure_eq_none_iff {operations : List (Operation × String)} :
    firstFailure fails operations = none ↔ ∀ entry ∈ operations, fails entry.1 = none := by
  induction operations with
  | nil => simp [firstFailure]
  | cons entry rest ih =>
    rw [firstFailure, List.forall_mem_cons]
    cases h : fails entry.1 with
    | some cause => simp
    | none => simpa using ih

theorem remove_of_ne (operation : Operation) {path other : Path} (h : other ≠ path) :
    (remove fails operation path disk).1 other = disk other := by
  unfold remove
  split
  · rfl
  · exact update_of_ne h ..

variable (fails) in
def BackedUp : Prop :=
  fails .openInstalled = none ∧ fails .inspectInstalled = none ∧ fails .createBackup = none ∧
    fails .copyBackup = none ∧ fails .protectBackup = none ∧ fails .syncBackup = none ∧
    fails .closeBackup = none

theorem copyBackup_of_backedUp (h : BackedUp fails) (htarget : disk .target = some original) :
    copyBackup fails torn disk = (update disk .backup (some original), none) := by
  obtain ⟨hopen, hinspect, hcreate, hcopy, hprotect, hsync, hclose⟩ := h
  simp [copyBackup, firstFailure, *]

theorem copyBackup_of_not_backedUp (h : ¬ BackedUp fails) (htarget : disk .target = some original) :
    ∃ left failure, copyBackup fails torn disk = (left, some failure) ∧
      left .target = some original := by
  have hkept : ∀ file : File, (remove fails .discardBackup .backup
      (update disk .backup (some file))).1 .target = some original := fun file => by
    rw [remove_of_ne _ (by decide), update_of_ne (by decide), htarget]
  unfold copyBackup
  rw [htarget]
  dsimp only
  split
  · exact ⟨_, _, rfl, htarget⟩
  next hfirst =>
  split
  · exact ⟨_, _, rfl, hkept torn⟩
  next hcopy =>
  split
  · exact ⟨_, _, rfl, hkept _⟩
  next hprotect =>
  split
  · exact ⟨_, _, rfl, hkept original⟩
  next hlast =>
  simp only [firstFailure_eq_none_iff, List.forall_mem_cons, List.not_mem_nil, false_implies,
    implies_true, and_true] at hfirst hprotect hlast
  exact absurd ⟨hfirst.1, hfirst.2.1, hfirst.2.2, hcopy, hprotect, hlast.1, hlast.2⟩ h

def replaced (disk : Disk) (original candidate : File) : Disk :=
  update (update (update disk .backup (some original)) .target
    (some candidate)) .staged none

theorem rename_staged (hreplace : fails .replace = none) (hstaged : disk .staged = some candidate) :
    rename fails .replace .staged .target (update disk .backup (some original)) =
      (replaced disk original candidate, none) := by
  have hstill : update disk .backup (some original) .staged = some candidate := by
    rw [update_of_ne (by decide), hstaged]
  rw [rename, hreplace, hstill]
  rfl

variable {failure : String} {restored : Option String → String}

theorem rollBack_replaced :
    let outcome := rollBack fails (replaced disk original candidate) failure restored
    (fails .rollback = none → outcome.disk .target = some original) ∧
    (fails .rollback ≠ none → outcome.disk .target = some candidate ∧ outcome.verified = false ∧
      outcome.disk .backup = if fails .deferredRemove = none then none else some original) := by
  have hbackup : replaced disk original candidate .backup = some original := rfl
  cases hrollback : fails .rollback with
  | none =>
    refine ⟨fun _ => ?_, fun h => absurd rfl h⟩
    rw [rollBack, rename, hrollback, hbackup]
    rfl
  | some cause =>
    refine ⟨nofun, fun _ => ?_⟩
    rw [rollBack, rename, hrollback]
    dsimp only [failInstall]
    refine ⟨by rw [remove_of_ne _ (by decide)]; rfl, rfl, ?_⟩
    cases hremove : fails .deferredRemove with
    | none => simp [remove, hremove]
    | some cause => simpa [remove, hremove] using hbackup

def Safe (original candidate : File) (outcome : Outcome) : Prop :=
  outcome.disk .target = some candidate ∧ outcome.verified = true ∨
    outcome.disk .target = some original ∨ outcome.disk .backup = some original

variable (fails) in
/-- The replacement is not confirmed, the rollback fails, and the backup is removed. -/
def Lost : Prop :=
  BackedUp fails ∧ fails .replace = none ∧
    (syncDirectory fails .replacement ≠ none ∨ fails .verify ≠ none) ∧
    fails .rollback ≠ none ∧ fails .deferredRemove = none

theorem rollBack_safe_iff :
    Safe original candidate
        (rollBack fails (replaced disk original candidate) failure restored) ↔
      (fails .rollback ≠ none ∧ fails .deferredRemove = none → candidate = original) := by
  obtain ⟨hrestored, hfailed⟩ := @rollBack_replaced fails original candidate disk failure restored
  unfold Safe
  by_cases hrollback : fails .rollback = none
  · rw [hrestored hrollback]
    simp [hrollback]
  · obtain ⟨htarget, hverified, hbackup⟩ := hfailed hrollback
    rw [htarget, hverified, hbackup]
    by_cases hremove : fails .deferredRemove = none
    · simp [hrollback, hremove]
    · simp [hremove]

theorem installPlatform_unconfirmed (hbacked : BackedUp fails) (hreplace : fails .replace = none)
    (hunconfirmed : syncDirectory fails .replacement ≠ none ∨ fails .verify ≠ none)
    (htarget : disk .target = some original) (hstaged : disk .staged = some candidate) :
    ∃ failure restored, installPlatform fails torn disk =
      rollBack fails (replaced disk original candidate) failure restored := by
  unfold installPlatform
  rw [copyBackup_of_backedUp hbacked htarget]
  dsimp only
  rw [rename_staged hreplace hstaged]
  cases hsync : syncDirectory fails .replacement with
  | some cause => exact ⟨_, _, rfl⟩
  | none =>
    cases hverify : fails .verify with
    | some cause => exact ⟨_, _, rfl⟩
    | none => simp [hsync, hverify] at hunconfirmed

theorem installPlatform_confirmed (hbacked : BackedUp fails) (hreplace : fails .replace = none)
    (hsync : syncDirectory fails .replacement = none) (hverify : fails .verify = none)
    (htarget : disk .target = some original) (hstaged : disk .staged = some candidate) :
    (installPlatform fails torn disk).disk .target = some candidate ∧
      (installPlatform fails torn disk).verified = true := by
  unfold installPlatform
  rw [copyBackup_of_backedUp hbacked htarget]
  dsimp only
  rw [rename_staged hreplace hstaged, hsync, hverify]
  dsimp only
  cases hremove : fails .removeBackup with
  | some cause =>
    rw [remove, hremove]
    refine ⟨?_, rfl⟩
    show (remove fails .deferredRemove .backup (replaced disk original candidate)).1 .target =
      some candidate
    rw [remove_of_ne _ (by decide)]
    rfl
  | none =>
    rw [remove, hremove]
    exact ⟨rfl, rfl⟩

theorem installPlatform_untouched (h : BackedUp fails → fails .replace ≠ none)
    (htarget : disk .target = some original) :
    (installPlatform fails torn disk).disk .target = some original := by
  unfold installPlatform
  by_cases hbacked : BackedUp fails
  · obtain ⟨cause, hcause⟩ := Option.ne_none_iff_exists'.mp (h hbacked)
    rw [copyBackup_of_backedUp hbacked htarget]
    dsimp only
    rw [rename, hcause]
    show (remove fails .deferredRemove .backup
      (update disk .backup (some original))).1 .target = some original
    rw [remove_of_ne _ (by decide), update_of_ne (by decide), htarget]
  · obtain ⟨left, failure, hcopy, hleft⟩ := @copyBackup_of_not_backedUp fails torn original disk
      hbacked htarget
    rw [hcopy]
    exact hleft

theorem installPlatform_safe (hlost : ¬ Lost fails) (htarget : disk .target = some original)
    (hstaged : disk .staged = some candidate) :
    Safe original candidate (installPlatform fails torn disk) := by
  by_cases hrenamed : BackedUp fails ∧ fails .replace = none
  · obtain ⟨hbacked, hreplace⟩ := hrenamed
    by_cases hconfirmed : syncDirectory fails .replacement = none ∧ fails .verify = none
    · exact .inl (installPlatform_confirmed hbacked hreplace hconfirmed.1 hconfirmed.2 htarget
        hstaged)
    · have hunconfirmed : syncDirectory fails .replacement ≠ none ∨ fails .verify ≠ none := by
        tauto
      obtain ⟨failure, restored, hinstall⟩ := @installPlatform_unconfirmed fails torn original
        candidate disk hbacked hreplace hunconfirmed htarget hstaged
      rw [hinstall, rollBack_safe_iff]
      exact fun h => absurd ⟨hbacked, hreplace, hunconfirmed, h⟩ hlost
  · exact .inr (.inl (installPlatform_untouched (fun hbacked hreplace =>
      hrenamed ⟨hbacked, hreplace⟩) htarget))

/-- The executable is lost in one combination of failures only. -/
theorem install_safe_iff (htarget : disk .target = some original)
    (hstaged : disk .staged = some candidate) :
    Safe original candidate (installPlatform fails torn disk) ↔
      (Lost fails → candidate = original) := by
  by_cases hlost : Lost fails
  · obtain ⟨hbacked, hreplace, hunconfirmed, hrest⟩ := hlost
    obtain ⟨failure, restored, hinstall⟩ := @installPlatform_unconfirmed fails torn original
      candidate disk hbacked hreplace hunconfirmed htarget hstaged
    rw [hinstall, rollBack_safe_iff]
    simp only [hrest, true_implies, Lost, hbacked, hreplace, hunconfirmed, and_self, ne_eq,
      not_false_eq_true]
  · exact iff_of_true (installPlatform_safe hlost htarget hstaged) fun h => absurd h hlost

end

/-! An update whose executable reports another version. -/

def installedFile : File := ⟨[1], 0o755⟩

def stagedFile : File := ⟨[2], 0o755⟩

def stagedDisk : Disk
  | .target => some installedFile
  | .staged => some stagedFile
  | .backup => none

def wrongVersion : Operation → Option String
  | .verify => some "candidate reported a different version"
  | _ => none

def wrongVersionKept : Operation → Option String
  | .rollback => some "operation not permitted"
  | operation => wrongVersion operation

/-- The rollback alone restores the executable. -/
theorem install_safe_restored :
    Safe installedFile stagedFile (installPlatform wrongVersion ⟨[], 0o600⟩ stagedDisk) :=
  (install_safe_iff rfl rfl).mpr fun hlost => absurd rfl hlost.2.2.2.1

theorem install_loses_executable :
    stagedDisk .target = some installedFile ∧ stagedDisk .staged = some stagedFile ∧
      ¬ Safe installedFile stagedFile
        (installPlatform wrongVersionKept ⟨[], 0o600⟩ stagedDisk) := by
  refine ⟨rfl, rfl, ?_⟩
  rintro (⟨-, hverified⟩ | htarget | hbackup)
  · exact absurd hverified (by decide)
  · exact absurd htarget (by decide)
  · exact absurd hbackup (by decide)

end Kubepeep.Updater
