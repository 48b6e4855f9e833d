import Kubepeep.Kubernetes.ClientCache
import Kubepeep.Lib.Effect

/-!
# What is hashed

The bytes that `fingerprintFiles` of `internal/adapters/kubernetes/fingerprint.go` and `CacheKey` of
`loader.go` feed to SHA-256.
-/

open Nat List

namespace Kubepeep.Kubernetes

/-- A Go string.  Its length is an `int`. -/
structure GoString where
  bytes : List UInt8
  length_lt : bytes.length < 2 ^ 63
  deriving DecidableEq

def ascii (text : String) : List UInt8 := text.toList.map fun c => UInt8.ofNat c.toNat

/-- `binary.BigEndian.PutUint64` -/
def putUint64 (n : Nat) : List UInt8 :=
  [56, 48, 40, 32, 24, 16, 8, 0].map fun shift => UInt8.ofNat (n / 2 ^ shift)

def writeKeyPart (value : GoString) : List UInt8 :=
  putUint64 value.bytes.length ++ value.bytes

def decimalDigits (n : Nat) : List UInt8 :=
  ((digits 10 n).map fun digit => UInt8.ofNat (48 + digit)).reverse

/-- `fmt.Sprintf("%d", n)` -/
def decimal (n : Int64) : List UInt8 :=
  (if n.toInt < 0 then [45] else []) ++
    if n.toInt = 0 then [48] else decimalDigits n.toInt.natAbs

/-- `os.FileMode` with the bits that its package defines. -/
structure FileMode where
  bits : BitVec 32
  defined : bits &&& 0x7fe00 = 0
  deriving DecidableEq

def FileMode.isSymlink (mode : FileMode) : Bool := mode.bits.getLsbD 27

/-- No bit of `os.ModeType` is set. -/
def FileMode.IsRegular (mode : FileMode) : Bool := mode.bits &&& 0x8f280000 == 0

def FileMode.flags (mode : FileMode) : List UInt8 :=
  ((ascii "dalTLDpSugct?").zipIdx.filter fun flag => mode.bits.getLsbD (31 - flag.2)).map Prod.fst

def FileMode.permissions (mode : FileMode) : List UInt8 :=
  (ascii "rwxrwxrwx").zipIdx.map fun flag => if mode.bits.getLsbD (8 - flag.2) then flag.1 else 45

def FileMode.text (mode : FileMode) : List UInt8 :=
  (if mode.flags = [] then [45] else mode.flags) ++ mode.permissions

theorem length_decimal_lt (n : Int64) : (decimal n).length < 2 ^ 63 := by
  have hlength : (decimalDigits n.toInt.natAbs).length ≤ 20 := by
    have hlt := n.toInt_lt
    have hge := n.le_toInt
    rw [decimalDigits, length_reverse, length_map]
    exact (Nat.digits_length_le_iff (by decide) _).mpr (by omega)
  unfold decimal
  split <;> split <;> grind

theorem FileMode.length_text_lt (mode : FileMode) : mode.text.length < 2 ^ 63 := by
  have hflags : mode.flags.length ≤ 13 := by
    unfold flags
    rw [length_map]
    exact (length_filter_le _ _).trans (by decide)
  unfold text
  rw [length_append]
  have hpermissions : mode.permissions.length = 9 := by simp [permissions, ascii]
  split <;> grind

theorem sign_not_mem_decimalDigits (n : Nat) : 45 ∉ decimalDigits n := by
  simp only [decimalDigits, mem_reverse, mem_map, not_exists, not_and]
  intro digit hdigit
  have hlt : digit < 10 := digits_lt_base (by decide) hdigit
  interval_cases digit <;> decide

theorem map_decimalDigits (n : Nat) :
    (decimalDigits n).reverse.map (fun byte => byte.toNat - 48) = digits 10 n := by
  rw [decimalDigits, reverse_reverse, map_map]
  refine (map_congr_left fun digit hdigit => ?_).trans (map_id _)
  have hlt : digit < 10 := digits_lt_base (by decide) hdigit
  interval_cases digit <;> rfl

theorem decimal_sign (n : Int64) : 45 ∈ decimal n ↔ n.toInt < 0 := by
  unfold decimal
  by_cases hzero : n.toInt = 0
  · simp [hzero]
  · simp [hzero, sign_not_mem_decimalDigits]

/-- Read back digit by digit; a sign counts for nothing. -/
theorem decimal_value (n : Int64) :
    ofDigits 10 ((decimal n).reverse.map fun byte => byte.toNat - 48) = n.toInt.natAbs := by
  unfold decimal
  by_cases hzero : n.toInt = 0
  · simp [hzero]
  · rw [if_neg hzero, reverse_append, map_append, map_decimalDigits, ofDigits_append,
      ofDigits_digits]
    split <;> simp

theorem decimal_injective {n m : Int64} (h : decimal n = decimal m) : n = m := by
  have hsign : n.toInt < 0 ↔ m.toInt < 0 := by rw [← decimal_sign, h, decimal_sign]
  have hvalue : n.toInt.natAbs = m.toInt.natAbs := by rw [← decimal_value, h, decimal_value]
  exact Int64.toInt_inj.mp (by omega)

theorem FileMode.mem_flags (mode : FileMode) (i : Fin (ascii "dalTLDpSugct?").length) :
    (ascii "dalTLDpSugct?").get i ∈ (if mode.flags = [] then [45] else mode.flags) ↔
      mode.bits.getLsbD (31 - i) = true := by
  have hmem : (ascii "dalTLDpSugct?").get i ∈ mode.flags ↔ mode.bits.getLsbD (31 - i) = true := by
    fin_cases i <;> simp [flags, ascii]
  have hne : ∀ i, (ascii "dalTLDpSugct?").get i ≠ 45 := by decide
  rw [← hmem]
  split
  · next h => simpa [h] using hne i
  · rfl

theorem FileMode.getElem_permissions (mode : FileMode) (i : Fin (ascii "rwxrwxrwx").length) :
    mode.permissions[i.val]? = some 45 ↔ mode.bits.getLsbD (8 - i) = false := by
  fin_cases i <;> simp [permissions, ascii]

theorem FileMode.getLsbD_of_undefined (mode : FileMode) {i : Nat} (hlow : 9 ≤ i) (hhigh : i < 19) :
    mode.bits.getLsbD i = false := by
  have hbit := congrArg (·.getLsbD i) mode.defined
  interval_cases i <;> simpa using hbit

theorem FileMode.text_injective {mode other : FileMode} (h : mode.text = other.text) :
    mode = other := by
  have hlength : mode.permissions.length = other.permissions.length := by simp [permissions]
  obtain ⟨hflags, hpermissions⟩ := append_inj' h hlength
  have hbits : mode.bits = other.bits := by
    refine BitVec.eq_of_getLsbD_eq fun i hi => ?_
    rcases lt_or_ge i 9 with hlow | hlow
    · have hbit := other.getElem_permissions ⟨8 - i, by decide +revert⟩
      rw [← hpermissions, getElem_permissions, Nat.sub_sub_self (by omega)] at hbit
      grind
    · rcases lt_or_ge i 19 with hmid | hhigh
      · rw [mode.getLsbD_of_undefined hlow hmid, other.getLsbD_of_undefined hlow hmid]
      · have hbit := other.mem_flags ⟨31 - i, by decide +revert⟩
        rw [← hflags, mem_flags, Nat.sub_sub_self (by omega)] at hbit
        exact Bool.eq_iff_iff.mpr hbit
  cases mode
  cases other
  congr

structure TrackedFile where
  label : GoString
  path : GoString
  source : Bool

inductive Kind where
  | regular
  | symlink (target : GoString)

/-- `mtime` are the nanoseconds of `UnixNano`, and `file` is what `os.SameFile` compares. -/
structure FileInfo where
  mode : FileMode
  size : Int64
  mtime : Int64
  file : Nat

structure Recorded where
  label : GoString
  path : GoString
  kind : Kind
  mode : FileMode
  size : Int64
  mtime : Int64
  content : List UInt8

/-- What one iteration of `fingerprintFiles` is answered, call by call.  The error of a context is
one that `SanitizeError` has made safe. -/
structure Answers where
  ctxErr : Option SafeError
  /-- Its error tells what `os.IsNotExist` says. -/
  before : Except Bool FileInfo
  linkTarget : Option GoString
  canOpen : Bool
  opened : Option FileInfo
  content : List UInt8
  /-- An error of `io.Copy`, with that of the context. -/
  copyErr : Option (Option SafeError)
  after : Option FileInfo
  afterTarget : Option GoString

def invalid (message : String) (retryable : Bool) : SafeError :=
  ⟨.CodeKubeconfigInvalid, message, retryable⟩

def changedUnexpectedly : SafeError :=
  invalid "A kubeconfig file reference changed unexpectedly." true

def exceedsLimit : SafeError :=
  invalid "A file referenced by the kubeconfig exceeds the size limit." false

def unavailable (notExist source : Bool) : SafeError :=
  if notExist && source then
    ⟨.CodeKubeconfigNotFound, "A selected kubeconfig file is unavailable.", false⟩
  else
    invalid "A file referenced by the kubeconfig is unavailable." false

def sameFileSnapshot (left right : FileInfo) : Bool :=
  left.mode == right.mode && left.size == right.size && left.mtime == right.mtime &&
    left.file == right.file

/-- The checks behind `io.Copy`. -/
def unchanged (answers : Answers) (before opened : FileInfo) : Bool :=
  answers.after.any fun after => sameFileSnapshot before after &&
    if before.mode.isSymlink then
      answers.afterTarget.isSome && answers.afterTarget == answers.linkTarget
    else
      opened.file == after.file

/-- The record whose bytes have been fed to the hasher, which an error drops. -/
def hashFile (tracked : TrackedFile) (answers : Answers) (maxFileSize : Int64) :
    Except SafeError Recorded := do
  let before ← match answers.before with
    | .ok before => pure before
    | .error notExist => throw (unavailable notExist tracked.source)
  let kind ← if before.mode.isSymlink then
      match answers.linkTarget with
      | some target => pure (Kind.symlink target)
      | none => throw changedUnexpectedly
    else pure .regular
  if !answers.canOpen then
    throw (invalid "A file referenced by the kubeconfig cannot be read." false)
  let opened ← match answers.opened.filter (·.mode.IsRegular) with
    | some opened => pure opened
    | none => throw (invalid "A file referenced by the kubeconfig is not a regular file." false)
  if !before.mode.isSymlink && before.file != opened.file then
    throw changedUnexpectedly
  if opened.size.toInt > maxFileSize.toInt then
    throw exceedsLimit
  if let some ctxErr := answers.copyErr then
    throw (ctxErr.getD (invalid "A file referenced by the kubeconfig cannot be read safely." true))
  -- the sum wraps around for the greatest limit, and nothing is read
  let content := answers.content.take (maxFileSize + 1).toInt.toNat
  if content.length > maxFileSize.toInt then
    throw exceedsLimit
  if !unchanged answers before opened then
    throw changedUnexpectedly
  return ⟨tracked.label, tracked.path, kind, opened.mode, opened.size, opened.mtime, content⟩

def Kind.fed : Kind → List UInt8
  | regular => writeKeyPart ⟨ascii "regular", by decide⟩
  | symlink target => writeKeyPart ⟨ascii "symlink", by decide⟩ ++ writeKeyPart target

def writeFileInfo (mode : FileMode) (size mtime : Int64) : List UInt8 :=
  writeKeyPart ⟨mode.text, mode.length_text_lt⟩ ++
    writeKeyPart ⟨decimal size, length_decimal_lt size⟩ ++
    writeKeyPart ⟨decimal mtime, length_decimal_lt mtime⟩

def Recorded.fed (record : Recorded) : List UInt8 :=
  writeKeyPart record.label ++ writeKeyPart record.path ++ record.kind.fed ++
    writeFileInfo record.mode record.size record.mtime ++ record.content

/-- The bytes that `fingerprintFiles` feeds to the hasher. -/
def fingerprintInput (records : List Recorded) : List UInt8 :=
  writeKeyPart ⟨ascii "kubepeep-kubeconfig-fingerprint-v1", by decide⟩ ++
    records.flatMap Recorded.fed

/-- `none` is the nil context. -/
def fingerprintFiles (sum : List UInt8 → Fingerprint) (maxFileSize : Int64) :
    Option (List (TrackedFile × Answers)) → Except SafeError Fingerprint
  | none => throw (invalid "The kubeconfig could not be fingerprinted safely." false)
  | some files => do
    let records ← files.mapM fun (file, answers) => match answers.ctxErr with
      | some err => throw err
      | none => hashFile file answers maxFileSize
    return sum (fingerprintInput records)

/-- The bytes that `CacheKey` feeds to its hash. -/
def cacheKeyInput (paths : List GoString) (context : GoString) : List UInt8 :=
  (⟨ascii "kubepeep-client-v1", by decide⟩ :: paths ++ [context]).flatMap writeKeyPart

theorem putUint64_injective {n m : Nat} (hn : n < 2 ^ 64) (hm : m < 2 ^ 64)
    (h : putUint64 n = putUint64 m) : n = m := by
  simp only [putUint64, map_cons, map_nil, cons.injEq, ← UInt8.toNat_inj, UInt8.toNat_ofNat'] at h
  omega

theorem writeKeyPart_append_inj {value other : GoString} {rest tail : List UInt8}
    (h : writeKeyPart value ++ rest = writeKeyPart other ++ tail) :
    value = other ∧ rest = tail := by
  simp only [writeKeyPart, append_assoc] at h
  obtain ⟨hsize, hbytes⟩ := append_inj h (by simp [putUint64])
  have hlength := putUint64_injective (by have := value.length_lt; omega)
    (by have := other.length_lt; omega) hsize
  obtain ⟨hvalue, hrest⟩ := append_inj hbytes hlength
  cases value
  cases other
  exact ⟨by congr, hrest⟩

theorem Kind.fed_append_inj {kind other : Kind} {rest tail : List UInt8}
    (h : kind.fed ++ rest = other.fed ++ tail) : kind = other ∧ rest = tail := by
  have hne : ascii "regular" ≠ ascii "symlink" := by decide
  cases kind <;> cases other <;> simp only [fed, append_assoc] at h
  · exact ⟨rfl, (writeKeyPart_append_inj h).2⟩
  · exact absurd (congrArg GoString.bytes (writeKeyPart_append_inj h).1) hne
  · exact absurd (congrArg GoString.bytes (writeKeyPart_append_inj h).1) hne.symm
  · obtain ⟨htarget, hrest⟩ := writeKeyPart_append_inj (writeKeyPart_append_inj h).2
    exact ⟨by rw [htarget], hrest⟩

theorem writeFileInfo_append_inj {mode mode' : FileMode} {size size' mtime mtime' : Int64}
    {rest tail : List UInt8}
    (h : writeFileInfo mode size mtime ++ rest = writeFileInfo mode' size' mtime' ++ tail) :
    mode = mode' ∧ size = size' ∧ mtime = mtime' ∧ rest = tail := by
  simp only [writeFileInfo, append_assoc] at h
  obtain ⟨hmode, h⟩ := writeKeyPart_append_inj h
  obtain ⟨hsize, h⟩ := writeKeyPart_append_inj h
  obtain ⟨hmtime, h⟩ := writeKeyPart_append_inj h
  exact ⟨FileMode.text_injective (congrArg GoString.bytes hmode),
    decimal_injective (congrArg GoString.bytes hsize),
    decimal_injective (congrArg GoString.bytes hmtime), h⟩

/-- The content has the length that `file.Stat` has reported. -/
def Recorded.Sized (record : Recorded) : Prop := record.content.length = record.size.toInt

theorem Recorded.fed_append_inj {record other : Recorded} {rest tail : List UInt8}
    (hrecord : record.Sized) (hother : other.Sized)
    (h : record.fed ++ rest = other.fed ++ tail) : record = other ∧ rest = tail := by
  simp only [fed, append_assoc] at h
  obtain ⟨hlabel, h⟩ := writeKeyPart_append_inj h
  obtain ⟨hpath, h⟩ := writeKeyPart_append_inj h
  obtain ⟨hkind, h⟩ := Kind.fed_append_inj h
  obtain ⟨hmode, hsize, hmtime, h⟩ := writeFileInfo_append_inj h
  -- The content is not framed: its length is known from the size in front of it.
  have hlength : record.content.length = other.content.length := by
    unfold Sized at hrecord hother
    rw [← hsize] at hother
    omega
  obtain ⟨hcontent, hrest⟩ := append_inj h hlength
  cases record
  cases other
  exact ⟨by congr, hrest⟩

/-- What can be told apart at the start of a list of bytes can be told apart one after another. -/
theorem flatMap_inj_of_append_inj {α : Type} {encode : α → List UInt8} {P : α → Prop}
    (hne : ∀ a, encode a ≠ []) (hinj : ∀ {a b rest tail}, P a → P b →
      encode a ++ rest = encode b ++ tail → a = b ∧ rest = tail) :
    ∀ {as bs : List α}, (∀ a ∈ as, P a) → (∀ b ∈ bs, P b) →
      as.flatMap encode = bs.flatMap encode → as = bs
  | [], [], _, _, _ => rfl
  | [], b :: bs, _, _, h => absurd h (by simp [hne])
  | a :: as, [], _, _, h => absurd h (by simp [hne])
  | a :: as, b :: bs, has, hbs, h => by
    obtain ⟨ha, has⟩ := forall_mem_cons.mp has
    obtain ⟨hb, hbs⟩ := forall_mem_cons.mp hbs
    obtain ⟨hab, hrest⟩ := hinj ha hb h
    rw [hab, flatMap_inj_of_append_inj hne hinj has hbs hrest]

theorem writeKeyPart_ne_nil (value : GoString) : writeKeyPart value ≠ [] := by
  simp [writeKeyPart, putUint64]

/-- The bytes that are hashed tell lists of records apart, and lists of paths with their context. -/
theorem hash_inputs_injective :
    (∀ records others : List Recorded, (∀ record ∈ records, record.Sized) →
      (∀ record ∈ others, record.Sized) →
      fingerprintInput records = fingerprintInput others → records = others) ∧
    ∀ paths paths' context context', cacheKeyInput paths context = cacheKeyInput paths' context' →
      paths = paths' ∧ context = context' := by
  constructor
  · intro records others hrecords hothers h
    refine flatMap_inj_of_append_inj (fun record => ?_) Recorded.fed_append_inj hrecords hothers
      (writeKeyPart_append_inj h).2
    simp [Recorded.fed, writeKeyPart_ne_nil]
  · intro paths paths' context context' h
    have hparts := flatMap_inj_of_append_inj (P := fun _ => True) writeKeyPart_ne_nil
      (fun _ _ => writeKeyPart_append_inj) (fun _ _ => trivial) (fun _ _ => trivial) h
    simpa using hparts

def configInfo : FileInfo := ⟨⟨0x1a4, by decide⟩, 12, 1700000000000000000, 7⟩

def linkInfo : FileInfo := ⟨⟨0x80001ff, by decide⟩, 9, 1600000000000000000, 8⟩

def keyInfo : FileInfo := ⟨⟨0x180, by decide⟩, 3, 1650000000000000000, 9⟩

/-- A regular file, and one behind a link. -/
def configFiles : List (TrackedFile × Answers) :=
  [⟨⟨⟨ascii "config", by decide⟩, ⟨ascii "/home/config", by decide⟩, true⟩,
      none, .ok configInfo, none, true, some configInfo, ascii "clusters: []", none,
      some configInfo, none⟩,
    ⟨⟨⟨ascii "key", by decide⟩, ⟨ascii "/home/key", by decide⟩, false⟩,
      none, .ok linkInfo, some ⟨ascii "/keys/key", by decide⟩, true, some keyInfo, ascii "key",
      none, some linkInfo, some ⟨ascii "/keys/key", by decide⟩⟩]

def configRecords : List Recorded :=
  [⟨⟨ascii "config", by decide⟩, ⟨ascii "/home/config", by decide⟩, .regular, configInfo.mode, 12,
      1700000000000000000, ascii "clusters: []"⟩,
    ⟨⟨ascii "key", by decide⟩, ⟨ascii "/home/key", by decide⟩,
      .symlink ⟨ascii "/keys/key", by decide⟩, keyInfo.mode, 3, 1650000000000000000, ascii "key"⟩]

theorem configRecords_sized : ∀ record ∈ configRecords, record.Sized := by
  unfold Recorded.Sized
  decide

/-- The same files in another order, and a path that runs over into the context. -/
theorem hash_inputs_injective_config :
    (∀ record ∈ configRecords, record.Sized) ∧
    fingerprintInput configRecords ≠ fingerprintInput configRecords.reverse ∧
    cacheKeyInput [⟨ascii "/a", by decide⟩] ⟨ascii "b", by decide⟩ ≠
      cacheKeyInput [⟨ascii "/", by decide⟩] ⟨ascii "ab", by decide⟩ := by
  refine ⟨configRecords_sized, fun h => ?_, fun h => ?_⟩
  · have hsame := hash_inputs_injective.1 _ _ configRecords_sized
      (fun record hrecord => configRecords_sized record (mem_reverse.mp hrecord)) h
    exact absurd (congrArg (map Recorded.label) hsame) (by decide)
  · exact absurd (hash_inputs_injective.2 _ _ _ _ h).1 (by decide)

/-- A file that was read whole and did not change meanwhile. -/
def Recorded.Whole (maxFileSize : Int64) (file : TrackedFile × Answers) (record : Recorded) :
    Prop :=
  record.label = file.1.label ∧ record.path = file.1.path ∧ record.mode.IsRegular = true ∧
    record.content = file.2.content ∧ record.content.length ≤ maxFileSize.toInt ∧
    ∃ before after, file.2.before = .ok before ∧ file.2.after = some after ∧
      sameFileSnapshot before after = true

variable {file : TrackedFile × Answers} {files : List (TrackedFile × Answers)}
  {maxFileSize : Int64}

theorem toInt_add_one (h : maxFileSize.toInt < 2 ^ 63 - 1) :
    (maxFileSize + 1).toInt = maxFileSize.toInt + 1 := by
  have hge := maxFileSize.le_toInt
  rw [Int64.toInt_add, Int64.toInt_one, Int.bmod_eq_of_le] <;> omega

theorem hashFile_whole {record : Recorded} (hlimit : maxFileSize.toInt < 2 ^ 63 - 1)
    (h : hashFile file.1 file.2 maxFileSize = .ok record) : record.Whole maxFileSize file := by
  have hthrow : ∀ {α β : Type} (err : SafeError) (f : α → Except SafeError β),
      (throw err >>= f) = .error err := fun _ _ => rfl
  simp only [hashFile, pure_bind, hthrow, toInt_add_one hlimit] at h
  repeat' split at h
  all_goals cases h
  all_goals
    rename_i opened hopened _ _ _ _ hbound hunchanged
    have hwhole : file.2.content.length ≤ (maxFileSize.toInt + 1).toNat := by
      rw [length_take] at hbound
      omega
    rw [take_of_length_le hwhole, not_lt] at *
    simp only [Bool.not_eq_true', Bool.not_eq_false, unchanged, Option.any_eq_true] at hunchanged
    obtain ⟨after, hafter, hsame⟩ := hunchanged
    exact ⟨rfl, rfl, (Option.filter_eq_some_iff.mp hopened).2, rfl, hbound, _, after, ‹_›, hafter,
      (Bool.and_eq_true_iff.mp hsame).1⟩

/-- A fingerprint is one of whole files, each under its own label and path. -/
theorem fingerprintFiles_whole {sum : List UInt8 → Fingerprint} {fingerprint : Fingerprint}
    (hlimit : maxFileSize.toInt < 2 ^ 63 - 1)
    (h : fingerprintFiles sum maxFileSize (some files) = .ok fingerprint) :
    ∃ records, fingerprint = sum (fingerprintInput records) ∧
      Forall₂ (Recorded.Whole maxFileSize) files records := by
  obtain ⟨records, hrecords, hsum⟩ := except_bind_eq_ok h
  refine ⟨records, (Except.ok.inj hsum).symm, ?_⟩
  clear h hsum
  induction files generalizing records with
  | nil =>
    cases hrecords
    exact .nil
  | cons file rest ih =>
    rw [mapM_cons] at hrecords
    obtain ⟨record, hrecord, hrest⟩ := except_bind_eq_ok hrecords
    obtain ⟨later, hlater, hnext⟩ := except_bind_eq_ok hrest
    cases hnext
    refine .cons (hashFile_whole hlimit ?_) (ih later hlater)
    dsimp only at hrecord
    split at hrecord
    · cases hrecord
    · exact hrecord

def defaultMaxTrackedFileSize : Int64 := .ofNat (16 <<< 20)

def rollingSum (bytes : List UInt8) : Fingerprint :=
  bytes.foldl (fun sum byte => sum * 31 + BitVec.ofNat 256 byte.toNat) 7

theorem fingerprintFiles_whole_config :
    fingerprintFiles rollingSum defaultMaxTrackedFileSize (some configFiles) =
      .ok (rollingSum (fingerprintInput configRecords)) ∧
    ∃ records, rollingSum (fingerprintInput configRecords) =
        rollingSum (fingerprintInput records) ∧
      Forall₂ (Recorded.Whole defaultMaxTrackedFileSize) configFiles records := by
  have h : fingerprintFiles rollingSum defaultMaxTrackedFileSize (some configFiles) =
      .ok (rollingSum (fingerprintInput configRecords)) := rfl
  exact ⟨h, fingerprintFiles_whole (by decide) h⟩

end Kubepeep.Kubernetes
