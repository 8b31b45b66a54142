import RemoteCam.Lib.Crashes
import RemoteCam.Lib.Transitions
import RemoteCam.Security.PairingServer
import Mathlib.Logic.Function.Basic

/-! # The pairing store

`PairingStore`: `save` seals a record, writes and flushes it under a temporary name and renames that
to the device's file; `load` reads the file and checks all of it; `erase` deletes it. DPAPI is a
parameter. Every operation of Windows takes an answer, which makes it succeed or fail or is a crash
before or after it has taken effect; a crash leaves anything in a file that was not flushed, and
the next call is that of a new process.

The calls go to the stores of one directory, whatever their service. -/

namespace RemoteCam.Security.PairingStore

open RemoteCam.Lib RemoteCam.Lib.Crashes
open RemoteCam.Lib.Transitions (Machine)
open RemoteCam.Security.Protector (Bytes Key32 FixedBytes asciiBytes)
open RemoteCam.Security.StoredSessionSecurity (uint64Max)
open RemoteCam.Security.PairingServer (PairingRecord)

/-! ### Data -/

inductive Error where
  | invalidArgument
  | storageFailure
  | notFound
  | corruptRecord
  deriving DecidableEq, Repr

def kPlainMagic : Bytes := asciiBytes "RCPAIR01"
def kFileMagic : Bytes := asciiBytes "RCDPAPI1"
def kPlainBytes : ℕ := 8 + 16 + 16 + 8 + 8 + 32
def kMaxFileBytes : ℕ := 64 * 1024
def kMaxDword : ℕ := 2 ^ 32 - 1

/-- DPAPI, from entropy, plaintext and what it draws: what it seals it opens again, and the sealed
form of a record has room in a file. -/
structure Dpapi where
  protect : Bytes → Bytes → ℕ → Bytes
  unprotect : Bytes → Bytes → Option Bytes
  unprotect_protect : ∀ entropy plaintext draw,
    unprotect entropy (protect entropy plaintext draw) = some plaintext
  length_protect : ∀ entropy plaintext draw, plaintext.length = kPlainBytes →
    0 < (protect entropy plaintext draw).length ∧
      kFileMagic.length + 4 + (protect entropy plaintext draw).length ≤ kMaxFileBytes

/-- 16 lowercase hexadecimal digits. -/
def validId (id : Bytes) : Bool :=
  id.length = 16 ∧ id.all fun c => (0x30 ≤ c ∧ c ≤ 0x39) ∨ (0x61 ≤ c ∧ c ≤ 0x66)

abbrev Name := Bytes

def target (deviceId : Bytes) : Name := deviceId ++ asciiBytes ".rcpair"

def temporary (deviceId : Bytes) (processId counter : ℕ) : Name :=
  target deviceId ++ (asciiBytes ".tmp." ++ asciiBytes (toString processId) ++ asciiBytes "." ++
    asciiBytes (toString counter))

def entropyFor (serviceId : Bytes) : Bytes :=
  asciiBytes "RemoteCam DPAPI pairing record v1" ++ serviceId

/-! ### The format -/

def plaintextOf (record : PairingRecord) : Bytes :=
  kPlainMagic ++ (record.serviceId ++ (record.deviceId ++
    (BigEndian.write 8 record.createdUnixSeconds ++
      (BigEndian.write 8 record.expiresUnixSeconds ++ record.key.1))))

def fileBytesOf (encrypted : Bytes) : Bytes :=
  kFileMagic ++ (BigEndian.write 4 encrypted.length ++ encrypted)

variable (dpapi : Dpapi)

def unprotect (serviceId data : Bytes) : Except Error Bytes :=
  if data.length = 0 ∨ data.length > kMaxDword then .error .corruptRecord
  else
    match dpapi.unprotect (entropyFor serviceId) data with
    | none => .error .corruptRecord
    | some plaintext => .ok plaintext

def parsePlaintext (serviceId deviceId plaintext : Bytes) : Except Error PairingRecord :=
  if h : plaintext.length = kPlainBytes ∧ plaintext.take 8 = kPlainMagic then
    let parsed : PairingRecord :=
      { serviceId := (plaintext.drop 8).take 16
        deviceId := (plaintext.drop 24).take 16
        createdUnixSeconds := BigEndian.read ((plaintext.drop 40).take 8)
        expiresUnixSeconds := BigEndian.read ((plaintext.drop 48).take 8)
        key := ⟨plaintext.drop 56, by rw [List.length_drop, h.1]; rfl⟩ }
    if parsed.serviceId ≠ serviceId ∨ parsed.deviceId ≠ deviceId ∨
        parsed.expiresUnixSeconds ≤ parsed.createdUnixSeconds then
      .error .corruptRecord
    else .ok parsed
  else .error .corruptRecord

/-- `load` after it has read the file. -/
def parse (serviceId deviceId fileBytes : Bytes) : Except Error PairingRecord :=
  if fileBytes.length < kFileMagic.length + 4 ∨
      fileBytes.take kFileMagic.length ≠ kFileMagic then
    .error .corruptRecord
  else if BigEndian.read ((fileBytes.drop kFileMagic.length).take 4) ≠
      fileBytes.length - kFileMagic.length - 4 then
    .error .corruptRecord
  else do
    let plaintext ← unprotect dpapi serviceId (fileBytes.drop (kFileMagic.length + 4))
    parsePlaintext serviceId deviceId plaintext

/-! ### Windows -/

abbrev Disk := Name → Option Bytes

/-- `n` is what DPAPI draws, or how much a read or a write moves beyond one byte. -/
inductive Answer where
  | done (n : ℕ)
  | fail
  | crash (applied : Bool) (residue : Disk) (processId : ℕ)

def Answer.isDone : Answer → Bool
  | .done _ => true
  | _ => false

/-- `dirty` are the files that may not be on disk as they are. -/
structure Sys where
  disk : Disk
  dirty : List Name := []
  processId : ℕ := 0
  /-- `g_tempCounter`. -/
  tempCounter : ℕ := 0
  /-- To the operations to come; when there are no more they succeed. -/
  answers : List Answer := []

def Sys.answer (s : Sys) : Answer × Sys :=
  match s.answers with
  | [] => (.done 0, s)
  | a :: answers => (a, { s with answers })

def Sys.crash (s : Sys) (residue : Disk) (processId : ℕ) : Sys where
  disk name := if s.dirty.any (· = name) then residue name else s.disk name
  processId := processId

/-- An operation that has an effect or fails. -/
def operation {α : Type} (failed : α) (effect : ℕ → Sys → α × Sys) : Prog Sys α := fun s =>
  match s.answer with
  | (.done n, s) => (.returned (effect n s).1, (effect n s).2)
  | (.fail, s) => (.returned failed, s)
  | (.crash applied residue processId, s) =>
    (.crashed, (if applied then (effect 0 s).2 else s).crash residue processId)

def cryptProtectData (entropy plaintext : Bytes) : Prog Sys (Option Bytes) :=
  operation none fun n s => (some (dpapi.protect entropy plaintext n), s)

def createDirectories : Prog Sys Bool := operation false fun _ s => (true, s)

/-- With `CREATE_NEW`. -/
def createFile (name : Name) : Prog Sys Bool :=
  operation false fun _ s =>
    if (s.disk name).isSome then (false, s)
    else
      (true, { s with disk := Function.update s.disk name (some []), dirty := name :: s.dirty })

def writeFile (name : Name) (chunk : Bytes) : Prog Sys (Option ℕ) :=
  operation none fun n s =>
    (some (chunk.take (n + 1)).length,
      { s with
        disk := Function.update s.disk name ((s.disk name).map (· ++ chunk.take (n + 1)))
        dirty := name :: s.dirty })

def flushFileBuffers (name : Name) : Prog Sys Bool :=
  operation false fun _ s => (true, { s with dirty := s.dirty.filter (· ≠ name) })

/-- With `MOVEFILE_REPLACE_EXISTING`. -/
def moveFile (source destination : Name) : Prog Sys Bool :=
  operation false fun _ s =>
    match s.disk source with
    | none => (false, s)
    | some content =>
      (true,
        { s with
          disk := Function.update (Function.update s.disk destination (some content)) source none
          dirty := (s.dirty.filter (· ≠ destination)).map fun name =>
            if name = source then destination else name })

inductive Found where
  | found
  | notFound
  | failed
  deriving DecidableEq, Repr

def deleteFile (name : Name) : Prog Sys Found :=
  operation .failed fun _ s =>
    if (s.disk name).isSome then (.found, { s with disk := Function.update s.disk name none })
    else (.notFound, s)

def openFile (name : Name) : Prog Sys Found :=
  operation .failed fun _ s => (if (s.disk name).isSome then .found else .notFound, s)

def getFileSize (name : Name) : Prog Sys (Option ℕ) :=
  operation none fun _ s => (some ((s.disk name).getD []).length, s)

def readChunk (name : Name) (offset count : ℕ) : Prog Sys (Option Bytes) :=
  operation none fun n s =>
    (some ((((s.disk name).getD []).drop offset).take (min (n + 1) count)), s)

/-! ### The calls -/

/-- The loop of `writeAll`; each turn writes a byte at least. -/
def writeLoop (name : Name) : ℕ → Bytes → Prog Sys Bool
  | 0, _ => pure true
  | fuel + 1, rest =>
    if rest = [] then pure true
    else do
      let written ← writeFile name (rest.take kMaxDword)
      match written with
      | none => return false
      | some 0 => return false
      | some (n + 1) => writeLoop name fuel (rest.drop (n + 1))

def writeAll (name : Name) (bytes : Bytes) : Prog Sys Bool := do
  let written ← writeLoop name bytes.length bytes
  if written then flushFileBuffers name else return false

/-- The loop of `readFile`; each turn reads a byte at least. -/
def readLoop (name : Name) (size : ℕ) : ℕ → Bytes → Prog Sys (Except Error Bytes)
  | 0, bytes => return .ok bytes
  | fuel + 1, bytes =>
    if bytes.length < size then do
      let chunk ← readChunk name bytes.length (size - bytes.length)
      match chunk with
      | none => return .error .storageFailure
      | some [] => return .error .storageFailure
      | some (b :: chunk) => readLoop name size fuel (bytes ++ b :: chunk)
    else return .ok bytes

def readFile (name : Name) : Prog Sys (Except Error Bytes) := do
  let file ← openFile name
  match file with
  | .notFound => return .error .notFound
  | .failed => return .error .storageFailure
  | .found =>
    let size ← getFileSize name
    match size with
    | none => return .error .corruptRecord
    | some size =>
      if size = 0 ∨ size > kMaxFileBytes then return .error .corruptRecord
      else readLoop name size size []

/-- The name of a file that no other `save` of the process uses. -/
def temporaryPath (deviceId : Bytes) : Prog Sys Name := fun s =>
  (.returned (temporary deviceId s.processId s.tempCounter),
    { s with tempCounter := s.tempCounter + 1 })

/-- The rename is not tried after a write that failed. -/
def moveWritten (written : Bool) (source destination : Name) : Prog Sys Bool :=
  if written then moveFile source destination else return false

variable (directory : Bytes)

def save (serviceId : Bytes) (record : PairingRecord) : Prog Sys (Except Error Unit) :=
  if !validId serviceId ∨ record.serviceId ≠ serviceId ∨ !validId record.deviceId ∨
      record.expiresUnixSeconds ≤ record.createdUnixSeconds ∨ directory = [] then
    return .error .invalidArgument
  else do
    let encrypted ← cryptProtectData dpapi (entropyFor serviceId) (plaintextOf record)
    match encrypted with
    | none => return .error .storageFailure
    | some encrypted =>
      let created ← createDirectories
      if !created then return .error .storageFailure
      else
        let temporary ← temporaryPath record.deviceId
        let opened ← createFile temporary
        if !opened then return .error .storageFailure
        else
          let written ← writeAll temporary (fileBytesOf encrypted)
          let moved ← moveWritten written temporary (target record.deviceId)
          if moved then return .ok ()
          else
            let _ ← deleteFile temporary
            return .error .storageFailure

def load (serviceId deviceId : Bytes) : Prog Sys (Except Error PairingRecord) :=
  if !validId serviceId ∨ !validId deviceId ∨ directory = [] then return .error .invalidArgument
  else do
    let fileBytes ← readFile (target deviceId)
    match fileBytes with
    | .error error => return .error error
    | .ok fileBytes => return parse dpapi serviceId deviceId fileBytes

def erase (deviceId : Bytes) : Prog Sys (Except Error Unit) :=
  if !validId deviceId ∨ directory = [] then return .error .invalidArgument
  else do
    let deleted ← deleteFile (target deviceId)
    match deleted with
    | .found => return .ok ()
    | .notFound => return .ok ()
    | .failed => return .error .storageFailure

/-! ### Sequences of calls -/

/-- The times are 64-bit. -/
def Fits (record : PairingRecord) : Prop :=
  record.createdUnixSeconds ≤ uint64Max ∧ record.expiresUnixSeconds ≤ uint64Max

inductive Call where
  | save (record : { record : PairingRecord // Fits record })
  | load (deviceId : Bytes)
  | erase (deviceId : Bytes)

def Call.deviceId : Call → Bytes
  | .save record => record.1.deviceId
  | .load deviceId => deviceId
  | .erase deviceId => deviceId

inductive Reply where
  | done
  | record (record : PairingRecord)
  | error (error : Error)
  deriving DecidableEq, Repr

def Reply.ofUnit : Except Error Unit → Reply
  | .ok _ => .done
  | .error e => .error e

def Reply.ofRecord : Except Error PairingRecord → Reply
  | .ok r => .record r
  | .error e => .error e

/-- A call of the store for `serviceId`, and what Windows answers. -/
structure Step where
  serviceId : Bytes
  call : Call
  answers : List Answer := []

def program (step : Step) : Prog Sys Reply :=
  match step.call with
  | .save record => do
    let result ← save dpapi directory step.serviceId record.1
    return .ofUnit result
  | .load deviceId => do
    let result ← load dpapi directory step.serviceId deviceId
    return .ofRecord result
  | .erase deviceId => do
    let result ← erase directory deviceId
    return .ofUnit result

def perform (s : Sys) (step : Step) : Outcome Reply × Sys :=
  program dpapi directory step { s with answers := step.answers }

/-- Every sequence of calls is a run. -/
def machine : Machine Sys Step where
  enabled _ _ := True
  next s step := (perform dpapi directory s step).2

/-! ### What is asked for -/

/-- What `load` returns when nothing fails. -/
def loaded (disk : Disk) (serviceId deviceId : Bytes) : Except Error PairingRecord :=
  if !validId serviceId ∨ !validId deviceId ∨ directory = [] then .error .invalidArgument
  else
    match disk (target deviceId) with
    | none => .error .notFound
    | some fileBytes =>
      if fileBytes.length = 0 ∨ fileBytes.length > kMaxFileBytes then .error .corruptRecord
      else parse dpapi serviceId deviceId fileBytes

/-- All records are as loadable as before. -/
def Unchanged (s s' : Sys) : Prop :=
  ∀ serviceId deviceId, loaded dpapi directory s'.disk serviceId deviceId =
    loaded dpapi directory s.disk serviceId deviceId

/-- What is promised of a call. -/
structure Promised (s : Sys) (step : Step) : Prop where
  saved : ∀ record, step.call = .save record →
    (perform dpapi directory s step).1 = .returned .done →
    loaded dpapi directory (perform dpapi directory s step).2.disk step.serviceId
      record.1.deviceId = .ok record.1
  failed : ∀ error, (perform dpapi directory s step).1 = .returned (.error error) →
    Unchanged dpapi directory s (perform dpapi directory s step).2
  /-- A call that is cut short has done nothing, or all of it. -/
  interrupted : (perform dpapi directory s step).1 = .crashed →
    Unchanged dpapi directory s (perform dpapi directory s step).2 ∨
    (∃ record, step.call = .save record ∧
      loaded dpapi directory (perform dpapi directory s step).2.disk step.serviceId
        record.1.deviceId = .ok record.1) ∨
    ∃ deviceId, step.call = .erase deviceId ∧ ∀ serviceId record,
      loaded dpapi directory (perform dpapi directory s step).2.disk serviceId deviceId ≠
        .ok record
  read : ∀ deviceId, step.call = .load deviceId →
    Unchanged dpapi directory s (perform dpapi directory s step).2 ∧
    (∀ record, (perform dpapi directory s step).1 = .returned (.record record) →
      loaded dpapi directory s.disk step.serviceId deviceId = .ok record ∧
      record.serviceId = step.serviceId ∧ record.deviceId = deviceId ∧
      record.createdUnixSeconds < record.expiresUnixSeconds) ∧
    ((∀ a ∈ step.answers, a.isDone = true) → (perform dpapi directory s step).1 =
      .returned (.ofRecord (loaded dpapi directory s.disk step.serviceId deviceId)))
  others : ∀ serviceId deviceId, deviceId ≠ step.call.deviceId →
    loaded dpapi directory (perform dpapi directory s step).2.disk serviceId deviceId =
      loaded dpapi directory s.disk serviceId deviceId

/-- The call is not a `save` or `erase` for the device, or it fails, or it is cut short before it
has done anything. -/
def spares (deviceId : Bytes) (s : Sys) (step : Step) : Prop :=
  step.call.deviceId = deviceId → (∃ deviceId, step.call = .load deviceId) ∨
    (∃ error, (perform dpapi directory s step).1 = .returned (.error error)) ∨
    ((perform dpapi directory s step).1 = .crashed ∧
      Unchanged dpapi directory s (perform dpapi directory s step).2)

/-! ### The format -/

variable {dpapi directory}

theorem length_plaintextOf {record : PairingRecord} (hservice : record.serviceId.length = 16)
    (hdevice : record.deviceId.length = 16) : (plaintextOf record).length = kPlainBytes := by
  simp only [plaintextOf, List.length_append, BigEndian.length_write, hservice, hdevice,
    record.key.2]
  rfl

theorem length_of_validId {id : Bytes} (h : validId id = true) : id.length = 16 := by
  unfold validId at h
  simp only [decide_eq_true_eq] at h
  exact h.1

/-- The fields of a plaintext, one after the other. -/
theorem drop_append_of_length {a b : Bytes} {n : ℕ} (h : a.length = n) : (a ++ b).drop n = b := by
  rw [← h, List.drop_left]

theorem take_append_of_length {a b : Bytes} {n : ℕ} (h : a.length = n) : (a ++ b).take n = a := by
  rw [← h, List.take_left]

theorem parsePlaintext_plaintextOf {record : PairingRecord} (hfits : Fits record)
    (hservice : record.serviceId.length = 16) (hdevice : record.deviceId.length = 16)
    (hexpires : record.createdUnixSeconds < record.expiresUnixSeconds) :
    parsePlaintext record.serviceId record.deviceId (plaintextOf record) = .ok record := by
  have h8 := @drop_append_of_length kPlainMagic (record.serviceId ++ (record.deviceId ++
    (BigEndian.write 8 record.createdUnixSeconds ++
      (BigEndian.write 8 record.expiresUnixSeconds ++ record.key.1)))) 8 (by decide)
  have h24 := @drop_append_of_length record.serviceId (record.deviceId ++
    (BigEndian.write 8 record.createdUnixSeconds ++
      (BigEndian.write 8 record.expiresUnixSeconds ++ record.key.1))) 16 hservice
  have h40 := @drop_append_of_length record.deviceId (BigEndian.write 8 record.createdUnixSeconds ++
    (BigEndian.write 8 record.expiresUnixSeconds ++ record.key.1)) 16 hdevice
  have h48 := @drop_append_of_length (BigEndian.write 8 record.createdUnixSeconds)
    (BigEndian.write 8 record.expiresUnixSeconds ++ record.key.1) 8 (BigEndian.length_write 8 _)
  have h56 := @drop_append_of_length (BigEndian.write 8 record.expiresUnixSeconds) record.key.1 8
    (BigEndian.length_write 8 _)
  rw [← h8, List.drop_drop] at h24
  rw [← h24, List.drop_drop] at h40
  rw [← h40, List.drop_drop] at h48
  rw [← h48, List.drop_drop] at h56
  change (plaintextOf record).drop 8 = _ at h8
  change (plaintextOf record).drop 24 = _ at h24
  change (plaintextOf record).drop 40 = _ at h40
  change (plaintextOf record).drop 48 = _ at h48
  change (plaintextOf record).drop 56 = _ at h56
  have hcreated := @BigEndian.read_write 8 record.createdUnixSeconds
    (Nat.lt_of_le_of_lt hfits.1 (by decide))
  have hexpires' := @BigEndian.read_write 8 record.expiresUnixSeconds
    (Nat.lt_of_le_of_lt hfits.2 (by decide))
  unfold parsePlaintext
  rw [dif_pos ⟨length_plaintextOf hservice hdevice, take_append_of_length (by decide)⟩]
  simp only [h8, h24, h40, h48, h56, take_append_of_length hservice, take_append_of_length hdevice,
    take_append_of_length (BigEndian.length_write 8 _), hcreated, hexpires']
  rw [if_neg (by simp only [ne_eq, not_true, false_or, not_le]; exact hexpires)]

theorem parsePlaintext_sound {serviceId deviceId plaintext : Bytes} {record : PairingRecord}
    (h : parsePlaintext serviceId deviceId plaintext = .ok record) :
    record.serviceId = serviceId ∧ record.deviceId = deviceId ∧
      record.createdUnixSeconds < record.expiresUnixSeconds := by
  unfold parsePlaintext at h
  split_ifs at h with hform
  dsimp only at h
  split_ifs at h with hbad
  simp only [not_or, not_not, not_le] at hbad
  rw [← Except.ok.inj h]
  exact hbad

theorem parse_sound {serviceId deviceId fileBytes : Bytes} {record : PairingRecord}
    (h : parse dpapi serviceId deviceId fileBytes = .ok record) :
    record.serviceId = serviceId ∧ record.deviceId = deviceId ∧
      record.createdUnixSeconds < record.expiresUnixSeconds := by
  unfold parse at h
  split_ifs at h
  cases hplain : unprotect dpapi serviceId (fileBytes.drop (kFileMagic.length + 4)) with
  | error error =>
    rw [hplain] at h
    cases h
  | ok plaintext =>
    rw [hplain] at h
    exact parsePlaintext_sound h

/-- What `save` needs of its arguments. -/
structure Savable (directory serviceId : Bytes) (record : PairingRecord) : Prop where
  service : validId serviceId = true
  same : record.serviceId = serviceId
  device : validId record.deviceId = true
  expires : record.createdUnixSeconds < record.expiresUnixSeconds
  directory : directory ≠ []

/-- The file of a record. -/
def fileOf (dpapi : Dpapi) (serviceId : Bytes) (record : PairingRecord) (draw : ℕ) : Bytes :=
  fileBytesOf (dpapi.protect (entropyFor serviceId) (plaintextOf record) draw)

theorem Savable.length {serviceId : Bytes} {record : PairingRecord}
    (S : Savable directory serviceId record) : (plaintextOf record).length = kPlainBytes :=
  length_plaintextOf (by rw [S.same]; exact length_of_validId S.service)
    (length_of_validId S.device)

theorem length_fileBytesOf (encrypted : Bytes) :
    (fileBytesOf encrypted).length = kFileMagic.length + 4 + encrypted.length := by
  simp only [fileBytesOf, List.length_append, BigEndian.length_write]
  omega

/-- What was sealed is what is read. -/
theorem parse_fileOf {serviceId : Bytes} {record : PairingRecord}
    (S : Savable directory serviceId record) (hfits : Fits record) (draw : ℕ) :
    parse dpapi serviceId record.deviceId (fileOf dpapi serviceId record draw) = .ok record := by
  obtain ⟨hpos, hroom⟩ := dpapi.length_protect (entropyFor serviceId) _ draw S.length
  have hopen := dpapi.unprotect_protect (entropyFor serviceId) (plaintextOf record) draw
  have hplain := parsePlaintext_plaintextOf hfits
    (by rw [S.same]; exact length_of_validId S.service) (length_of_validId S.device) S.expires
  rw [S.same] at hplain
  unfold fileOf
  generalize dpapi.protect (entropyFor serviceId) (plaintextOf record) draw = encrypted at *
  have hsmall : encrypted.length ≤ kMaxFileBytes := (Nat.le_add_left _ _).trans hroom
  have hmax : kMaxFileBytes < kMaxDword := by decide
  have hmagic : (fileBytesOf encrypted).take kFileMagic.length = kFileMagic :=
    take_append_of_length rfl
  have hrest : (fileBytesOf encrypted).drop kFileMagic.length =
      BigEndian.write 4 encrypted.length ++ encrypted := drop_append_of_length rfl
  have hdata : (fileBytesOf encrypted).drop (kFileMagic.length + 4) = encrypted := by
    rw [← List.drop_drop, hrest]
    exact drop_append_of_length (BigEndian.length_write 4 _)
  have hsize : BigEndian.read (((fileBytesOf encrypted).drop kFileMagic.length).take 4) =
      encrypted.length := by
    rw [hrest, take_append_of_length (BigEndian.length_write 4 _)]
    exact BigEndian.read_write (Nat.lt_of_le_of_lt (hsmall.trans hmax.le) (by decide))
  unfold parse
  rw [if_neg (by rw [not_or, hmagic, length_fileBytesOf]; exact ⟨by omega, not_not.mpr rfl⟩),
    if_neg (by rw [hsize, length_fileBytesOf, not_not]; omega), hdata]
  have hunprotect : unprotect dpapi serviceId encrypted = .ok (plaintextOf record) := by
    unfold unprotect
    rw [if_neg (by omega), hopen]
  rw [hunprotect]
  exact hplain

/-! ### What a call may touch -/

/-- The devices' files are as in `disk`, and none of them is at risk. -/
structure Records (disk : Disk) (s : Sys) : Prop where
  same : ∀ id, validId id = true → s.disk (target id) = disk (target id)
  clean : ∀ id, validId id = true → target id ∉ s.dirty

variable {disk : Disk} {s : Sys}

theorem Records.answers (h : Records disk s) (answers : List Answer) :
    Records disk { s with answers } := ⟨h.same, h.clean⟩

theorem Records.crash (h : Records disk s) (residue : Disk) (processId : ℕ) :
    Records disk (s.crash residue processId) where
  same id hid := by
    rw [← h.same id hid]
    refine if_neg fun hany => h.clean id hid ?_
    obtain ⟨other, hmem, heq⟩ := List.any_eq_true.mp hany
    rwa [of_decide_eq_true heq] at hmem
  clean _ _ := List.not_mem_nil

theorem target_injective {id id' : Bytes} (h : target id = target id') : id = id' :=
  List.append_cancel_right h

theorem temporary_ne_target {deviceId id : Bytes} (hdevice : validId deviceId = true)
    (hid : validId id = true) (processId counter : ℕ) :
    temporary deviceId processId counter ≠ target id := by
  intro h
  have hlength := congrArg List.length h
  have htext : (asciiBytes ".tmp.").length = 5 := by decide
  simp only [temporary, target, List.length_append, length_of_validId hdevice,
    length_of_validId hid, htext] at hlength
  omega

/-- Other files may change. -/
theorem Records.touch (h : Records disk s) {s' : Sys} {name : Name}
    (hname : ∀ id, validId id = true → name ≠ target id)
    (hdisk : ∀ other, other ≠ name → s'.disk other = s.disk other)
    (hdirty : ∀ other ∈ s'.dirty, other = name ∨ other ∈ s.dirty) : Records disk s' where
  same id hid := (hdisk _ (hname id hid).symm).trans (h.same id hid)
  clean id hid hmem := by
    rcases hdirty _ hmem with heq | hold
    · exact hname id hid heq.symm
    · exact h.clean id hid hold

/-- Records with one of them replaced. -/
theorem Records.replace (h : Records disk s) {s' : Sys} {deviceId : Bytes} {content : Option Bytes}
    (htarget : s'.disk (target deviceId) = content)
    (hdisk : ∀ id, validId id = true → target id ≠ target deviceId →
      s'.disk (target id) = s.disk (target id))
    (hclean : ∀ id, validId id = true → target id ∉ s'.dirty) :
    Records (Function.update disk (target deviceId) content) s' where
  same id hid := by
    by_cases hsame : target id = target deviceId
    · rw [hsame, htarget, Function.update_self]
    · rw [Function.update_of_ne hsame, hdisk id hid hsame]
      exact h.same id hid
  clean := hclean

/-! ### The operations -/

theorem operation_triple {α : Type} {P C : Sys → Prop} {Q : α → Sys → Prop} {failed : α}
    {effect : ℕ → Sys → α × Sys} (hanswers : ∀ s answers, P s → P { s with answers })
    (hdone : ∀ n s, P s → Q (effect n s).1 (effect n s).2) (hfail : ∀ s, P s → Q failed s)
    (hcrash : ∀ s residue processId, P s →
      C (s.crash residue processId) ∧ C ((effect 0 s).2.crash residue processId)) :
    Triple P (operation failed effect) Q C := by
  have hanswer : ∀ s, P s → P s.answer.2 := by
    intro s hP
    unfold Sys.answer
    cases s.answers with
    | nil => exact hP
    | cons a answers => exact hanswers s answers hP
  constructor
  · intro s a s' hP heq
    have hP' := hanswer s hP
    unfold operation at heq
    obtain ⟨answer, t, hrun⟩ : ∃ answer t, s.answer = (answer, t) := ⟨_, _, rfl⟩
    rw [hrun] at heq hP'
    cases answer with
    | done n =>
      cases heq
      exact hdone n t hP'
    | fail =>
      cases heq
      exact hfail _ hP'
    | crash applied residue processId => cases heq
  · intro s s' hP heq
    have hP' := hanswer s hP
    unfold operation at heq
    obtain ⟨answer, t, hrun⟩ : ∃ answer t, s.answer = (answer, t) := ⟨_, _, rfl⟩
    rw [hrun] at heq hP'
    cases answer with
    | done n => cases heq
    | fail => cases heq
    | crash applied residue processId =>
      cases heq
      cases applied with
      | true => exact (hcrash t residue processId hP').2
      | false => exact (hcrash t residue processId hP').1

section Writing

variable {name : Name} (hname : ∀ id, validId id = true → name ≠ target id)
include hname

theorem createFile_triple : Triple (Records disk) (createFile name)
    (fun created s => Records disk s ∧ (created = true → s.disk name = some []))
    (Records disk) := by
  have hstep (s : Sys) (h : Records disk s) :
      Records disk
        { s with disk := Function.update s.disk name (some []), dirty := name :: s.dirty } :=
    h.touch hname (fun other hother => Function.update_of_ne hother _ _) fun other hmem =>
      List.mem_cons.mp hmem
  refine operation_triple (fun s answers h => h.answers answers) (fun n s h => ?_)
    (fun s h => ⟨h, nofun⟩) fun s residue processId h => ⟨h.crash _ _, ?_⟩
  · split_ifs
    · exact ⟨h, nofun⟩
    · exact ⟨hstep s h, fun _ => Function.update_self ..⟩
  · split_ifs
    · exact h.crash _ _
    · exact (hstep s h).crash _ _

theorem writeFile_triple (chunk content : Bytes) :
    Triple (fun s => Records disk s ∧ s.disk name = some content) (writeFile name chunk)
      (fun written s => Records disk s ∧ ∀ n, written = some n →
        n ≤ chunk.length ∧ s.disk name = some (content ++ chunk.take n))
      (Records disk) := by
  have hstep (n : ℕ) (s : Sys) (h : Records disk s) :
      Records disk
        { s with
          disk := Function.update s.disk name ((s.disk name).map (· ++ chunk.take (n + 1)))
          dirty := name :: s.dirty } :=
    h.touch hname (fun other hother => Function.update_of_ne hother _ _) fun other hmem =>
      List.mem_cons.mp hmem
  refine operation_triple (fun s answers h => ⟨h.1.answers answers, h.2⟩) (fun n s h => ?_)
    (fun s h => ⟨h.1, nofun⟩) fun s residue processId h =>
      ⟨h.1.crash _ _, (hstep 0 s h.1).crash _ _⟩
  refine ⟨hstep n s h.1, fun m hm => ?_⟩
  rw [← Option.some.inj hm]
  have htake : chunk.take (chunk.take (n + 1)).length = chunk.take (n + 1) := by
    rw [List.length_take, List.take_eq_take_iff]
    omega
  dsimp only
  rw [Function.update_self, h.2, Option.map_some, htake]
  exact ⟨List.length_take_le' .., rfl⟩

theorem writeLoop_triple (fuel : ℕ) (rest content : Bytes) (hfuel : rest.length ≤ fuel) :
    Triple (fun s => Records disk s ∧ s.disk name = some content) (writeLoop name fuel rest)
      (fun written s => Records disk s ∧ (written = true → s.disk name = some (content ++ rest)))
      (Records disk) := by
  induction fuel generalizing rest content with
  | zero =>
    have hnil : rest = [] := List.length_eq_zero_iff.mp (Nat.le_zero.mp hfuel)
    refine Triple.pure fun s h => ⟨h.1, fun _ => ?_⟩
    rw [hnil, List.append_nil]
    exact h.2
  | succ fuel ih =>
    unfold writeLoop
    split_ifs with hnil
    · refine Triple.pure fun s h => ⟨h.1, fun _ => ?_⟩
      rw [hnil, List.append_nil]
      exact h.2
    · refine (writeFile_triple hname (rest.take kMaxDword) content).bind fun written => ?_
      rcases written with _ | _ | n
      · exact Triple.pure fun s h => ⟨h.1, nofun⟩
      · exact Triple.pure fun s h => ⟨h.1, nofun⟩
      · have hloop (hn : n + 1 ≤ (rest.take kMaxDword).length) :
            Triple (fun s => Records disk s ∧
                s.disk name = some (content ++ (rest.take kMaxDword).take (n + 1)))
              (writeLoop name fuel (rest.drop (n + 1)))
              (fun written s => Records disk s ∧
                (written = true → s.disk name = some (content ++ rest))) (Records disk) := by
          have hchunk : (rest.take kMaxDword).take (n + 1) = rest.take (n + 1) := by
            rw [List.length_take] at hn
            rw [List.take_take]
            congr 1
            omega
          have hrest : content ++ rest.take (n + 1) ++ rest.drop (n + 1) = content ++ rest := by
            rw [List.append_assoc, List.take_append_drop]
          have hlength : (rest.drop (n + 1)).length ≤ fuel := by
            rw [List.length_drop]
            omega
          have htriple := ih (rest.drop (n + 1)) (content ++ rest.take (n + 1)) hlength
          rw [hrest] at htriple
          rw [hchunk]
          exact htriple
        exact (Triple.of_imp hloop).weaken
          (fun s h => ⟨(h.2 _ rfl).1, h.1, (h.2 _ rfl).2⟩) (fun _ _ h => h) fun _ h => h

theorem flushFileBuffers_triple (content : Bytes) :
    Triple (fun s => Records disk s ∧ s.disk name = some content) (flushFileBuffers name)
      (fun flushed s => Records disk s ∧
        (flushed = true → s.disk name = some content ∧ name ∉ s.dirty))
      (Records disk) := by
  have hstep (s : Sys) (h : Records disk s) :
      Records disk { s with dirty := s.dirty.filter (· ≠ name) } :=
    h.touch hname (fun _ _ => rfl) fun other hmem => .inr (List.mem_filter.mp hmem).1
  refine operation_triple (fun s answers h => ⟨h.1.answers answers, h.2⟩) (fun n s h => ?_)
    (fun s h => ⟨h.1, nofun⟩) fun s residue processId h => ⟨h.1.crash _ _, (hstep s h.1).crash _ _⟩
  refine ⟨hstep s h.1, fun _ => ⟨h.2, fun hmem => ?_⟩⟩
  simpa using (List.mem_filter.mp hmem).2

theorem writeAll_triple (bytes : Bytes) :
    Triple (fun s => Records disk s ∧ s.disk name = some []) (writeAll name bytes)
      (fun written s => Records disk s ∧
        (written = true → s.disk name = some bytes ∧ name ∉ s.dirty))
      (Records disk) := by
  refine (writeLoop_triple hname bytes.length bytes [] (Nat.le_refl _)).bind fun written => ?_
  cases written with
  | true =>
    exact (flushFileBuffers_triple hname bytes).weaken (fun s h => ⟨h.1, h.2 rfl⟩)
      (fun _ _ h => h) fun _ h => h
  | false => exact Triple.pure fun s h => ⟨h.1, nofun⟩

theorem deleteFile_triple : Triple (Records disk) (deleteFile name) (fun _ => Records disk)
    (Records disk) := by
  have hstep (s : Sys) (h : Records disk s) :
      Records disk { s with disk := Function.update s.disk name none } :=
    h.touch hname (fun other hother => Function.update_of_ne hother _ _) fun _ => .inr
  refine operation_triple (fun s answers h => h.answers answers) (fun n s h => ?_)
    (fun s h => h) fun s residue processId h => ⟨h.crash _ _, ?_⟩
  · split_ifs
    · exact hstep s h
    · exact h
  · split_ifs
    · exact (hstep s h).crash _ _
    · exact h.crash _ _

/-- The rename is the one step that changes a record. -/
theorem moveFile_triple (deviceId content : Bytes) (htarget : target deviceId ≠ name) :
    Triple (fun s => Records disk s ∧ s.disk name = some content ∧ name ∉ s.dirty)
      (moveFile name (target deviceId))
      (fun moved s => if moved then
        Records (Function.update disk (target deviceId) (some content)) s else Records disk s)
      (fun s => Records disk s ∨
        Records (Function.update disk (target deviceId) (some content)) s) := by
  have hstep (s : Sys) (h : Records disk s ∧ s.disk name = some content ∧ name ∉ s.dirty) :
      Records (Function.update disk (target deviceId) (some content))
        { s with
          disk :=
            Function.update (Function.update s.disk (target deviceId) (some content)) name none
          dirty := (s.dirty.filter (· ≠ target deviceId)).map fun other =>
            if other = name then target deviceId else other } := by
    refine h.1.replace ?_ (fun id hid hother => ?_) fun id hid hmem => ?_
    · dsimp only
      rw [Function.update_of_ne htarget, Function.update_self]
    · dsimp only
      rw [Function.update_of_ne (hname id hid).symm, Function.update_of_ne hother]
    · obtain ⟨other, hother, heq⟩ := List.mem_map.mp hmem
      have hdirty := (List.mem_filter.mp hother).1
      split_ifs at heq with hname'
      · exact h.2.2 (hname' ▸ hdirty)
      · exact h.1.clean id hid (heq ▸ hdirty)
  refine operation_triple (fun s answers h => ⟨h.1.answers answers, h.2⟩) (fun n s h => ?_)
    (fun s h => ?_) fun s residue processId h => ⟨.inl (h.1.crash _ _), .inr ?_⟩
  · rw [h.2.1]
    exact hstep s h
  · exact h.1
  · rw [h.2.1]
    exact (hstep s h).crash _ _

end Writing

/-! ### The calls -/

/-- `save` does all of its work or leaves the records alone. -/
theorem save_triple (serviceId : Bytes) (record : PairingRecord) :
    Triple (Records disk) (save dpapi directory serviceId record)
      (fun result s => match result with
        | .ok _ => Savable directory serviceId record ∧ ∃ draw, Records
            (Function.update disk (target record.deviceId)
              (some (fileOf dpapi serviceId record draw))) s
        | .error _ => Records disk s)
      (fun s => Records disk s ∨ (Savable directory serviceId record ∧ ∃ draw, Records
        (Function.update disk (target record.deviceId)
          (some (fileOf dpapi serviceId record draw))) s)) := by
  unfold save
  split_ifs with hinvalid
  · exact Triple.pure fun s h => h
  · have S : Savable directory serviceId record := by
      simp only [not_or, Bool.not_eq_true', Bool.not_eq_false, not_not, not_le] at hinvalid
      obtain ⟨hservice, hsame, hdevice, hexpires, hdirectory⟩ := hinvalid
      exact ⟨hservice, hsame, hdevice, hexpires, hdirectory⟩
    have hprotect : Triple (Records disk)
        (cryptProtectData dpapi (entropyFor serviceId) (plaintextOf record))
        (fun encrypted s => (∀ bytes, encrypted = some bytes → ∃ draw,
          bytes = dpapi.protect (entropyFor serviceId) (plaintextOf record) draw) ∧
          Records disk s) (Records disk) :=
      operation_triple (fun s answers h => h.answers answers)
        (fun n s h => ⟨fun bytes hbytes => ⟨n, (Option.some.inj hbytes).symm⟩, h⟩)
        (fun s h => ⟨nofun, h⟩) fun s residue processId h => ⟨h.crash _ _, h.crash _ _⟩
    have hdirectories : Triple (Records disk) createDirectories (fun _ => Records disk)
        (Records disk) :=
      operation_triple (fun s answers h => h.answers answers) (fun n s h => h) (fun s h => h)
        fun s residue processId h => ⟨h.crash _ _, h.crash _ _⟩
    have hpath : Triple (Records disk) (temporaryPath record.deviceId)
        (fun name s => (∃ processId counter, name = temporary record.deviceId processId counter) ∧
          Records disk s) (Records disk) :=
      ⟨fun s name s' h heq => by
        cases heq
        exact ⟨⟨_, _, rfl⟩, h.same, h.clean⟩, fun s s' h heq => by cases heq⟩
    refine (hprotect.weaken (fun _ h => h) (fun _ _ h => h) fun _ h => .inl h).bind
      fun encrypted => ?_
    cases encrypted with
    | none => exact Triple.pure fun s h => h.2
    | some encrypted =>
      refine (Triple.of_imp fun hencrypted => ?_)
      obtain ⟨draw, hdraw⟩ := hencrypted encrypted rfl
      have hbytes : fileBytesOf encrypted = fileOf dpapi serviceId record draw := by
        rw [hdraw]
        rfl
      refine (hdirectories.weaken (fun _ h => h) (fun _ _ h => h) fun _ h => .inl h).bind
        fun created => ?_
      cases created with
      | false => exact Triple.pure fun s h => h
      | true =>
        refine (hpath.weaken (fun _ h => h) (fun _ _ h => h) fun _ h => .inl h).bind fun name => ?_
        refine Triple.of_imp fun hname' => ?_
        obtain ⟨processId, counter, rfl⟩ := hname'
        have hname : ∀ id, validId id = true →
            temporary record.deviceId processId counter ≠ target id :=
          fun id hid => temporary_ne_target S.device hid processId counter
        refine ((createFile_triple hname).weaken (fun _ h => h) (fun _ _ h => h)
          fun _ h => .inl h).bind fun opened => ?_
        cases opened with
        | false => exact Triple.pure fun s h => h.1
        | true =>
          refine ((writeAll_triple hname (fileBytesOf encrypted)).weaken
            (fun s h => ⟨h.1, h.2 rfl⟩) (fun _ _ h => h) fun _ h => .inl h).bind fun written => ?_
          have hsaved {t : Sys} (h : Records (Function.update disk (target record.deviceId)
              (some (fileBytesOf encrypted))) t) :
              Savable directory serviceId record ∧ ∃ draw, Records (Function.update disk
                (target record.deviceId) (some (fileOf dpapi serviceId record draw))) t :=
            ⟨S, draw, hbytes ▸ h⟩
          have hmoved : Triple
              (fun s => Records disk s ∧ (written = true →
                s.disk (temporary record.deviceId processId counter) =
                  some (fileBytesOf encrypted) ∧
                temporary record.deviceId processId counter ∉ s.dirty))
              (moveWritten written (temporary record.deviceId processId counter)
                (target record.deviceId))
              (fun moved s => if moved = true then Records (Function.update disk
                (target record.deviceId) (some (fileBytesOf encrypted))) s else Records disk s)
              (fun s => Records disk s ∨ (Savable directory serviceId record ∧ ∃ draw, Records
                (Function.update disk (target record.deviceId)
                  (some (fileOf dpapi serviceId record draw))) s)) := by
            cases written with
            | true =>
              exact (moveFile_triple hname record.deviceId (fileBytesOf encrypted)
                (hname _ S.device).symm).weaken (fun s h => ⟨h.1, h.2 rfl⟩) (fun _ _ h => h)
                fun s h => h.imp id hsaved
            | false => exact Triple.pure fun s h => h.1
          refine hmoved.bind fun moved => ?_
          cases moved with
          | true => exact Triple.pure fun s h => hsaved h
          | false =>
            refine ((deleteFile_triple hname).weaken (fun _ h => h) (fun _ _ h => h)
              fun _ h => .inl h).bind fun _ => ?_
            exact Triple.pure fun s h => h

/-- A record is deleted, or it was not there, or it stays. -/
theorem erase_triple (deviceId : Bytes) :
    Triple (Records disk) (erase directory deviceId)
      (fun result s => match result with
        | .ok _ => Records (Function.update disk (target deviceId) none) s
        | .error _ => Records disk s)
      (fun s => Records disk s ∨ Records (Function.update disk (target deviceId) none) s) := by
  unfold erase
  split_ifs with hinvalid
  · exact Triple.pure fun s h => h
  · have hdevice : validId deviceId = true := by
      simp only [not_or, Bool.not_eq_true', Bool.not_eq_false] at hinvalid
      exact hinvalid.1
    have hstep (s : Sys) (h : Records disk s) :
        Records (Function.update disk (target deviceId) none)
          { s with disk := Function.update s.disk (target deviceId) none } :=
      h.replace (Function.update_self ..) (fun _ _ hother => Function.update_of_ne hother _ _)
        h.clean
    have hdelete : Triple (Records disk) (deleteFile (target deviceId))
        (fun result s => match result with
          | .failed => Records disk s
          | _ => Records (Function.update disk (target deviceId) none) s)
        (fun s => Records disk s ∨ Records (Function.update disk (target deviceId) none) s) := by
      refine operation_triple (fun s answers h => h.answers answers) (fun n s h => ?_)
        (fun s h => h) fun s residue processId h => ⟨.inl (h.crash _ _), ?_⟩
      · split_ifs with hsome
        · exact hstep s h
        · exact h.replace (Option.not_isSome_iff_eq_none.mp hsome) (fun _ _ _ => rfl) h.clean
      · split_ifs with hsome
        · exact .inr ((hstep s h).crash _ _)
        · exact .inl (h.crash _ _)
    refine hdelete.bind fun result => ?_
    cases result with
    | found => exact Triple.pure fun s h => h
    | notFound => exact Triple.pure fun s h => h
    | failed => exact Triple.pure fun s h => h

/-! ### Reading -/

/-- The records, and with `calm` nothing fails from here on. -/
def Reading (disk : Disk) (calm : Bool) (s : Sys) : Prop :=
  Records disk s ∧ (calm = true → ∀ a ∈ s.answers, a.isDone = true)

theorem Reading.answer {calm : Bool} (h : Reading disk calm s) :
    Reading disk calm s.answer.2 ∧ (calm = true → s.answer.1.isDone = true) := by
  unfold Sys.answer
  cases hanswers : s.answers with
  | nil => exact ⟨h, fun _ => rfl⟩
  | cons a answers =>
    have hall := h.2
    rw [hanswers] at hall
    exact ⟨⟨h.1.answers answers, fun hcalm b hb => hall hcalm b (List.mem_cons_of_mem _ hb)⟩,
      fun hcalm => hall hcalm a (List.mem_cons_self ..)⟩

/-- An operation that reads. -/
theorem read_triple {α : Type} {failed : α} {effect : ℕ → Disk → α} (calm : Bool) :
    Triple (Reading disk calm) (operation failed fun n s => (effect n s.disk, s))
      (fun a s => ((∃ n, a = effect n s.disk) ∨ (calm = false ∧ a = failed)) ∧
        Reading disk calm s)
      (fun s => Records disk s ∧ calm = false) := by
  have hcalm {answer : Answer} (h : calm = true → answer.isDone = true)
      (hanswer : answer.isDone = false) : calm = false := by
    cases calm with
    | false => rfl
    | true => cases hanswer.symm.trans (h rfl)
  constructor
  · intro s a s' h heq
    obtain ⟨h', hdone⟩ := h.answer
    unfold operation at heq
    obtain ⟨answer, t, hrun⟩ : ∃ answer t, s.answer = (answer, t) := ⟨_, _, rfl⟩
    rw [hrun] at heq h' hdone
    cases answer with
    | done n =>
      cases heq
      exact ⟨.inl ⟨n, rfl⟩, h'⟩
    | fail =>
      cases heq
      exact ⟨.inr ⟨hcalm hdone rfl, rfl⟩, h'⟩
    | crash applied residue processId => cases heq
  · intro s s' h heq
    obtain ⟨h', hdone⟩ := h.answer
    unfold operation at heq
    obtain ⟨answer, t, hrun⟩ : ∃ answer t, s.answer = (answer, t) := ⟨_, _, rfl⟩
    rw [hrun] at heq h' hdone
    cases answer with
    | done n => cases heq
    | fail => cases heq
    | crash applied residue processId =>
      cases heq
      cases applied <;> exact ⟨h'.1.crash _ _, hcalm hdone rfl⟩

/-- The loop reads the rest of the file. -/
theorem readLoop_triple {deviceId content : Bytes} (hdevice : validId deviceId = true)
    (hcontent : disk (target deviceId) = some content) (calm : Bool) (fuel : ℕ) (bytes : Bytes)
    (hbytes : bytes <+: content) (hfuel : content.length ≤ bytes.length + fuel) :
    Triple (Reading disk calm) (readLoop (target deviceId) content.length fuel bytes)
      (fun result s => (result = .ok content ∨ (calm = false ∧ ∃ error, result = .error error)) ∧
        Records disk s)
      (fun s => Records disk s ∧ calm = false) := by
  induction fuel generalizing bytes with
  | zero =>
    have hall : bytes = content := hbytes.eq_of_length_le hfuel
    exact Triple.pure fun s h => ⟨.inl (congrArg Except.ok hall), h.1⟩
  | succ fuel ih =>
    unfold readLoop
    split_ifs with hless
    · have hread : Triple (Reading disk calm)
          (readChunk (target deviceId) bytes.length (content.length - bytes.length))
          (fun chunk s => ((∃ n, chunk = some ((content.drop bytes.length).take
            (min (n + 1) (content.length - bytes.length)))) ∨ (calm = false ∧ chunk = none)) ∧
            Reading disk calm s) (fun s => Records disk s ∧ calm = false) :=
        (@read_triple disk _ none (fun n disk => some ((((disk (target deviceId)).getD []).drop
          bytes.length).take (min (n + 1) (content.length - bytes.length)))) calm).weaken
          (fun _ h => h) (fun chunk s h => by
            rw [h.2.1.same deviceId hdevice, hcontent] at h
            exact h) fun _ h => h
      refine hread.bind fun chunk => Triple.of_imp fun hchunk => ?_
      rcases hchunk with ⟨n, rfl⟩ | ⟨hcalm, rfl⟩
      · -- At least a byte is read.
        have hpos : 0 < ((content.drop bytes.length).take
            (min (n + 1) (content.length - bytes.length))).length := by
          rw [List.length_take, List.length_drop]
          omega
        have hprefix : bytes ++ (content.drop bytes.length).take
            (min (n + 1) (content.length - bytes.length)) <+: content := by
          obtain ⟨rest, rfl⟩ := hbytes
          rw [List.drop_left]
          exact (List.prefix_append_right_inj bytes).mpr (List.take_prefix _ _)
        generalize (content.drop bytes.length).take
          (min (n + 1) (content.length - bytes.length)) = chunk at *
        cases chunk with
        | nil => cases hpos
        | cons b chunk =>
          refine (ih (bytes ++ b :: chunk) hprefix ?_).weaken (fun _ h => h) (fun _ _ h => h)
            fun _ h => h
          rw [List.length_append, List.length_cons]
          omega
      · exact Triple.pure fun s h => ⟨.inr ⟨hcalm, _, rfl⟩, h.1⟩
    · have hall : bytes = content := hbytes.eq_of_length_le (Nat.le_of_not_lt hless)
      exact Triple.pure fun s h => ⟨.inl (congrArg Except.ok hall), h.1⟩

/-- The content of a device's file, if it has a size that a record's file can have. -/
theorem readFile_triple {deviceId : Bytes} (hdevice : validId deviceId = true) (calm : Bool) :
    Triple (Reading disk calm) (readFile (target deviceId))
      (fun result s => ((result = match disk (target deviceId) with
          | none => .error .notFound
          | some content =>
            if content.length = 0 ∨ content.length > kMaxFileBytes then .error .corruptRecord
            else .ok content) ∨
        (calm = false ∧ ∃ error, result = .error error)) ∧ Records disk s)
      (fun s => Records disk s ∧ calm = false) := by
  have hopen : Triple (Reading disk calm) (openFile (target deviceId))
      (fun file s => (file = (if (disk (target deviceId)).isSome then .found else .notFound) ∨
        (calm = false ∧ file = .failed)) ∧ Reading disk calm s)
      (fun s => Records disk s ∧ calm = false) := by
    have hread := @read_triple disk Found .failed (fun _ disk =>
      if (disk (target deviceId)).isSome then Found.found else .notFound) calm
    refine hread.weaken (fun _ h => h) (fun file s h => ⟨?_, h.2⟩) fun _ h => h
    rw [h.2.1.same deviceId hdevice] at h
    exact h.1.imp (fun hfile => hfile.choose_spec) id
  have hsize : Triple (Reading disk calm) (getFileSize (target deviceId))
      (fun size s => (size = some ((disk (target deviceId)).getD []).length ∨
        (calm = false ∧ size = none)) ∧ Reading disk calm s)
      (fun s => Records disk s ∧ calm = false) := by
    have hread := @read_triple disk (Option ℕ) none
      (fun _ disk => some ((disk (target deviceId)).getD []).length) calm
    refine hread.weaken (fun _ h => h) (fun size s h => ⟨?_, h.2⟩) fun _ h => h
    rw [h.2.1.same deviceId hdevice] at h
    exact h.1.imp (fun hsize => hsize.choose_spec) id
  unfold readFile
  refine hopen.bind fun file => Triple.of_imp fun hfile => ?_
  rcases hfile with hfile | ⟨hcalm, rfl⟩
  · cases hcontent : disk (target deviceId) with
    | none =>
      rw [hcontent] at hfile
      subst hfile
      exact Triple.pure fun s h => ⟨.inl rfl, h.1⟩
    | some content =>
      rw [hcontent] at hfile
      subst hfile
      refine hsize.bind fun size => Triple.of_imp fun hlength => ?_
      rcases hlength with hlength | ⟨hcalm, rfl⟩
      · rw [hcontent] at hlength
        subst hlength
        dsimp only [Option.getD]
        split_ifs with hbad
        · exact Triple.pure fun s h => ⟨.inl rfl, h.1⟩
        · exact readLoop_triple hdevice hcontent calm content.length [] (List.nil_prefix)
            (Nat.le_add_left _ _)
      · exact Triple.pure fun s h => ⟨.inr ⟨hcalm, _, rfl⟩, h.1⟩
  · exact Triple.pure fun s h => ⟨.inr ⟨hcalm, _, rfl⟩, h.1⟩

theorem load_triple (serviceId deviceId : Bytes) (calm : Bool) :
    Triple (Reading disk calm) (load dpapi directory serviceId deviceId)
      (fun result s => (result = loaded dpapi directory disk serviceId deviceId ∨
        (calm = false ∧ ∃ error, result = .error error)) ∧ Records disk s)
      (fun s => Records disk s ∧ calm = false) := by
  unfold load loaded
  split_ifs with hinvalid
  · exact Triple.pure fun s h => ⟨.inl rfl, h.1⟩
  · have hdevice : validId deviceId = true := by
      simp only [not_or, Bool.not_eq_true', Bool.not_eq_false] at hinvalid
      exact hinvalid.2.1
    refine (readFile_triple hdevice calm).bind fun fileBytes => Triple.of_imp fun hfile => ?_
    rcases hfile with rfl | ⟨hcalm, error, rfl⟩
    · cases disk (target deviceId) with
      | none => exact Triple.pure fun s h => ⟨.inl rfl, h⟩
      | some content =>
        dsimp only
        split_ifs with hsize
        · exact Triple.pure fun s h => ⟨.inl rfl, h⟩
        · exact Triple.pure fun s h => ⟨.inl rfl, h⟩
    · exact Triple.pure fun s h => ⟨.inr ⟨hcalm, error, rfl⟩, h⟩

/-! ### What a call does -/

theorem loaded_congr (h : Records disk s) (serviceId deviceId : Bytes) :
    loaded dpapi directory s.disk serviceId deviceId =
      loaded dpapi directory disk serviceId deviceId := by
  unfold loaded
  split_ifs with hinvalid
  · rfl
  · have hdevice : validId deviceId = true := by
      simp only [not_or, Bool.not_eq_true', Bool.not_eq_false] at hinvalid
      exact hinvalid.2.1
    rw [h.same deviceId hdevice]

theorem loaded_update {serviceId deviceId deviceId' : Bytes} (hne : deviceId ≠ deviceId')
    (content : Option Bytes) :
    loaded dpapi directory (Function.update disk (target deviceId') content) serviceId deviceId =
      loaded dpapi directory disk serviceId deviceId := by
  unfold loaded
  rw [Function.update_of_ne fun h => hne (target_injective h)]

theorem loaded_none {deviceId : Bytes} (h : disk (target deviceId) = none) (serviceId : Bytes)
    (record : PairingRecord) : loaded dpapi directory disk serviceId deviceId ≠ .ok record := by
  unfold loaded
  rw [h]
  split_ifs
  · exact nofun
  · exact nofun

/-- The record is in place, and the other devices' are as before. -/
def Saved (dpapi : Dpapi) (directory : Bytes) (disk : Disk) (serviceId : Bytes)
    (record : PairingRecord) (s : Sys) : Prop :=
  Savable directory serviceId record ∧ ∃ draw, Records
    (Function.update disk (target record.deviceId) (some (fileOf dpapi serviceId record draw))) s

theorem Saved.loaded {serviceId : Bytes} {record : PairingRecord}
    (h : Saved dpapi directory disk serviceId record s) (hfits : Fits record) :
    loaded dpapi directory s.disk serviceId record.deviceId = .ok record := by
  obtain ⟨S, draw, hrecords⟩ := h
  have hlength := dpapi.length_protect (entropyFor serviceId) _ draw S.length
  rw [loaded_congr hrecords]
  unfold PairingStore.loaded
  rw [if_neg (by
    simp only [S.service, S.device, Bool.not_true, Bool.false_eq_true, false_or]
    exact S.directory), Function.update_self]
  dsimp only
  rw [if_neg (by
    unfold fileOf
    rw [length_fileBytesOf]
    omega)]
  exact parse_fileOf S hfits draw

theorem Saved.other {serviceId serviceId' deviceId : Bytes} {record : PairingRecord}
    (h : Saved dpapi directory disk serviceId record s) (hne : deviceId ≠ record.deviceId) :
    PairingStore.loaded dpapi directory s.disk serviceId' deviceId =
      PairingStore.loaded dpapi directory disk serviceId' deviceId := by
  obtain ⟨-, draw, hrecords⟩ := h
  rw [loaded_congr hrecords, loaded_update hne]

theorem Saved.clean {serviceId : Bytes} {record : PairingRecord}
    (h : Saved dpapi directory disk serviceId record s) :
    ∀ id, validId id = true → target id ∉ s.dirty := by
  obtain ⟨-, draw, hrecords⟩ := h
  exact hrecords.clean

/-- The end of a call. -/
theorem perform_of_triple {step : Step} {P C : Sys → Prop} {Q : Reply → Sys → Prop}
    (h : Triple P (program dpapi directory step) Q C) (hP : P { s with answers := step.answers }) :
    (∃ reply, (perform dpapi directory s step).1 = .returned reply ∧
      Q reply (perform dpapi directory s step).2) ∨
    ((perform dpapi directory s step).1 = .crashed ∧ C (perform dpapi directory s step).2) := by
  unfold perform
  obtain ⟨outcome, s', hrun⟩ : ∃ outcome s',
      program dpapi directory step { s with answers := step.answers } = (outcome, s') :=
    ⟨_, _, rfl⟩
  rw [hrun]
  cases outcome with
  | returned reply => exact .inl ⟨reply, rfl, h.returns _ _ _ hP hrun⟩
  | crashed => exact .inr ⟨rfl, h.crashes _ _ hP hrun⟩

theorem save_program {step : Step} {record : { record : PairingRecord // Fits record }}
    (hcall : step.call = .save record) :
    Triple (Records disk) (program dpapi directory step)
      (fun reply s => (reply = .done ∧ Saved dpapi directory disk step.serviceId record.1 s) ∨
        ∃ e, reply = .error e ∧ Records disk s)
      (fun s => Records disk s ∨ Saved dpapi directory disk step.serviceId record.1 s) := by
  unfold program
  rw [hcall]
  refine (save_triple step.serviceId record.1).bind fun result => ?_
  cases result with
  | ok _ => exact Triple.pure fun s h => .inl ⟨rfl, h⟩
  | error e => exact Triple.pure fun s h => .inr ⟨e, rfl, h⟩

theorem erase_program {step : Step} {deviceId : Bytes} (hcall : step.call = .erase deviceId) :
    Triple (Records disk) (program dpapi directory step)
      (fun reply s => (reply = .done ∧ Records (Function.update disk (target deviceId) none) s) ∨
        ∃ e, reply = .error e ∧ Records disk s)
      (fun s => Records disk s ∨ Records (Function.update disk (target deviceId) none) s) := by
  unfold program
  rw [hcall]
  refine (erase_triple deviceId).bind fun result => ?_
  cases result with
  | ok _ => exact Triple.pure fun s h => .inl ⟨rfl, h⟩
  | error e => exact Triple.pure fun s h => .inr ⟨e, rfl, h⟩

theorem load_program {step : Step} {deviceId : Bytes} (hcall : step.call = .load deviceId)
    (calm : Bool) :
    Triple (Reading disk calm) (program dpapi directory step)
      (fun reply s => (reply = .ofRecord (loaded dpapi directory disk step.serviceId deviceId) ∨
        (calm = false ∧ ∃ e, reply = .error e)) ∧ Records disk s)
      (fun s => Records disk s ∧ calm = false) := by
  unfold program
  rw [hcall]
  refine (load_triple step.serviceId deviceId calm).bind fun result =>
    Triple.pure fun s h => ⟨?_, h.2⟩
  rcases h.1 with rfl | ⟨hcalm, e, rfl⟩
  · exact .inl rfl
  · exact .inr ⟨hcalm, e, rfl⟩

/-- No device's file is at risk. -/
def Clean (s : Sys) : Prop := ∀ id, validId id = true → target id ∉ s.dirty

theorem Clean.records (h : Clean s) (answers : List Answer) :
    Records s.disk { s with answers } := ⟨fun _ _ => rfl, h⟩

/-- How a call of `save` ends. -/
theorem perform_save (h : Clean s) {step : Step}
    {record : { record : PairingRecord // Fits record }} (hcall : step.call = .save record) :
    ((perform dpapi directory s step).1 = .returned .done ∧ Saved dpapi directory s.disk
      step.serviceId record.1 (perform dpapi directory s step).2) ∨
    (∃ e, (perform dpapi directory s step).1 = .returned (.error e) ∧
      Records s.disk (perform dpapi directory s step).2) ∨
    ((perform dpapi directory s step).1 = .crashed ∧
      (Records s.disk (perform dpapi directory s step).2 ∨ Saved dpapi directory s.disk
        step.serviceId record.1 (perform dpapi directory s step).2)) := by
  rcases perform_of_triple (save_program hcall) (h.records step.answers) with
    ⟨reply, hreply, ⟨rfl, hsaved⟩ | ⟨e, rfl, hrecords⟩⟩ | ⟨hcrash, hrest⟩
  · exact .inl ⟨hreply, hsaved⟩
  · exact .inr (.inl ⟨e, hreply, hrecords⟩)
  · exact .inr (.inr ⟨hcrash, hrest⟩)

theorem perform_erase (h : Clean s) {step : Step} {deviceId : Bytes}
    (hcall : step.call = .erase deviceId) :
    ((perform dpapi directory s step).1 = .returned .done ∧
      Records (Function.update s.disk (target deviceId) none)
        (perform dpapi directory s step).2) ∨
    (∃ e, (perform dpapi directory s step).1 = .returned (.error e) ∧
      Records s.disk (perform dpapi directory s step).2) ∨
    ((perform dpapi directory s step).1 = .crashed ∧
      (Records s.disk (perform dpapi directory s step).2 ∨
        Records (Function.update s.disk (target deviceId) none)
          (perform dpapi directory s step).2)) := by
  rcases perform_of_triple (erase_program hcall) (h.records step.answers) with
    ⟨reply, hreply, ⟨rfl, herased⟩ | ⟨e, rfl, hrecords⟩⟩ | ⟨hcrash, hrest⟩
  · exact .inl ⟨hreply, herased⟩
  · exact .inr (.inl ⟨e, hreply, hrecords⟩)
  · exact .inr (.inr ⟨hcrash, hrest⟩)

theorem perform_load (h : Clean s) {step : Step} {deviceId : Bytes}
    (hcall : step.call = .load deviceId) :
    Records s.disk (perform dpapi directory s step).2 ∧
    ((perform dpapi directory s step).1 =
        .returned (.ofRecord (loaded dpapi directory s.disk step.serviceId deviceId)) ∨
      (¬(∀ a ∈ step.answers, a.isDone = true) ∧
        ((∃ e, (perform dpapi directory s step).1 = .returned (.error e)) ∨
          (perform dpapi directory s step).1 = .crashed))) := by
  by_cases hcalm : ∀ a ∈ step.answers, a.isDone = true
  · rcases perform_of_triple (load_program hcall true)
      ⟨h.records step.answers, fun _ => hcalm⟩ with ⟨reply, hreply, hresult, hrecords⟩ | ⟨-, hno⟩
    · rcases hresult with rfl | ⟨hno, -⟩
      · exact ⟨hrecords, .inl hreply⟩
      · cases hno
    · cases hno.2
  · rcases perform_of_triple (load_program hcall false)
      ⟨h.records step.answers, fun hno => by cases hno⟩ with
      ⟨reply, hreply, hresult, hrecords⟩ | ⟨hcrash, hrecords, -⟩
    · rcases hresult with rfl | ⟨-, e, rfl⟩
      · exact ⟨hrecords, .inl hreply⟩
      · exact ⟨hrecords, .inr ⟨hcalm, .inl ⟨e, hreply⟩⟩⟩
    · exact ⟨hrecords, .inr ⟨hcalm, .inr hcrash⟩⟩

theorem Records.unchanged {s' : Sys} (h : Records s.disk s') : Unchanged dpapi directory s s' :=
  fun serviceId deviceId => loaded_congr h serviceId deviceId

theorem clean_perform (h : Clean s) (step : Step) : Clean (perform dpapi directory s step).2 := by
  cases hcall : step.call with
  | save record =>
    rcases @perform_save dpapi directory s h step record hcall with
      ⟨-, hsaved⟩ | ⟨_, -, hrecords⟩ | ⟨-, hrecords | hsaved⟩
    · exact hsaved.clean
    · exact hrecords.clean
    · exact hrecords.clean
    · exact hsaved.clean
  | load deviceId => exact (@perform_load dpapi directory s h step deviceId hcall).1.clean
  | erase deviceId =>
    rcases @perform_erase dpapi directory s h step deviceId hcall with
      ⟨-, herased⟩ | ⟨_, -, hrecords⟩ | ⟨-, hrecords | herased⟩
    · exact herased.clean
    · exact hrecords.clean
    · exact hrecords.clean
    · exact herased.clean

/-- **A record that is read is the one asked for.** -/
theorem loaded_sound {serviceId deviceId : Bytes} {record : PairingRecord}
    (h : loaded dpapi directory disk serviceId deviceId = .ok record) :
    record.serviceId = serviceId ∧ record.deviceId = deviceId ∧
      record.createdUnixSeconds < record.expiresUnixSeconds := by
  unfold loaded at h
  split_ifs at h
  cases hcontent : disk (target deviceId) with
  | none =>
    rw [hcontent] at h
    cases h
  | some content =>
    rw [hcontent] at h
    dsimp only at h
    split_ifs at h
    exact parse_sound h

theorem promised_save (h : Clean s) {step : Step}
    {record : { record : PairingRecord // Fits record }} (hcall : step.call = .save record) :
    Promised dpapi directory s step := by
  have hdevice : step.call.deviceId = record.1.deviceId := by rw [hcall]; rfl
  have hsame {record'} (hcall' : step.call = .save record') : record' = record :=
    Call.save.inj (hcall'.symm.trans hcall)
  rcases @perform_save dpapi directory s h step record hcall with
    ⟨houtcome, hsaved⟩ | ⟨e, houtcome, hrecords⟩ | ⟨houtcome, hrest⟩
  · refine ⟨fun record' hcall' _ => ?_, fun e he => ?_, fun hcrash => ?_, fun deviceId hload => ?_,
      fun serviceId deviceId hne => ?_⟩
    · rw [hsame hcall']
      exact hsaved.loaded record.2
    · cases houtcome.symm.trans he
    · cases houtcome.symm.trans hcrash
    · cases hcall.symm.trans hload
    · exact hsaved.other (hdevice ▸ hne)
  · refine ⟨fun record' _ hdone => ?_, fun e _ => hrecords.unchanged, fun hcrash => ?_,
      fun deviceId hload => ?_,
      fun serviceId deviceId _ => loaded_congr hrecords serviceId deviceId⟩
    · cases houtcome.symm.trans hdone
    · cases houtcome.symm.trans hcrash
    · cases hcall.symm.trans hload
  · refine ⟨fun record' _ hdone => ?_, fun e he => ?_, fun _ => ?_, fun deviceId hload => ?_,
      fun serviceId deviceId hne => ?_⟩
    · cases houtcome.symm.trans hdone
    · cases houtcome.symm.trans he
    · rcases hrest with hrecords | hsaved
      · exact .inl hrecords.unchanged
      · exact .inr (.inl ⟨record, hcall, hsaved.loaded record.2⟩)
    · cases hcall.symm.trans hload
    · rcases hrest with hrecords | hsaved
      · exact loaded_congr hrecords serviceId deviceId
      · exact hsaved.other (hdevice ▸ hne)

theorem promised_erase (h : Clean s) {step : Step} {deviceId : Bytes}
    (hcall : step.call = .erase deviceId) : Promised dpapi directory s step := by
  have hdevice : step.call.deviceId = deviceId := by rw [hcall]; rfl
  have hother {s' : Sys} (hrecords : Records (Function.update s.disk (target deviceId) none) s')
      (serviceId deviceId' : Bytes) (hne : deviceId' ≠ step.call.deviceId) :
      loaded dpapi directory s'.disk serviceId deviceId' =
        loaded dpapi directory s.disk serviceId deviceId' := by
    rw [loaded_congr hrecords, loaded_update (hdevice ▸ hne)]
  have hgone {s' : Sys} (hrecords : Records (Function.update s.disk (target deviceId) none) s')
      (serviceId : Bytes) (record : PairingRecord) :
      loaded dpapi directory s'.disk serviceId deviceId ≠ .ok record := by
    rw [loaded_congr hrecords]
    exact loaded_none (Function.update_self ..) serviceId record
  have hsave {record} : step.call ≠ .save record := fun hsave => by cases hcall.symm.trans hsave
  have hload {deviceId'} : step.call ≠ .load deviceId' := fun hload => by
    cases hcall.symm.trans hload
  rcases @perform_erase dpapi directory s h step deviceId hcall with
    ⟨houtcome, herased⟩ | ⟨e, houtcome, hrecords⟩ | ⟨houtcome, hrest⟩
  · refine ⟨fun _ hcall' _ => absurd hcall' hsave, fun e he => ?_, fun hcrash => ?_,
      fun _ hcall' => absurd hcall' hload, hother herased⟩
    · cases houtcome.symm.trans he
    · cases houtcome.symm.trans hcrash
  · refine ⟨fun _ hcall' _ => absurd hcall' hsave, fun _ _ => hrecords.unchanged,
      fun hcrash => ?_, fun _ hcall' => absurd hcall' hload,
      fun serviceId deviceId _ => loaded_congr hrecords serviceId deviceId⟩
    cases houtcome.symm.trans hcrash
  · refine ⟨fun _ hcall' _ => absurd hcall' hsave, fun e he => ?_, fun _ => ?_,
      fun _ hcall' => absurd hcall' hload, fun serviceId deviceId' hne => ?_⟩
    · cases houtcome.symm.trans he
    · rcases hrest with hrecords | herased
      · exact .inl hrecords.unchanged
      · exact .inr (.inr ⟨deviceId, hcall, hgone herased⟩)
    · rcases hrest with hrecords | herased
      · exact loaded_congr hrecords serviceId deviceId'
      · exact hother herased serviceId deviceId' hne

theorem promised_load (h : Clean s) {step : Step} {deviceId : Bytes}
    (hcall : step.call = .load deviceId) : Promised dpapi directory s step := by
  obtain ⟨hrecords, houtcome⟩ := @perform_load dpapi directory s h step deviceId hcall
  refine ⟨fun _ hcall' => ?_, fun _ _ => hrecords.unchanged, fun _ => .inl hrecords.unchanged,
    fun deviceId' hcall' => ?_,
    fun serviceId deviceId _ => loaded_congr hrecords serviceId deviceId⟩
  · cases hcall.symm.trans hcall'
  · cases hcall.symm.trans hcall'
    refine ⟨hrecords.unchanged, fun record hrecord => ?_, fun hcalm => ?_⟩
    · have hok : loaded dpapi directory s.disk step.serviceId deviceId = .ok record := by
        rcases houtcome with hall | ⟨-, ⟨e, herror⟩ | hcrash⟩
        · have hreply := Outcome.returned.inj (hall.symm.trans hrecord)
          cases hresult : loaded dpapi directory s.disk step.serviceId deviceId with
          | ok record' =>
            rw [hresult] at hreply
            rw [Reply.record.inj hreply]
          | error e =>
            rw [hresult] at hreply
            cases hreply
        · cases herror.symm.trans hrecord
        · cases hcrash.symm.trans hrecord
      exact ⟨hok, loaded_sound hok⟩
    · rcases houtcome with hall | ⟨hno, -⟩
      · exact hall
      · exact absurd hcalm hno

theorem promised (h : Clean s) (step : Step) : Promised dpapi directory s step := by
  cases hcall : step.call with
  | save record => exact promised_save h hcall
  | load deviceId => exact promised_load h hcall
  | erase deviceId => exact promised_erase h hcall

/-! ### Runs -/

/-- A record stays while the calls spare it. -/
theorem kept_of_spared (h : Clean s) {serviceId deviceId : Bytes} {record : PairingRecord}
    (hloaded : loaded dpapi directory s.disk serviceId deviceId = .ok record) {steps : List Step}
    (hspared : (machine dpapi directory).Legal (spares dpapi directory deviceId) s steps) :
    loaded dpapi directory ((machine dpapi directory).exec s steps).disk serviceId deviceId =
      .ok record := by
  have hboth : Clean ((machine dpapi directory).exec s steps) ∧
      loaded dpapi directory ((machine dpapi directory).exec s steps).disk serviceId deviceId =
        .ok record := by
    refine hspared.invariant (I := fun s => Clean s ∧
      loaded dpapi directory s.disk serviceId deviceId = .ok record) ⟨h, hloaded⟩
      fun s step ⟨hclean, hok⟩ _ hspares => ⟨clean_perform hclean step, ?_⟩
    have P : Promised dpapi directory s step := promised hclean step
    change loaded dpapi directory (perform dpapi directory s step).2.disk serviceId deviceId = _
    by_cases hdevice : step.call.deviceId = deviceId
    · rcases hspares hdevice with ⟨deviceId', hload⟩ | ⟨e, herror⟩ | ⟨-, hunchanged⟩
      · rw [(P.read deviceId' hload).1 serviceId deviceId]
        exact hok
      · rw [P.failed e herror serviceId deviceId]
        exact hok
      · rw [hunchanged serviceId deviceId]
        exact hok
    · rw [P.others serviceId deviceId fun hsame => hdevice hsame.symm]
      exact hok
  exact hboth.2

/-- The stores of a directory with any files in it. -/
def init (disk : Disk) (processId : ℕ) : Sys := { disk, processId }

/-- **Pairing records are kept**: every call keeps its promise in every run, and what a `save` has
stored is loaded until another call for the device has done its work. -/
theorem kept_of_run (dpapi : Dpapi) (directory : Bytes) (disk : Disk) (processId : ℕ)
    (steps : List Step) :
    (machine dpapi directory).Legal (Promised dpapi directory) (init disk processId) steps ∧
    ∀ before step between record, steps = before ++ step :: between → step.call = .save record →
      (perform dpapi directory ((machine dpapi directory).exec (init disk processId) before)
        step).1 = .returned .done →
      (machine dpapi directory).Legal (spares dpapi directory record.1.deviceId)
        ((machine dpapi directory).exec (init disk processId) (before ++ [step])) between →
      loaded dpapi directory ((machine dpapi directory).exec (init disk processId) steps).disk
        step.serviceId record.1.deviceId = .ok record.1 := by
  have hinit : Clean (init disk processId) := fun _ _ hmem => by cases hmem
  have hclean (steps : List Step) :
      Clean ((machine dpapi directory).exec (init disk processId) steps) :=
    (Machine.legal_of_enabled (fun _ _ => trivial) (init disk processId) steps).invariant hinit
      fun s step h _ _ => clean_perform h step
  constructor
  · exact (Machine.legal_of_enabled (fun _ _ => trivial) (init disk processId) steps).along hinit
      (fun s step h _ _ => clean_perform h step) fun s step h _ _ => promised h step
  · rintro before step between record rfl hcall hdone hspared
    have hloaded := (promised (hclean before) step).saved record hcall hdone
    have hexec : (machine dpapi directory).exec (init disk processId) (before ++ [step]) =
        (perform dpapi directory ((machine dpapi directory).exec (init disk processId) before)
          step).2 := Machine.exec_append [step]
    rw [← hexec] at hloaded
    have hkept := kept_of_spared (hclean (before ++ [step])) hloaded hspared
    rw [← Machine.exec_append, List.append_assoc, List.singleton_append] at hkept
    exact hkept

/-! A `save` that is cut short once it has renamed its file has replaced the record. -/

/-- Seals under the first 64 bytes of the entropy. -/
def sampleDpapi : Dpapi where
  protect entropy plaintext _ := entropy.take 64 ++ plaintext
  unprotect entropy data :=
    if data.take (entropy.take 64).length = entropy.take 64 then
      some (data.drop (entropy.take 64).length)
    else none
  unprotect_protect entropy plaintext _ := by
    rw [if_pos (List.take_left ..), List.drop_left]
  length_protect entropy plaintext _ h := by
    have htake : (entropy.take 64).length ≤ 64 := List.length_take_le ..
    rw [List.length_append, h]
    simp only [kPlainBytes, kFileMagic, kMaxFileBytes, asciiBytes, List.length_map]
    refine ⟨by omega, ?_⟩
    change 8 + 4 + _ ≤ _
    omega

def sampleId : Bytes := asciiBytes "0123456789abcdef"

/-- Sealed at second 1000 until second `expires`. -/
def sampleRecord (expires : ℕ) : PairingRecord where
  serviceId := sampleId
  deviceId := sampleId
  key := ⟨List.replicate 32 7, List.length_replicate ..⟩
  createdUnixSeconds := 1000
  expiresUnixSeconds := expires

theorem fits_sampleRecord {expires : ℕ} (h : expires ≤ uint64Max) : Fits (sampleRecord expires) :=
  ⟨show 1000 ≤ uint64Max by decide, h⟩

/-- The file is written in one piece. -/
def sampleAnswers : List Answer := [.done 0, .done 0, .done 0, .done 1000, .done 0]

def sampleSave : Step where
  serviceId := sampleId
  call := .save ⟨sampleRecord 2000, fits_sampleRecord (by decide)⟩
  answers := sampleAnswers

/-- Cut short in its `MoveFileExW`, after that has taken effect. -/
def sampleInterrupted : Step where
  serviceId := sampleId
  call := .save ⟨sampleRecord 3000, fits_sampleRecord (by decide)⟩
  answers := sampleAnswers ++ [.crash true (fun _ => none) 8]

def sampleDirectory : Bytes := asciiBytes "pairings"

def sampleSaved : Outcome Reply × Sys :=
  perform sampleDpapi sampleDirectory (init (fun _ => none) 7) sampleSave

def sampleCrashed : Outcome Reply × Sys :=
  perform sampleDpapi sampleDirectory sampleSaved.2 sampleInterrupted

theorem not_kept_of_interrupted :
    sampleSaved.1 = .returned .done ∧
    loaded sampleDpapi sampleDirectory sampleSaved.2.disk sampleId sampleId =
      .ok (sampleRecord 2000) ∧
    sampleCrashed.1 = .crashed ∧
    loaded sampleDpapi sampleDirectory sampleCrashed.2.disk sampleId sampleId =
      .ok (sampleRecord 3000) ∧
    sampleRecord 3000 ≠ sampleRecord 2000 := by
  decide +kernel

end RemoteCam.Security.PairingStore
