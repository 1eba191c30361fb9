import Gizos.Pal.Disk
import Gizos.Text

/-! # Script storage

The flat file store of one script application. Files live under `root/app`; since the platform
cannot list a directory, the names are kept in an index file of one line a name. The index and the
files are replaced through temporary files. The scratch of the source is what a loaded index
returns, since every operation loads the index first.
-/
namespace Gizos.Lua

open Fault Pal

/-- `storage_status_t`. -/
inductive Status where
  | ok | unavailable | invalidName | notFound | quotaExceeded | tooManyFiles | noSpace | changed
  | busy | io | corrupt
deriving Repr, DecidableEq

namespace Status

/-- The value of a status. -/
def code : Status → Int
  | ok => 0 | unavailable => 1 | invalidName => 2 | notFound => 3 | quotaExceeded => 4
  | tooManyFiles => 5 | noSpace => 6 | changed => 7 | busy => 8 | io => 9 | corrupt => 10

/-- `storage_message`. -/
def message : Status → String
  | unavailable => "storage: unavailable"
  | invalidName => "storage: invalid name"
  | notFound => "storage: not found"
  | quotaExceeded => "storage: quota exceeded"
  | tooManyFiles => "storage: too many files"
  | noSpace => "storage: no space"
  | busy | changed => "storage: busy"
  | ok | io | corrupt => "storage: io error"

/-- `from_pal` on a result that is not success. -/
def fromPal (result : Int) : Status :=
  if result = errNotFound then notFound else if result = errNoSpace then noSpace else io

end Status

variable {σ α : Type}

/-- Gives up with a status. -/
def refuse (status : Status) : Routine σ α := Program.fail status.code

/-- Gives up with a status unless a condition holds. -/
def demand (condition : Prop) [Decidable condition] (status : Status) : Routine σ Unit :=
  Program.require condition status.code

/-- Reports the result of a platform call as a status. -/
def asStatus (body : Routine σ α) : Routine σ α :=
  body.recovering fun result => refuse (.fromPal result)

/-- `H2_LUA_STORAGE_NAME_MAX`. -/
def nameMax : Nat := 32
/-- `H2_LUA_STORAGE_MAX_FILES`. -/
def maxFilesMax : Nat := 64
/-- `H2_LUA_STORAGE_ROOT_MAX`. -/
def rootMax : Nat := 96
/-- `STORAGE_DEFAULT_QUOTA_BYTES`. -/
def defaultQuotaBytes : Nat := 64 * 1024
/-- `STORAGE_DEFAULT_MAX_FILES`. -/
def defaultMaxFiles : Nat := 16

/-- The characters of a name: `a` to `z`, `0` to `9`, `_`, `-` and `.`. -/
def nameChar (char : UInt8) : Bool :=
  (0x61 ≤ char && char ≤ 0x7a) || (0x30 ≤ char && char ≤ 0x39) || char = 0x5f || char = 0x2d ||
    char = 0x2e

/-- `h2_lua_storage_name_is_valid`. -/
def nameIsValid (name : Bytes) (maxLength : Nat) : Bool :=
  name ≠ [] && name.head? ≠ some 0x2e && name.length ≤ maxLength && name.all nameChar

/-- `STORAGE_INDEX_NAME`, `.index`. -/
def indexName : Bytes := [0x2e, 0x69, 0x6e, 0x64, 0x65, 0x78]
/-- `STORAGE_INDEX_TEMP_NAME`, `.index.tmp`. -/
def indexTempName : Bytes := [0x2e, 0x69, 0x6e, 0x64, 0x65, 0x78, 0x2e, 0x74, 0x6d, 0x70]
/-- `STORAGE_DATA_TEMP_NAME`, `.data.tmp`. -/
def dataTempName : Bytes := [0x2e, 0x64, 0x61, 0x74, 0x61, 0x2e, 0x74, 0x6d, 0x70]
/-- `STORAGE_KV_NAME`, `.kv`. -/
def kvName : Bytes := [0x2e, 0x6b, 0x76]
/-- `STORAGE_KV_TEMP_NAME`, `.kv.tmp`. -/
def kvTempName : Bytes := [0x2e, 0x6b, 0x76, 0x2e, 0x74, 0x6d, 0x70]

/-- The storage of one application after `h2_lua_storage_normalize`. -/
structure Job where
  /-- The directory of all applications. -/
  root : Bytes
  /-- The application. -/
  appId : Bytes
  /-- Bytes the application may keep. -/
  quotaBytes : Nat
  /-- Files the application may keep. -/
  maxFiles : Nat
  /-- Bytes are counted in 64 bits. -/
  quota_fits : quotaBytes < 2 ^ 64
  /-- The table of names is bounded. -/
  files_fit : maxFiles ≤ maxFilesMax

/-- `h2_lua_storage_normalize`: the limits of a configuration, with the defaults for zero, and
none for a configuration that is refused. -/
def normalize (root appId : Bytes) (quotaBytes maxFiles : Nat) (fits : quotaBytes < 2 ^ 64) :
    Option Job :=
  if root = [] ∨ rootMax < root.length ∨ root.getLast? = some 0x2f then none
  else
    let files := if maxFiles = 0 then defaultMaxFiles else maxFiles
    if bounded : files ≤ maxFilesMax then
      some {
        root, appId, maxFiles := files
        quotaBytes := if quotaBytes = 0 then defaultQuotaBytes else quotaBytes
        quota_fits := by unfold defaultQuotaBytes; split <;> omega
        files_fit := bounded }
    else none

namespace Job

/-- `storage_path` without a name. -/
def directory (job : Job) : Bytes := job.root ++ 0x2f :: job.appId

/-- `storage_path`. -/
def path (job : Job) (name : Bytes) : Bytes := job.directory ++ 0x2f :: name

/-- Names the index can hold, one more than there may be files so that a renaming can record its
target before its source leaves the index. -/
def entryCapacity (job : Job) : Nat := job.maxFiles + 1

/-- Bytes of the index that are read. -/
def textCapacity (job : Job) : Nat := job.entryCapacity * (nameMax + 1)

theorem path_inj (job : Job) {first last : Bytes} :
    job.path first = job.path last ↔ first = last := by
  simp [path]

/-- No file of the application lies at its directory or above it. -/
theorem path_ne_of_length (job : Job) {name above : Bytes}
    (short : above.length ≤ job.directory.length) : job.path name ≠ above := by
  intro same
  have long : (job.path name).length = job.directory.length + (name.length + 1) := by simp [path]
  rw [same] at long
  omega

end Job

/-- An index entry with the size of its file. -/
structure Entry where
  /-- The name of the file. -/
  name : Bytes
  /-- Bytes of the file. -/
  size : Nat
deriving Repr, DecidableEq

/-- What a loaded index tells: `storage_scratch_t`. -/
structure Scratch where
  /-- The names that have a file. -/
  entries : List Entry
  /-- Whether the stored index holds more than these. -/
  dirty : Bool
  /-- Size of the key-value blob, if there is one. -/
  kv : Option Nat
deriving Repr, DecidableEq

namespace Scratch

/-- `storage_find`. -/
def find (scratch : Scratch) (name : Bytes) : Option Nat :=
  scratch.entries.findIdx? (·.name = name)

/-- Sizes added up in 64 bits, stopping at the largest number. -/
def addSizes : Nat → List Entry → Nat
  | used, [] => used
  | used, entry :: rest =>
    if 2 ^ 64 - 1 - used < entry.size then 2 ^ 64 - 1 else addSizes (used + entry.size) rest

/-- `storage_used_except`. -/
def usedExcept (scratch : Scratch) (except : Option Nat) (includeKv : Bool) : Nat :=
  let counted := match except with
    | some index => scratch.entries.eraseIdx index
    | none => scratch.entries
  addSizes (if includeKv then scratch.kv.getD 0 else 0) counted

/-- How many files the key-value blob is. -/
def kvCount (scratch : Scratch) : Nat := if scratch.kv.isSome then 1 else 0

end Scratch

/-- The index text of some names. -/
def indexText (names : List Bytes) : Bytes := names.flatMap (· ++ [0x0a])

/-- Takes one line of the index in: the names so far, and whether the text holds more than
these. -/
def indexLine (capacity : Nat) (terminated : Bool) (line : Bytes) (read : List Bytes × Bool) :
    List Bytes × Bool :=
  if line = [] then read
  else if !terminated || nameMax < line.length || capacity ≤ read.1.length then (read.1, true)
  else
    let name := Text.cstring line
    if !nameIsValid name nameMax || name ∈ read.1 then (read.1, true)
    else (read.1 ++ [name], read.2)

/-- The names of an index text, with the line read so far. -/
def indexNames (capacity : Nat) : Bytes → Bytes → List Bytes × Bool → List Bytes × Bool
  | [], line, read => indexLine capacity false line read
  | char :: rest, line, read =>
    if char = 0x0a then indexNames capacity rest [] (indexLine capacity true line read)
    else indexNames capacity rest (line ++ [char]) read

/-- A stat of what need not be there. -/
def statOptional (path : Bytes) : Routine Disk (Option FsStat) := do
  match ← (fsStat path).attempt with
  | .ok stat => pure (some stat)
  | .error result => if result = errNotFound then pure none else Program.fail result

namespace Job

variable (job : Job)

/-- `storage_replace`: replaces a file as a whole or leaves it alone. -/
def replace (tempName targetName data : Bytes) : Routine Disk Unit :=
  (do
    asStatus (fsWriteWhole (job.path tempName) data)
    (fsRename (job.path tempName) (job.path targetName)).recovering fun result =>
      -- A temporary file that is not there was lost by the file system.
      if result = errNotFound then refuse .io else refuse (.fromPal result)).recovering
    fun status => do
      (fsUnlink (job.path tempName)).ignoring
      Program.fail status

/-- The directories above the application's own. -/
def parents : List Bytes :=
  ((List.range job.directory.length).filter fun index =>
    1 ≤ index ∧ job.directory[index]? = some 0x2f).map job.directory.take

/-- Makes directories, whether or not each can be made. -/
def makeDirs : List Bytes → Routine Disk Unit
  | [] => pure ()
  | path :: rest => do
    (fsMkdir path).ignoring
    makeDirs rest

/-- `storage_ensure_dir`. -/
def ensureDir : Routine Disk Unit := do
  makeDirs job.parents
  (fsMkdir job.directory).ignoring
  match ← (fsStat job.directory).attempt with
  | .ok stat => demand stat.isDir .io
  | .error _ => refuse .io

/-- `storage_save_index`. -/
def saveIndex (entries : List Entry) : Routine Disk Unit :=
  job.replace indexTempName indexName (indexText (entries.map Entry.name))

/-- Sizes of the files of the names, and whether some name has no file. -/
def statEntries : List Bytes → Routine Disk (List Entry × Bool)
  | [] => pure ([], false)
  | name :: rest => do
    match ← (fsStat (job.path name)).attempt with
    | .ok stat => do
      demand (¬stat.isDir) .io
      let (entries, dirty) ← statEntries rest
      pure (⟨name, stat.size⟩ :: entries, dirty)
    | .error result =>
      if result = errNotFound then do
        let (entries, _) ← statEntries rest
        pure (entries, true)
      else refuse .io

/-- The index file as `storage_load_index` reads it: nothing if there is none, else its size and
its first bytes. -/
def readIndex : Routine Disk (Option (Nat × Bytes)) := do
  match ← (fsStat (job.path indexName)).attempt with
  | .error result => if result = errNotFound then pure none else refuse .io
  | .ok stat => do
    demand (¬stat.isDir) .io
    match ← (fsReadUpTo (job.path indexName) job.textCapacity).attempt with
    | .error result => if result = errNotFound then pure none else refuse (.fromPal result)
    | .ok text => pure (some (stat.size, text))

/-- `storage_load_index`. -/
def loadIndex : Routine Disk Scratch := do
  let kv ← asStatus (statOptional (job.path kvName))
  demand (∀ stat ∈ kv, stat.isDir = false) .io
  match ← job.readIndex with
  | none => pure ⟨[], false, kv.map FsStat.size⟩
  | some (size, text) => do
    let read := indexNames job.entryCapacity text [] ([], decide (text.length < size))
    let (entries, missing) ← job.statEntries read.1
    pure ⟨entries, read.2 || missing, kv.map FsStat.size⟩

/-- `storage_write_locked`. -/
def writeLocked (name data : Bytes) : Routine Disk Unit := do
  let scratch ← job.loadIndex
  let index := scratch.find name
  demand (index.isSome ∨ scratch.entries.length + scratch.kvCount < job.maxFiles) .tooManyFiles
  let used := scratch.usedExcept index true
  demand (data.length ≤ job.quotaBytes ∧ used ≤ job.quotaBytes - data.length) .quotaExceeded
  job.ensureDir
  let entries := if index.isNone then scratch.entries ++ [⟨name, 0⟩] else scratch.entries
  Program.onlyIf (index.isNone || scratch.dirty) (job.saveIndex entries)
  (job.replace dataTempName name data).recovering fun status => do
    -- A new name has no file and is forgotten again.
    Program.onlyIf index.isNone (job.saveIndex (entries.eraseIdx (entries.length - 1))).ignoring
    Program.fail status

/-- `storage_remove_locked`. -/
def removeLocked (name : Bytes) : Routine Disk Unit := do
  let scratch ← job.loadIndex
  match scratch.find name with
  | none => refuse .notFound
  | some index => do
    (fsUnlink (job.path name)).recovering fun result =>
      if result = errNotFound then pure () else refuse .io
    (job.saveIndex (scratch.entries.eraseIdx index)).ignoring

/-- The end of `storage_rename_locked`, when the index lists both names. -/
def moveListed (oldName newName : Bytes) (entries : List Entry) (oldIndex : Nat) :
    Routine Disk Unit := do
  (fsRename (job.path oldName) (job.path newName)).recovering fun result =>
    if result = errNotFound then refuse .io else refuse (.fromPal result)
  (job.saveIndex (entries.eraseIdx oldIndex)).ignoring

/-- `storage_rename_locked`. -/
def renameLocked (oldName newName : Bytes) : Routine Disk Unit := do
  let scratch ← job.loadIndex
  match scratch.find oldName with
  | none => refuse .notFound
  | some oldIndex =>
    if oldName = newName then pure () else
      match scratch.find newName with
      | none => do
        demand (scratch.entries.length < job.entryCapacity) .tooManyFiles
        let entries := scratch.entries ++ [⟨newName, 0⟩]
        job.saveIndex entries
        job.moveListed oldName newName entries oldIndex
      | some _ => do
        Program.onlyIf scratch.dirty (job.saveIndex scratch.entries)
        job.moveListed oldName newName scratch.entries oldIndex

/-- `h2_lua_storage_kv_commit_locked`. -/
def kvCommitLocked (data : Bytes) : Routine Disk Unit :=
  if data = [] then asStatus (fsUnlink (job.path kvName)) else do
    let scratch ← job.loadIndex
    demand (scratch.kv.isSome ∨ scratch.entries.length < job.maxFiles) .tooManyFiles
    let used := scratch.usedExcept none false
    demand (data.length ≤ job.quotaBytes ∧ used ≤ job.quotaBytes - data.length) .quotaExceeded
    job.ensureDir
    job.replace kvTempName kvName data

/-- Runs an operation under the storage mutex. -/
def locked (body : Routine Disk α) : Routine Disk α := do
  (probe : Routine Disk Unit).recovering fun _ => refuse .busy
  body.withCleanup (probe : Routine Disk Unit).ignoring

/-- `check_name`. -/
def checkName (name : Bytes) : Routine Disk Unit := demand (nameIsValid name nameMax) .invalidName

/-- `storage.write_file`. -/
def writeFile (name data : Bytes) : Routine Disk Unit := do
  checkName name
  locked (job.writeLocked name data)

/-- `storage.remove`. -/
def remove (name : Bytes) : Routine Disk Unit := do
  checkName name
  locked (job.removeLocked name)

/-- `storage.rename`. -/
def rename (oldName newName : Bytes) : Routine Disk Unit := do
  checkName oldName
  checkName newName
  locked (job.renameLocked oldName newName)

end Job

end Gizos.Lua
