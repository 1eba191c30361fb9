import Gizos.Lua.Atomic

/-! # Script storage over whole histories

Any sequence of storage operations of one application, each of which may fail at any point or be
cut by a reset, and any power loss between them. The disk then always keeps contents that whole
operations have led to: every file is listed in the stored index, holds what one write put there
or under a name it was renamed from, and stays within the limits.
-/
namespace Gizos.Lua

open Fault Pal

/-- An operation that changes the storage. -/
inductive Call where
  /-- `storage.write_file`. -/
  | write (name data : Bytes)
  /-- `storage.remove`. -/
  | remove (name : Bytes)
  /-- `storage.rename`. -/
  | rename (oldName newName : Bytes)
  /-- A commit of the key-value blob. -/
  | kvCommit (data : Bytes)
deriving Repr, DecidableEq

namespace Call

/-- Runs an operation. -/
def run (job : Job) : Call → Routine Disk Unit
  | write name data => job.writeFile name data
  | remove name => job.remove name
  | rename oldName newName => job.rename oldName newName
  | kvCommit data => Job.locked (job.kvCommitLocked data)

/-- What an operation makes of the contents. -/
def effect : Call → Contents → Contents
  | write name data => Contents.withFile name (some data)
  | remove name => Contents.withFile name none
  | rename oldName newName => Contents.renamed oldName newName
  | kvCommit data => Contents.withKv (if data = [] then none else some data)

end Call

section Steps

variable {job : Job} {disk : Disk} {admits : Answer → Prop} {contents new : Contents}

theorem switches_locked {body : Routine Disk Unit} (holds : Holds job contents disk)
    (switches : Switches admits job body contents new disk) :
    Switches admits job (Job.locked body) contents new disk := by
  refine ensures_locked (.mono switches ?_ ?_ fun _ => id) holds (.inl holds)
  · intro _ after held
    exact ⟨held, .inr held⟩
  · intro _ after held
    exact ⟨held, .inl held⟩

theorem switches_checkName {name : Bytes} {body : Routine Disk Unit}
    (holds : Holds job contents disk)
    (switches : nameIsValid name nameMax = true → Switches admits job body contents new disk) :
    Switches admits job (do Job.checkName name; body) contents new disk := by
  apply Ensures.bind
  exact .require (fun valid => switches valid) fun _ => holds

theorem Call.switches (clean : ∀ answer, admits answer → answer.Clean)
    (holds : Holds job contents disk) (call : Call) :
    Switches admits job (call.run job) contents (call.effect contents) disk := by
  cases call with
  | write name data =>
    exact switches_checkName holds fun valid =>
      switches_locked holds (switches_writeLocked clean holds valid)
  | remove name =>
    exact switches_checkName holds fun valid =>
      switches_locked holds (switches_removeLocked clean holds valid)
  | rename oldName newName =>
    exact switches_checkName holds fun oldValid => switches_checkName holds fun newValid =>
      switches_locked holds (switches_renameLocked clean holds oldValid newValid)
  | kvCommit data => exact switches_locked holds (switches_kvCommitLocked clean holds)

end Steps

/-- The disks that a history of operations, the last one first, can lead to. -/
inductive Reachable (job : Job) : List Call → Disk → Prop
  /-- At first the application keeps nothing. -/
  | start {disk : Disk} (absent : ∀ name, disk.find (job.path name) = none) : Reachable job [] disk
  /-- An operation runs, and returns, fails or is cut by a reset. -/
  | call {history : List Call} {disk after : Disk} (call : Call)
      (before : Reachable job history disk)
      (ran : Reaches Answer.Clean (call.run job) disk after) : Reachable job (call :: history) after
  /-- The device loses power. -/
  | reset {history : List Call} {disk after : Disk} (before : Reachable job history disk)
      (lost : Disk.Survives disk after) : Reachable job history after

/-- Contents that whole operations of a history can lead to. -/
inductive Results : List Call → Contents → Prop
  /-- At first nothing is kept. -/
  | start : Results [] .nothing
  /-- An operation had its effect. -/
  | done {history : List Call} {contents : Contents} (call : Call)
      (before : Results history contents) : Results (call :: history) (call.effect contents)
  /-- An operation had no effect. -/
  | undone {history : List Call} {contents : Contents} (call : Call)
      (before : Results history contents) : Results (call :: history) contents

/-- The bytes of a file are those of one whole write to its name, or to the name it was renamed
from. -/
inductive Origin : List Call → Bytes → Bytes → Prop
  /-- The last operation wrote the file. -/
  | written {history : List Call} (name data : Bytes) :
      Origin (.write name data :: history) name data
  /-- The last operation renamed the file. -/
  | renamed {history : List Call} {oldName data : Bytes} (newName : Bytes)
      (before : Origin history oldName data) :
      Origin (.rename oldName newName :: history) newName data
  /-- The last operation did something else. -/
  | earlier {history : List Call} {name data : Bytes} (call : Call)
      (before : Origin history name data) : Origin (call :: history) name data

theorem Reachable.holds {job : Job} {history : List Call} {disk : Disk}
    (reachable : Reachable job history disk) :
    ∃ contents, Results history contents ∧ Holds job contents disk := by
  induction reachable with
  | start absent => exact ⟨.nothing, .start, Shelf.bare job,
    ⟨fun name _ => absent name, absent _, absent _⟩, rfl⟩
  | call call before ran ih =>
    obtain ⟨contents, results, holds⟩ := ih
    have ended := Ensures.reached (.mono (call.switches (fun _ => id) holds)
      (fun _ _ held => Or.inr held) (fun _ _ held => Or.inl held) fun _ => id) ran
    rcases ended with old | new
    · exact ⟨contents, .undone call results, old⟩
    · exact ⟨_, .done call results, new⟩
  | reset before lost ih =>
    obtain ⟨contents, results, holds⟩ := ih
    exact ⟨contents, results, holds.survives lost⟩

/-- Every file of such contents comes from one whole write. -/
theorem Results.origin {history : List Call} {contents : Contents}
    (results : Results history contents) {name data : Bytes}
    (file : contents.files name = some data) : Origin history name data := by
  induction results generalizing name with
  | start => cases file
  | undone call before ih => exact .earlier call (ih file)
  | @done history contents call before ih =>
    cases call with
    | write target bytes =>
      by_cases same : name = target
      · subst same
        have stored : some bytes = some data := by
          simpa [Call.effect, Contents.withFile] using file
        cases stored
        exact .written name data
      · exact .earlier _ (ih (by simpa [Call.effect, Contents.withFile, same] using file))
    | remove target =>
      by_cases same : name = target
      · subst same
        simp [Call.effect, Contents.withFile] at file
      · exact .earlier _ (ih (by simpa [Call.effect, Contents.withFile, same] using file))
    | rename oldName newName =>
      by_cases moved : name = newName
      · subst moved
        exact .renamed name (ih (by simpa [Call.effect, Contents.renamed, Contents.withFile] using
          file))
      · by_cases gone : name = oldName
        · subst gone
          simp [Call.effect, Contents.renamed, Contents.withFile, moved] at file
        · exact .earlier _ (ih (by
            simpa [Call.effect, Contents.renamed, Contents.withFile, moved, gone] using file))
    | kvCommit bytes => exact .earlier _ (ih file)

namespace Job

/-- The names that the stored index lists. -/
def storedNames (job : Job) (disk : Disk) : List Bytes :=
  match disk.content (job.path indexName) with
  | none => []
  | some text =>
    (indexNames job.entryCapacity (text.take job.textCapacity) [] ([], false)).1

/-- A file of the application. -/
def stored (job : Job) (disk : Disk) (name : Bytes) : Option Bytes := disk.content (job.path name)

end Job

section Disks

variable {job : Job} {disk : Disk} {shelf : Shelf job}

theorem content_of_find {path : Bytes} {held : Option Bytes}
    (there : disk.find path = held.map (Node.file · true)) : disk.content path = held := by
  unfold Disk.content
  rw [there]
  cases held <;> rfl

theorem Represents.stored (represents : Represents disk shelf) {name : Bytes}
    (valid : nameIsValid name nameMax = true) : job.stored disk name = shelf.files name :=
  content_of_find (represents.files name valid)

theorem Represents.storedNames (represents : Represents disk shelf) :
    job.storedNames disk = shelf.names := by
  have there : disk.content (job.path indexName) = shelf.index.map indexText := by
    apply content_of_find
    rw [represents.index, Option.map_map]
    rfl
  unfold Job.storedNames Shelf.names
  rw [there]
  cases kept : shelf.index with
  | none => rfl
  | some names =>
    have valid := shelf.valid
    have nodup := shelf.nodup
    have bounded := shelf.bounded
    rw [kept] at valid nodup bounded
    have fits : (indexText names).length ≤ job.textCapacity :=
      (length_indexText_le valid).trans (Nat.mul_le_mul_right _ bounded)
    have read : indexNames job.entryCapacity (indexText names) [] ([], false) = (names, false) :=
      indexNames_indexText valid nodup (by simpa using bounded)
    dsimp only [Option.map_some]
    rw [List.take_of_length_le fits, read]
    rfl

theorem Represents.sum_stored (represents : Represents disk shelf) (weight : Option Bytes → Nat) :
    ((job.storedNames disk).map fun name => weight (job.stored disk name)).sum =
      total weight shelf.files shelf.names := by
  have nodup : shelf.names.Nodup := shelf.nodup
  rw [represents.storedNames]
  unfold total
  rw [List.sum_toFinset _ nodup]
  congr 1
  refine List.map_congr_left fun name member => ?_
  rw [represents.stored (shelf.valid name member)]

end Disks

/-- Over every history of writes, removals, renamings and key-value commits, with failures and
resets at any point: every file of the application is listed in the stored index and holds one
whole write, and the listed files and the blob stay within the quota and the file limit. -/
theorem storage_crash_safe {job : Job} {history : List Call} {disk : Disk}
    (reachable : Reachable job history disk) :
    (∀ name data, nameIsValid name nameMax = true → job.stored disk name = some data →
      name ∈ job.storedNames disk ∧ Origin history name data) ∧
    ((job.storedNames disk).map fun name => fileBytes (job.stored disk name)).sum +
      fileBytes (job.stored disk kvName) ≤ job.quotaBytes ∧
    ((job.storedNames disk).map fun name => fileCount (job.stored disk name)).sum +
      fileCount (job.stored disk kvName) ≤ job.maxFiles := by
  obtain ⟨contents, results, shelf, represents, rfl⟩ := reachable.holds
  have blob : job.stored disk kvName = shelf.kv := content_of_find represents.kv
  refine ⟨?_, ?_, ?_⟩
  · intro name data valid file
    rw [represents.stored valid] at file
    rw [represents.storedNames]
    exact ⟨shelf.listed name (by rw [file]; exact Option.some_ne_none data), results.origin file⟩
  · rw [represents.sum_stored, blob]
    exact shelf.within
  · rw [represents.sum_stored, blob]
    exact shelf.few

namespace Sample

/-- An application `a` below `r` that may keep two files of ten bytes together. -/
def job : Job where
  root := [0x72]
  appId := [0x61]
  quotaBytes := 10
  maxFiles := 2
  quota_fits := by decide
  files_fit := by decide

/-- A write of the file `n`. -/
def write : Call := .write [0x6e] [1, 2, 3]

/-- The disk after the write, on a platform that works. -/
def written : Disk := (write.run job (fun _ => {}) 0 Disk.empty).state

/-- The disk after a renaming of `n` that the device cut by a reset inside the eleventh call. -/
def cut : Disk := ((Call.rename [0x6e] [0x6d]).run job (resetAt 10) 0 written).state

theorem resetAt_clean (time index : Nat) : (resetAt time index).Clean := by
  unfold resetAt
  split
  · exact ⟨by decide, fun up => by cases up⟩
  · exact Answer.default_works.clean

end Sample

/-- A file that was written and whose renaming was cut is still listed, whole and counted. -/
theorem storage_crash_safe_cut :
    Sample.job.stored Sample.cut [0x6e] = some [1, 2, 3] ∧
    (∀ name data, nameIsValid name nameMax = true → Sample.job.stored Sample.cut name = some data →
      name ∈ Sample.job.storedNames Sample.cut ∧
        Origin [.rename [0x6e] [0x6d], Sample.write] name data) ∧
    ((Sample.job.storedNames Sample.cut).map fun name =>
      fileBytes (Sample.job.stored Sample.cut name)).sum +
      fileBytes (Sample.job.stored Sample.cut kvName) ≤ Sample.job.quotaBytes ∧
    ((Sample.job.storedNames Sample.cut).map fun name =>
      fileCount (Sample.job.stored Sample.cut name)).sum +
      fileCount (Sample.job.stored Sample.cut kvName) ≤ Sample.job.maxFiles := by
  have written : Reachable Sample.job [Sample.write] Sample.written :=
    .call _ (.start fun _ => rfl) ⟨fun _ => {}, fun _ => Answer.default_works.clean, 0, rfl⟩
  have cut : Reachable Sample.job [.rename [0x6e] [0x6d], Sample.write] Sample.cut :=
    .call _ written ⟨resetAt 10, Sample.resetAt_clean 10, 0, rfl⟩
  exact ⟨by decide +kernel, storage_crash_safe cut⟩

end Gizos.Lua
