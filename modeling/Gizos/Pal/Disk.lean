import Gizos.Pal.Pref
import Gizos.Fault.Moves
import Mathlib.Data.List.AList

/-! # File systems with directories

A file system as the operations of the platform layer see it: paths name files or directories. A
file that was written and not synchronised is loose. Every operation is one step: it fails and
changes nothing, or it has its effect. A power loss between two steps leaves directories and
synchronised files alone and may leave anything in a loose file.
-/
namespace Gizos.Pal

open Fault

namespace Answer

/-- A call that comes back without success has changed nothing, and `NOT_FOUND` is reported for
nothing that is there. -/
structure Clean (answer : Answer) : Prop where
  honest : answer.code ≠ errNotFound
  atomic : answer.reset = false → answer.code ≠ 0 → answer.applied = false

theorem Works.clean {answer : Answer} (works : answer.Works) : answer.Clean where
  honest := by rw [works.code]; decide
  atomic _ bad := absurd works.code bad

theorem Reports.found {admits : Answer → Prop} {code : Int} (reports : Reports admits code)
    (clean : ∀ answer, admits answer → answer.Clean) : code ≠ errNotFound := by
  obtain ⟨_, answer, admitted, rfl⟩ := reports
  exact (clean answer admitted).honest

/-- An answer that is admitted and not clean. -/
def Unclean (admits : Answer → Prop) (answer : Answer) : Prop := admits answer ∧ ¬answer.Clean

theorem Reports.of_unclean {admits : Answer → Prop} {code : Int}
    (reports : Reports (Unclean admits) code) : Reports admits code :=
  ⟨reports.1, reports.2.imp fun _ both => ⟨both.1.1, both.2⟩⟩

theorem not_reports_unclean {admits : Answer → Prop} {code : Int}
    (clean : ∀ answer, admits answer → answer.Clean) : ¬Reports (Unclean admits) code :=
  fun ⟨_, _, ⟨admitted, unclean⟩, _⟩ => unclean (clean _ admitted)

end Answer

section Operations

variable {σ α : Type} {admits : Answer → Prop}

/-- One operation of the platform: it is refused with a code, or it takes the state to another one
in one step and returns a value. -/
def operate (change : σ → Except Int (α × σ)) : Routine σ α :=
  Program.call fun answer state =>
    match change state with
    | .ok (value, after) => answer.reply value state after
    | .error code => if answer.reset then .resets state else .fails code state

variable {onFail : Int → σ → Prop} {onReset : σ → Prop} {state : σ}
  {change : σ → Except Int (α × σ)} {onReturn : α → σ → Prop}

/-- An operation has its effect, is refused, or is cut before or after its effect. Where it fails it
may have had its effect all the same, unless the platform is clean. -/
theorem ensures_operate_any
    (ends : ∀ value after, change state = .ok (value, after) → onReturn value after ∧
      onReset after ∧
      ∀ code, Answer.Reports (Answer.Unclean admits) code → onFail code after)
    (refused : ∀ code, change state = .error code → onFail code state)
    (fails : ∀ code, Answer.Reports admits code → onFail code state) (resets : onReset state) :
    Ensures admits (operate change) onReturn onFail onReset state := by
  intro answers admitted time
  have answered := admitted time
  unfold operate Program.call
  cases changed : change state with
  | error code =>
    have refusal := refused code changed
    by_cases reset : (answers time).reset = true
    · simpa [Outcome.Satisfies, changed, reset] using resets
    · simpa [Outcome.Satisfies, changed, reset] using refusal
  | ok ended =>
    obtain ⟨value, after⟩ := ended
    obtain ⟨returned, cut, late⟩ := ends value after changed
    have before : (answers time).code ≠ 0 → onFail (answers time).code state := fun bad =>
      fails _ ⟨bad, _, answered, rfl⟩
    have behind : (answers time).code ≠ 0 → (answers time).reset = false →
        (answers time).applied = true → onFail (answers time).code after := fun bad whole applied =>
      late _ ⟨bad, _, ⟨answered, fun clean => by simp [clean.atomic whole bad] at applied⟩, rfl⟩
    by_cases reset : (answers time).reset = true <;> by_cases good : (answers time).code = 0 <;>
      by_cases applied : (answers time).applied = true <;>
      simp_all [Outcome.Satisfies, Answer.reply, Answer.effective]

theorem ensures_operate (clean : ∀ answer, admits answer → answer.Clean)
    (ends : ∀ value after, change state = .ok (value, after) → onReturn value after ∧ onReset after)
    (refused : ∀ code, change state = .error code → onFail code state)
    (fails : ∀ code, Answer.Reports admits code → onFail code state) (resets : onReset state) :
    Ensures admits (operate change) onReturn onFail onReset state := by
  refine ensures_operate_any (fun value after changed => ?_) refused fails resets
  obtain ⟨returned, cut⟩ := ends value after changed
  exact ⟨returned, cut, fun _ reports => absurd reports (Answer.not_reports_unclean clean)⟩

end Operations

/-- What a path names. -/
inductive Node where
  | file (content : Bytes) (synced : Bool)
  | directory
deriving Repr, DecidableEq

/-- What the paths of a file system name. -/
structure Disk where
  /-- The named nodes. -/
  nodes : AList fun _ : Bytes => Node

namespace Disk

/-- A file system without any node. -/
def empty : Disk := ⟨∅⟩

/-- What a path names. -/
def find (path : Bytes) (disk : Disk) : Option Node := disk.nodes.lookup path

/-- Makes a path name a node. -/
def put (path : Bytes) (node : Node) (disk : Disk) : Disk := ⟨disk.nodes.insert path node⟩

/-- Makes a path name nothing. -/
def drop (path : Bytes) (disk : Disk) : Disk := ⟨disk.nodes.erase path⟩

/-- The paths that name something. -/
def paths (disk : Disk) : List Bytes := disk.nodes.keys

variable {path other : Bytes} {node : Node} {disk : Disk}

@[simp] theorem find_put_self : (disk.put path node).find path = some node :=
  AList.lookup_insert _

theorem find_put_of_ne (differ : other ≠ path) :
    (disk.put path node).find other = disk.find other :=
  AList.lookup_insert_ne differ

@[simp] theorem find_drop_self : (disk.drop path).find path = none := AList.lookup_erase _ _

theorem find_drop_of_ne (differ : other ≠ path) : (disk.drop path).find other = disk.find other :=
  AList.lookup_erase_ne differ

theorem put_put (first : Node) : (disk.put path first).put path node = disk.put path node :=
  congrArg Disk.mk (AList.insert_insert _)

/-- The contents of a file. -/
def content (path : Bytes) (disk : Disk) : Option Bytes :=
  match disk.find path with
  | some (.file content _) => some content
  | _ => none

@[simp] theorem content_put_file (data : Bytes) (synced : Bool) :
    (disk.put path (.file data synced)).content path = some data := by
  simp [content]

/-- The directory of a path, unless the path lies in no directory of its own. -/
def parent (path : Bytes) : Option Bytes :=
  let rest := path.reverse.dropWhile (· ≠ 0x2f)
  match rest with
  | [] => none
  | [_] => none
  | _ :: dir => some dir.reverse

/-- Whether the directory of a path exists. -/
def hosts (path : Bytes) (disk : Disk) : Bool :=
  match parent path with
  | none => true
  | some dir => disk.find dir = some .directory

/-- Whether a path names the directory of some node. -/
def occupied (path : Bytes) (disk : Disk) : Bool :=
  disk.paths.any fun inner => parent inner = some path

/-- Two file systems differ at most at some paths. -/
def AgreeOff (touched : List Bytes) (before after : Disk) : Prop :=
  ∀ path, path ∉ touched → after.find path = before.find path

namespace AgreeOff

variable {touched : List Bytes} {before after : Disk}

theorem refl (touched : List Bytes) (disk : Disk) : AgreeOff touched disk disk := fun _ _ => rfl

theorem put {path : Bytes} (agree : AgreeOff touched before after) (inside : path ∈ touched)
    (node : Node) : AgreeOff touched before (after.put path node) := by
  intro other untouched
  have differ : other ≠ path := fun same => untouched (same ▸ inside)
  rw [find_put_of_ne differ]
  exact agree other untouched

theorem drop {path : Bytes} (agree : AgreeOff touched before after) (inside : path ∈ touched) :
    AgreeOff touched before (after.drop path) := by
  intro other untouched
  have differ : other ≠ path := fun same => untouched (same ▸ inside)
  rw [find_drop_of_ne differ]
  exact agree other untouched

end AgreeOff

/-- What a power loss may leave: directories and synchronised files stay, a loose file may hold
anything or be gone, and nothing appears. -/
def Survives (before after : Disk) : Prop :=
  ∀ path, match before.find path with
    | some (.file _ false) => after.find path ≠ some .directory
    | node => after.find path = node

theorem Survives.same {before after : Disk} (survives : Survives before after) {path : Bytes}
    (firm : ∀ content, before.find path ≠ some (.file content false)) :
    after.find path = before.find path := by
  have left := survives path
  revert left firm
  cases before.find path with
  | none => exact fun _ => id
  | some node =>
    cases node with
    | directory => exact fun _ => id
    | file content synced =>
      cases synced with
      | true => exact fun _ left => left
      | false => exact fun firm _ => absurd rfl (firm content)

theorem Survives.synced {before after : Disk} (survives : Survives before after) {path : Bytes}
    {α : Type} {held : Option α} {bytes : α → Bytes}
    (there : before.find path = held.map fun value => .file (bytes value) true) :
    after.find path = held.map fun value => .file (bytes value) true := by
  rw [survives.same, there]
  intro content found
  rw [there, Option.map_eq_some_iff] at found
  obtain ⟨_, _, loose⟩ := found
  cases loose

end Disk

/-- What `h2_pal_fs_stat` tells. -/
structure FsStat where
  /-- Size of a file. -/
  size : Nat
  /-- Whether the path names a directory. -/
  isDir : Bool
deriving Repr, DecidableEq

/-- What a node tells. -/
def Node.stat : Node → FsStat
  | .file content _ => ⟨content.length, false⟩
  | .directory => ⟨0, true⟩

/-- `h2_pal_fs_stat`. -/
def fsStat (path : Bytes) : Routine Disk FsStat :=
  operate fun disk =>
    match disk.find path with
    | some node => .ok (node.stat, disk)
    | none => .error errNotFound

/-- Opens a file for reading, reads at most `length` bytes and closes it. -/
def fsReadUpTo (path : Bytes) (length : Nat) : Routine Disk Bytes :=
  operate fun disk =>
    match disk.find path with
    | some (.file content _) => .ok (content.take length, disk)
    | some .directory => .error errIo
    | none => .error errNotFound

/-- Opens a file for writing, which creates it or empties it. -/
def fsOpenWrite (path : Bytes) : Routine Disk Unit :=
  operate fun disk =>
    if disk.find path = some .directory then .error errIo
    else if disk.hosts path then .ok ((), disk.put path (.file [] false))
    else .error errNotFound

/-- `h2_pal_fs_write` on a file that is open: appends what goes through and returns how much. -/
def fsAppend (path data : Bytes) : Routine Disk Nat :=
  Program.call fun answer disk =>
    let count := min data.length (answer.short.getD data.length)
    let content := (disk.content path).getD [] ++ data.take count
    answer.reply count disk (disk.put path (.file content false))

/-- `h2_pal_fs_sync` on a file that is open. -/
def fsSync (path : Bytes) : Routine Disk Unit :=
  operate fun disk => .ok ((), disk.put path (.file ((disk.content path).getD []) true))

/-- `h2_pal_fs_rename` of a file, which replaces a file of the new name. -/
def fsRename (source target : Bytes) : Routine Disk Unit :=
  operate fun disk =>
    match disk.find source with
    | some (.file content synced) =>
      if disk.find target = some .directory then .error errIo
      else if disk.hosts target then
        .ok ((), (disk.drop source).put target (.file content synced))
      else .error errNotFound
    | some .directory => .error errIo
    | none => .error errNotFound

/-- `h2_pal_fs_remove` of a file or of a directory that names nothing. -/
def fsUnlink (path : Bytes) : Routine Disk Unit :=
  operate fun disk =>
    match disk.find path with
    | none => .error errNotFound
    | some .directory => if disk.occupied path then .error errIo else .ok ((), disk.drop path)
    | some (.file _ _) => .ok ((), disk.drop path)

/-- `h2_pal_fs_mkdir`, which a directory that is there satisfies. -/
def fsMkdir (path : Bytes) : Routine Disk Unit :=
  operate fun disk =>
    match disk.find path with
    | some .directory => .ok ((), disk)
    | some (.file _ _) => .error errIo
    | none => if disk.hosts path then .ok ((), disk.put path .directory) else .error errNotFound

/-- Appends everything, in as many passes as it takes; the loop ends because each pass moves a
byte. -/
def fsAppendAll (path : Bytes) : Nat → Bytes → Routine Disk Unit
  | 0, _ => pure ()
  | fuel + 1, data =>
    if data = [] then pure () else do
      let written ← fsAppend path data
      Program.require (written ≠ 0) errIo
      fsAppendAll path fuel (data.drop written)

/-- Writes a whole file: opens it, appends everything, synchronises it and closes it. -/
def fsWriteWhole (path data : Bytes) : Routine Disk Unit := do
  fsOpenWrite path
  closingAfter do
    fsAppendAll path data.length data
    fsSync path

section Writing

variable {admits : Answer → Prop} {onReturn : Unit → Disk → Prop} {onFail : Int → Disk → Prop}
  {onReset : Disk → Prop} {disk : Disk} {path data : Bytes}

section

variable (clean : ∀ answer, admits answer → answer.Clean)

include clean

/-- An append leaves the file as it was or longer, and loose when it is longer. -/
theorem ensures_fsAppend {onReturn : Nat → Disk → Prop}
    (returns : ∀ count, count ≤ data.length → onReturn count
      (disk.put path (.file ((disk.content path).getD [] ++ data.take count) false)))
    (fails : ∀ code, onFail code disk) (resets : onReset disk)
    (cut : ∀ content, onReset (disk.put path (.file content false))) :
    Ensures admits (fsAppend path data) onReturn onFail onReset disk := by
  intro answers admitted time
  have answered := admitted time
  unfold fsAppend Program.call
  by_cases reset : (answers time).reset = true
  · by_cases applied : (answers time).applied = true
    · simpa [Outcome.Satisfies, Answer.reply, Answer.effective, reset, applied] using cut _
    · simpa [Outcome.Satisfies, Answer.reply, Answer.effective, reset, applied] using resets
  · by_cases good : (answers time).code = 0
    · have returned := returns (min data.length ((answers time).short.getD data.length))
        (Nat.min_le_left _ _)
      simpa [Outcome.Satisfies, Answer.reply, Answer.effective, reset, good] using returned
    · have unapplied := (clean _ answered).atomic (by simpa using reset) good
      simpa [Outcome.Satisfies, Answer.reply, Answer.effective, reset, good, unapplied] using fails
        _

/-- Appending in passes leaves a file that grew, which holds everything at the end. -/
theorem ensures_fsAppendAll {held : Bytes} {fuel : Nat} (enough : data.length ≤ fuel)
    (returns : ∀ synced, onReturn () (disk.put path (.file (held ++ data) synced)))
    (fails : ∀ code content synced, onFail code (disk.put path (.file content synced)))
    (resets : ∀ content synced, onReset (disk.put path (.file content synced))) (synced : Bool) :
    Ensures admits (fsAppendAll path fuel data) onReturn onFail onReset
      (disk.put path (.file held synced)) := by
  induction fuel generalizing held data synced with
  | zero =>
    have none : data = [] := List.eq_nil_of_length_eq_zero (Nat.le_zero.mp enough)
    subst none
    rw [List.append_nil] at returns
    exact .pure (returns synced)
  | succ fuel ih =>
    unfold fsAppendAll
    split
    · rename_i none
      subst none
      rw [List.append_nil] at returns
      exact .pure (returns synced)
    · apply Ensures.bind
      refine ensures_fsAppend clean (fun count small => .bind (.require ?_ ?_))
        (fun code => fails code _ _) (resets _ _) fun content => ?_
      · intro moved
        rw [Disk.put_put, Disk.content_put_file]
        refine ih (by rw [List.length_drop]; omega) (fun synced => ?_) false
        rw [List.append_assoc, List.take_append_drop]
        exact returns synced
      · intro _
        rw [Disk.put_put]
        exact fails _ _ _
      · rw [Disk.put_put]
        exact resets _ _

/-- Writing a whole file leaves everything as it was, or only this file changed; it holds
everything and is synchronised when the writing returns. -/
theorem ensures_fsWriteWhole (returns : onReturn () (disk.put path (.file data true)))
    (unopened : ∀ code, onFail code disk)
    (fails : ∀ code content synced, onFail code (disk.put path (.file content synced)))
    (before : onReset disk)
    (resets : ∀ content synced, onReset (disk.put path (.file content synced))) :
    Ensures admits (fsWriteWhole path data) onReturn onFail onReset disk := by
  apply Ensures.bind
  refine ensures_operate clean ?_ (fun code _ => unopened code) (fun code _ => unopened code) before
  intro value after changed
  split_ifs at changed
  cases changed
  refine ⟨?_, resets _ _⟩
  apply ensures_closingAfter
  apply Ensures.bind
  refine ensures_fsAppendAll clean le_rfl (fun synced => ?_)
    (fun code content synced => ⟨fails code content synced, resets content synced⟩) resets false
  refine ensures_operate clean ?_ nofun (fun code _ => ⟨fails code _ _, resets _ _⟩) (resets _ _)
  intro value after changed
  rw [Disk.put_put, Disk.content_put_file] at changed
  cases changed
  exact ⟨⟨returns, fun code _ => fails code _ _, resets _ _⟩, resets _ _⟩

theorem ensures_fsRename {source target : Bytes}
    (returns : ∀ content synced, disk.find source = some (.file content synced) →
      onReturn () ((disk.drop source).put target (.file content synced)))
    (fails : ∀ code, onFail code disk) (before : onReset disk)
    (cut : ∀ content synced, disk.find source = some (.file content synced) →
      onReset ((disk.drop source).put target (.file content synced))) :
    Ensures admits (fsRename source target) onReturn onFail onReset disk := by
  refine ensures_operate clean ?_ (fun code _ => fails code) (fun code _ => fails code) before
  intro value after changed
  split at changed
  · rename_i content synced found
    split_ifs at changed
    cases changed
    exact ⟨returns content synced found, cut content synced found⟩
  · cases changed
  · cases changed

theorem ensures_fsMkdir (present : disk.find path = some .directory → onReturn () disk)
    (returns : disk.find path = none → onReturn () (disk.put path .directory))
    (fails : ∀ code, onFail code disk) (before : onReset disk)
    (cut : disk.find path = none → onReset (disk.put path .directory)) :
    Ensures admits (fsMkdir path) onReturn onFail onReset disk := by
  refine ensures_operate clean ?_ (fun code _ => fails code) (fun code _ => fails code) before
  intro value after changed
  split at changed
  · rename_i found
    cases changed
    exact ⟨present found, before⟩
  · cases changed
  · rename_i absent
    split_ifs at changed
    cases changed
    exact ⟨returns absent, cut absent⟩

end

/-- Removing takes the path away or changes nothing; where it fails it may have done either. -/
theorem ensures_fsUnlink (returns : onReturn () (disk.drop path))
    (missing : disk.find path = none → onFail errNotFound disk) (refused : onFail errIo disk)
    (fails : ∀ code, Answer.Reports admits code → onFail code disk)
    (late : ∀ code, Answer.Reports (Answer.Unclean admits) code → onFail code (disk.drop path))
    (before : onReset disk) (cut : onReset (disk.drop path)) :
    Ensures admits (fsUnlink path) onReturn onFail onReset disk := by
  refine ensures_operate_any ?_ ?_ fails before
  · intro value after changed
    split at changed
    · cases changed
    · split_ifs at changed
      cases changed
      exact ⟨returns, cut, late⟩
    · cases changed
      exact ⟨returns, cut, late⟩
  · intro code changed
    split at changed
    · rename_i absent
      cases changed
      exact missing absent
    · split_ifs at changed
      cases changed
      exact refused
    · cases changed

/-- A stat tells what is there, and fails for a reason of its own otherwise. -/
theorem ensures_fsStat {onReturn : FsStat → Disk → Prop}
    (returns : ∀ node, disk.find path = some node → onReturn node.stat disk)
    (missing : disk.find path = none → onFail errNotFound disk)
    (fails : ∀ code, Answer.Reports admits code → onFail code disk) (resets : onReset disk) :
    Ensures admits (fsStat path) onReturn onFail onReset disk := by
  refine ensures_operate_any ?_ ?_ fails resets
  · intro value after changed
    split at changed
    · rename_i node found
      cases changed
      exact ⟨returns node found, resets, fun code reports => fails code reports.of_unclean⟩
    · cases changed
  · intro code changed
    split at changed
    · cases changed
    · rename_i absent
      cases changed
      exact missing absent

theorem ensures_fsReadUpTo {length : Nat} {onReturn : Bytes → Disk → Prop}
    (returns : ∀ content synced, disk.find path = some (.file content synced) →
      onReturn (content.take length) disk)
    (refused : disk.find path = some .directory → onFail errIo disk)
    (missing : disk.find path = none → onFail errNotFound disk)
    (fails : ∀ code, Answer.Reports admits code → onFail code disk) (resets : onReset disk) :
    Ensures admits (fsReadUpTo path length) onReturn onFail onReset disk := by
  refine ensures_operate_any ?_ ?_ fails resets
  · intro value after changed
    split at changed
    · rename_i content synced found
      cases changed
      exact ⟨returns content synced found, resets, fun code reports =>
        fails code reports.of_unclean⟩
    · cases changed
    · cases changed
  · intro code changed
    split at changed
    · cases changed
    · rename_i found
      cases changed
      exact refused found
    · rename_i absent
      cases changed
      exact missing absent

end Writing

end Gizos.Pal
