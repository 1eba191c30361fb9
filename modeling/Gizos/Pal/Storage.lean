import Gizos.Pal.Pref
import Mathlib.Logic.Function.Basic

/-! # Files and flash partitions

The file system and the image backends of the platform. Files are their contents; directories
are not kept, but every path that is opened for writing or made a directory is noted. A write may
move fewer bytes than asked, and a write that fails may have moved
some. A flash write may leave anything in the partition it is aimed at, even when it reports
success, and reading a partition returns what is there.
-/
namespace Gizos.Pal

open Fault Fault.Program

variable {offset partition : Nat}

/-- What the file system and the flash partitions hold, and where an image write stands. -/
structure Storage where
  /-- Contents of the files that exist. -/
  files : Bytes → Option Bytes
  /-- Contents of the partitions. -/
  images : Nat → Bytes
  /-- The partition an image write is open on. -/
  writing : Option Nat := none
  /-- How many bytes the open image write has written. -/
  cursor : Nat := 0
  /-- The paths that were to be opened for writing or made a directory, the last one first. -/
  asked : List Bytes := []

namespace Storage

/-- Replaces or removes a file. -/
def withFile (path : Bytes) (content : Option Bytes) (store : Storage) : Storage :=
  { store with files := Function.update store.files path content }

/-- Notes a path. -/
def ask (path : Bytes) (store : Storage) : Storage := { store with asked := path :: store.asked }

/-- Replaces the contents of a partition. -/
def withImage (partition : Nat) (content : Bytes) (store : Storage) : Storage :=
  { store with images := Function.update store.images partition content }

/-- An image write that has brought a partition to `content` with its first `cursor` bytes. -/
def writingAt (partition : Nat) (content : Bytes) (cursor : Nat) (store : Storage) : Storage :=
  { store.withImage partition content with writing := some partition, cursor }

@[simp] theorem withFile_files (path : Bytes) (content : Option Bytes) (store : Storage) :
    (store.withFile path content).files = Function.update store.files path content := rfl

theorem withFile_same (path : Bytes) (content : Option Bytes) (store : Storage) :
    (store.withFile path content).files path = content := by
  simp

@[simp] theorem withImage_images (partition : Nat) (content : Bytes) (store : Storage) :
    (store.withImage partition content).images =
      Function.update store.images partition content := rfl

end Storage

/-- Reads a whole file. -/
def fsReadFile (path : Bytes) : Routine Storage Bytes := do
  let content ← lookup fun store => store.files path
  closingAfter do
    probe
    pure content

/-- Opens a file for writing, which creates it or empties it. -/
def fsOpenTruncate (path : Bytes) : Routine Storage Unit := do
  update (Storage.ask path)
  act (Storage.withFile path (some []))

/-- `h2_pal_fs_mkdir`. -/
def fsMakeDir (path : Bytes) : Routine Storage Unit := do
  update (Storage.ask path)
  probe

/-- `h2_pal_fs_write`: appends what goes through and returns how much that is. -/
def fsWrite (path data : Bytes) : Routine Storage Nat :=
  call fun answer store =>
    let count := min data.length (answer.short.getD data.length)
    let content := (store.files path).getD [] ++ data.take count
    answer.reply count store (store.withFile path (some content))

/-- `bundle_fs_write_all`, whose loop ends because each pass moves a byte. -/
def fsWriteAll (path : Bytes) : Nat → Bytes → Routine Storage Unit
  | 0, _ => pure ()
  | fuel + 1, data =>
    if data = [] then pure () else do
      let written ← fsWrite path data
      require (written ≠ 0 ∧ written ≤ data.length) errIo
      fsWriteAll path fuel (data.drop written)

/-- `h2_pal_fs_remove`. -/
def fsRemove (path : Bytes) : Routine Storage Unit := do
  let present ← read fun store : Storage => (store.files path).isSome
  require present errNotFound
  act (Storage.withFile path none)

/-- Removes a file that need not be there. -/
def fsRemoveOptional (path : Bytes) : Routine Storage Unit :=
  (fsRemove path).recovering fun code =>
    if code = errNotFound then pure () else fail code

/-- A flash operation on one partition. -/
def flash (partition : Nat) (change : Bytes → Bytes) : Routine Storage Unit :=
  call fun answer store =>
    let content := answer.damage.getD (change (store.images partition))
    let after :=
      if answer.effective ∨ answer.damage.isSome then store.withImage partition content else store
    if answer.reset then .resets after
    else if answer.code = 0 then .returns () after
    else .fails answer.code after

/-- Contents with some bytes replaced. -/
def overwrite (offset : Nat) (data content : Bytes) : Bytes :=
  content.take offset ++ data ++ content.drop (offset + data.length)

theorem take_overwrite {content : Bytes} (data : Bytes) (inside : offset ≤ content.length) :
    (overwrite offset data content).take (offset + data.length) = content.take offset ++ data := by
  have front : (content.take offset).length = offset := by simp [inside]
  unfold overwrite
  rw [List.take_append_of_le_length (by simp [front]), List.take_of_length_le (by simp [front])]

theorem le_length_overwrite {content : Bytes} (data : Bytes) (inside : offset ≤ content.length) :
    offset + data.length ≤ (overwrite offset data content).length := by
  unfold overwrite
  simp only [List.length_append, List.length_take, List.length_drop]
  omega

/-- Reads a range of a partition. -/
def imageRead (partition offset length : Nat) : Routine Storage Bytes := do
  probe
  let content ← read fun store : Storage => store.images partition
  require (offset + length ≤ content.length) errIo
  pure ((content.drop offset).take length)

section Rules

variable {admits : Answer → Prop} {onFail : Int → Storage → Prop} {onReset : Storage → Prop}
  {store : Storage} {γ : Type} {view : Storage → γ}

theorem achieves_flash {change : Bytes → Bytes} {onReturn : Unit → Storage → Prop}
    (returns : onReturn () (store.withImage partition (change (store.images partition)))) :
    Achieves Answer.Works (flash partition change) onReturn store := by
  have replied : ∀ answer : Answer, answer.Works → ∀ reply : Reply Storage Unit,
      (let content := answer.damage.getD (change (store.images partition))
       let after := if answer.effective ∨ answer.damage.isSome then
         store.withImage partition content else store
       if answer.reset then Reply.resets after
       else if answer.code = 0 then .returns () after
       else .fails answer.code after) = reply →
      reply = .returns () (store.withImage partition (change (store.images partition))) := by
    rintro answer works reply rfl
    simp [Answer.effective, works.code, works.reset, works.damage]
  apply Ensures.call
  · intro answer value after works returned
    cases replied answer works _ returned
    exact returns
  · intro answer code after works failed
    cases replied answer works _ failed
  · intro answer after works stopped
    cases replied answer works _ stopped

/-- A flash operation keeps what does not look into its partition. -/
theorem keeps_flash (change : Bytes → Bytes) {invariant : Storage → Prop}
    (spared : ∀ content store, invariant store →
      invariant (Storage.withImage partition content store)) :
    Keeps invariant (flash partition change) := by
  intro answers time store holds
  unfold flash call
  dsimp only
  split_ifs
  all_goals first | exact spared _ _ holds | exact holds

theorem ensures_imageRead {length : Nat} {onReturn : Bytes → Storage → Prop}
    (returns : offset + length ≤ (store.images partition).length →
      onReturn (((store.images partition).drop offset).take length) store)
    (fails : ∀ code, onFail code store) (resets : onReset store) :
    Ensures admits (imageRead partition offset length) onReturn onFail onReset store := by
  apply Ensures.bind
  refine ensures_probe ?_ (fun code _ => fails code) resets
  apply Ensures.bind
  apply Ensures.read
  apply Ensures.bind
  exact .require (fun inside => .pure (returns inside)) fun _ => fails _

theorem achieves_imageRead {length : Nat} {onReturn : Bytes → Storage → Prop}
    (inside : offset + length ≤ (store.images partition).length)
    (returns : onReturn (((store.images partition).drop offset).take length) store) :
    Achieves Answer.Works (imageRead partition offset length) onReturn store := by
  apply Ensures.bind
  apply achieves_probe
  apply Ensures.bind
  apply Ensures.read
  apply Ensures.bind
  exact .require (fun _ => .pure returns) fun outside => outside inside

theorem leaves_imageRead (partition offset length : Nat) :
    Leaves view (imageRead partition offset length) :=
  .bind (leaves_probe view) fun _ => .bind (.read _) fun _ =>
    .bind (.require _ _) fun _ => .pure _

theorem achieves_fsRemoveOptional {path : Bytes} {onReturn : Unit → Storage → Prop}
    (returns : onReturn () (store.withFile path none)) :
    Achieves Answer.Works (fsRemoveOptional path) onReturn store := by
  apply Ensures.recovering
  apply Ensures.bind
  apply Ensures.read
  apply Ensures.bind
  refine .require (fun _ => (achieves_act returns).ensures) fun absent => ?_
  have missing : store.files path = none := by simpa using absent
  have same : store.withFile path none = store := by
    rw [Storage.withFile, Function.update_eq_self_iff.mpr missing.symm]
  rw [same] at returns
  exact .pure returns

section Files

variable {invariant : Storage → Prop} {path : Bytes}
  (files : ∀ content store, invariant store → invariant (Storage.withFile path content store))

include files

theorem keeps_fsWrite (data : Bytes) : Keeps invariant (fsWrite path data) := by
  intro answers time store holds
  unfold fsWrite call Answer.reply
  dsimp only
  split_ifs
  all_goals first | exact files _ _ holds | exact holds

theorem keeps_fsWriteAll (fuel : Nat) (data : Bytes) :
    Keeps invariant (fsWriteAll path fuel data) := by
  induction fuel generalizing data with
  | zero => exact .pure _
  | succ fuel ih =>
    unfold fsWriteAll
    split
    · exact .pure _
    · exact .bind (keeps_fsWrite files data) fun _ =>
        .bind (.require _ _) fun _ => ih _

theorem keeps_fsRemoveOptional : Keeps invariant (fsRemoveOptional path) := by
  refine .recovering (.bind (.read _) fun _ => .bind (.require _ _)
    fun _ => keeps_act fun store => files _ store) fun code => ?_
  split
  · exact .pure _
  · exact .fail _

end Files

end Rules

end Gizos.Pal
