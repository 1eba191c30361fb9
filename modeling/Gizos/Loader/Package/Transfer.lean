import Gizos.Loader.Package.Partition

/-! # What image transfers do

Reading and hashing change nothing. Writing is confined to its destination: every other
partition and every file stays as it was at each point where the device may reset. A copy that
returns has been read back and verified, and with working backends a copy returns.
-/
namespace Gizos.Loader

open Fault Pal Gizos.Bundle

variable {admits : Answer → Prop} {onFail : Int → Storage → Prop} {onReset : Storage → Prop}
  {store : Storage} {γ : Type} {view : Storage → γ} {config : ImageConfig}

variable {offset size partition buffer fuel source : Nat} {onReturn : Unit → Storage → Prop}
  {identity : Manifest} {writer : AppWriter} {content : Bytes} {entry : Entry}

/-- A partition starts with an image of this size and digest. -/
def HoldsImage (digest : DigestApi) (store : Storage) (partition size : Nat)
    (sha256 : Bytes) : Prop :=
  size ≤ (store.images partition).length ∧ digest.hex ((store.images partition).take size) = sha256

/-- An invariant that writing an image to a partition cannot break. -/
structure Spares (partition : Nat) (invariant : Storage → Prop) : Prop where
  image : ∀ content store, invariant store → invariant (Storage.withImage partition content store)
  /-- It lets an image write be open on the partition, or on none. -/
  position : ∀ writing cursor store, writing = none ∨ writing = some partition →
    invariant store → invariant { store with writing, cursor }
  cursor : ∀ cursor store, invariant store → invariant { store with cursor }

/-- No image write is open that was not open at the start. -/
def NoWriteSince (start store : Storage) : Prop :=
  store.writing = none ∨ store.writing = start.writing

/-- None is open anew at the start. -/
theorem NoWriteSince.refl (store : Storage) : NoWriteSince store store := .inr rfl

/-- None is open anew after two stretches without one. -/
theorem NoWriteSince.trans {first second third : Storage} (one : NoWriteSince first second)
    (two : NoWriteSince second third) : NoWriteSince first third := by
  rcases two with none | same
  · exact .inl none
  · exact one.imp same.trans same.trans

/-- The partitions other than one are as they were, and no image write has been opened on them. -/
structure Confined (partition : Nat) (start store : Storage) : Prop where
  images : ∀ other, other ≠ partition → store.images other = start.images other
  writing : NoWriteSince start store ∨ store.writing = some partition

/-- Nothing has changed at the start. -/
theorem Confined.refl (partition : Nat) (store : Storage) : Confined partition store store :=
  ⟨fun _ _ => rfl, .inl (.refl store)⟩

/-- Writing to a partition leaves the others. -/
theorem spares_confined (partition : Nat) (start : Storage) :
    Spares partition (Confined partition start) where
  image content store confined := by
    refine ⟨fun other different => ?_, confined.writing⟩
    rw [Storage.withImage_images, Function.update_of_ne different]
    exact confined.images other different
  position _ _ _ allowed confined := ⟨confined.images, allowed.imp .inl id⟩
  cursor _ _ confined := { confined with }

/-- Asking for a buffer changes nothing. -/
theorem leaves_transferBuffer : Leaves view transferBuffer := by
  refine .bind (leaves_probe view).attempt fun result => ?_
  cases result <;> exact .pure _

namespace ImageConfig

/-- Asking for the capacity changes nothing. -/
theorem leaves_imageCapacity (partition : Nat) : Leaves view (config.imageCapacity partition) :=
  .bind (.require _ _) fun _ => .bind (.require _ _) fun _ =>
    .bind (leaves_probe view) fun _ => .pure _

/-- Reading changes nothing. -/
theorem leaves_imageRead (partition offset length : Nat) :
    Leaves view (config.imageRead partition offset length) :=
  .bind (.require _ _) fun _ => .bind (.require _ _) fun _ =>
    Pal.leaves_imageRead _ _ _

/-- Hashing changes nothing. -/
theorem leaves_hashLoop (partition buffer size fuel offset : Nat) (hashed : Bytes) :
    Leaves view (config.hashLoop partition buffer size fuel offset hashed) := by
  induction fuel generalizing offset hashed with
  | zero => exact .pure _
  | succ fuel ih =>
    unfold hashLoop
    split
    · exact .bind (leaves_imageRead _ _ _) fun data => ih _ _
    · exact .pure _

/-- Hashing a partition changes nothing. -/
theorem leaves_hashPartition (partition size : Nat) :
    Leaves view (config.hashPartition partition size) :=
  .bind (.require _ _) fun _ => .bind leaves_transferBuffer fun _ =>
    .bind (leaves_probe view) fun _ => .bind (leaves_hashLoop _ _ _ _ _ _) fun _ =>
      .bind (leaves_probe view) fun _ => .pure _

/-- The loop hashes what it can read. -/
theorem ensures_hashLoop {hashed : Bytes} {onReturn : Bytes → Storage → Prop} (room : 0 < buffer)
    (enough : size - offset ≤ fuel) (inside : offset ≤ size)
    (start : offset ≤ (store.images partition).length)
    (reads : ∀ offset length {post : Bytes → Storage → Prop}, offset + length ≤ size →
      (offset + length ≤ (store.images partition).length →
        post (((store.images partition).drop offset).take length) store) →
      Ensures admits (config.imageRead partition offset length) post onFail onReset store)
    (returns : size ≤ (store.images partition).length →
      onReturn (hashed ++ ((store.images partition).drop offset).take (size - offset)) store) :
    Ensures admits (config.hashLoop partition buffer size fuel offset hashed) onReturn onFail
      onReset store := by
  induction fuel generalizing offset hashed with
  | zero =>
    have ended : size - offset = 0 := by omega
    have done := returns (by omega)
    rw [ended, List.take_zero, List.append_nil] at done
    exact .pure done
  | succ fuel ih =>
    unfold hashLoop
    split
    · rename_i more
      apply Ensures.bind
      refine reads _ _ (by omega) fun stored => ?_
      refine ih (by omega) (by omega) (by omega) fun whole => ?_
      have parts := Nat.add_sub_of_le (Nat.min_le_right buffer (size - offset))
      rw [List.append_assoc, ← List.drop_drop, ← Nat.sub_sub, ← List.take_add, parts]
      exact returns whole
    · have ended : size - offset = 0 := by omega
      have done := returns (by omega)
      rw [ended, List.take_zero, List.append_nil] at done
      exact .pure done

/-- The hash is that of the image. -/
theorem ensures_hashPartition {onReturn : Bytes → Storage → Prop}
    (returns : size ≤ (store.images partition).length →
      onReturn (config.digest.hex ((store.images partition).take size)) store)
    (fails : ∀ code, onFail code store) (resets : onReset store) :
    Ensures admits (config.hashPartition partition size) onReturn onFail onReset store := by
  apply Ensures.bind
  refine .require (fun _ => ?_) fun _ => fails _
  have loop : ∀ buffer, 0 < buffer → Ensures admits (do
      probe
      let hashed ← config.hashLoop partition buffer size size 0 []
      probe
      pure (config.digest.hex hashed)) onReturn onFail onReset store := by
    intro buffer room
    apply Ensures.bind
    refine ensures_probe ?_ (fun code _ => fails code) resets
    apply Ensures.bind
    refine ensures_hashLoop room (by omega) (by omega) (by omega) (fun _ _ _ _ read => ?_)
      fun whole => ?_
    · exact .bind (.require (fun _ => .bind (.require (fun _ => ensures_imageRead read fails resets)
        fun _ => fails _)) fun _ => fails _)
    apply Ensures.bind
    exact ensures_probe (.pure (returns whole)) (fun code _ => fails code) resets
  apply Ensures.bind
  apply Ensures.bind
  apply Ensures.attempt
  exact ensures_probe (.pure (loop _ (by decide))) (fun _ _ => .pure (loop _ (by decide))) resets

/-- A partition that is verified holds the image. -/
theorem ensures_imageVerify
    (returns : HoldsImage config.digest store partition identity.imageSize.toNat
      identity.imageSha256.string → onReturn () store) (fails : ∀ code, onFail code store)
    (resets : onReset store) :
    Ensures admits (config.imageVerify identity partition) onReturn onFail onReset store := by
  apply Ensures.bind
  refine .require (fun _ => ?_) fun _ => fails _
  apply Ensures.bind
  refine .quiet (leaves_imageCapacity _) (fun capacity => ?_) fails resets
  apply Ensures.bind
  refine .require (fun _ => ?_) fun _ => fails _
  apply Ensures.bind
  refine ensures_hashPartition (fun whole => ?_) fails resets
  exact .require (fun same => returns ⟨whole, same⟩) fun _ => fails _

end ImageConfig

section Writing

variable {partition : Nat} {invariant : Storage → Prop} (spares : Spares partition invariant)

include spares

/-- Opening an image write keeps the invariant. -/
theorem keeps_openWrite : Keeps invariant (openWrite partition) :=
  .update fun _ => spares.position _ _ _ (.inr rfl)

/-- Closing it keeps the invariant. -/
theorem keeps_closeWrite : Keeps invariant closeWrite :=
  .update fun store => spares.position none store.cursor store (.inl rfl)

/-- Writing at the cursor keeps the invariant. -/
theorem keeps_writeAtCursor (data : Bytes) : Keeps invariant (writeAtCursor partition data) :=
  .bind (.read _) fun _ => .bind (keeps_flash _ spares.image) fun _ =>
    .update fun store => spares.cursor _ store

/-- The image writer keeps it when it begins. -/
theorem keeps_imageWriterBegin : Keeps invariant (imageWriterBegin partition) :=
  .bind (keeps_openWrite spares) fun _ => keeps_flash _ spares.image

/-- The image writer keeps it when it ends. -/
theorem keeps_imageWriterFinish : Keeps invariant (imageWriterFinish partition) :=
  .bind (keeps_flash _ spares.image) fun _ => keeps_closeWrite spares

/-- The image writer keeps it when it is given up. -/
theorem keeps_imageWriterAbort : Keeps invariant (imageWriterAbort partition) :=
  .bind (keeps_flash _ spares.image).ignoring fun _ => keeps_closeWrite spares

end Writing

namespace ImageConfig

variable {partition : Nat} {invariant : Storage → Prop}

/-- The writer to disk keeps what is spared. -/
theorem keeps_diskWriter (spares : Spares partition invariant) :
    (config.diskWriter partition).Keeps invariant where
  start entry := by
    refine .bind (.require _ _) fun _ => .bind (.require _ _) fun _ =>
      .bind (.require _ _) fun _ => .bind (keeps_probe invariant) fun _ =>
      .bind (.require _ _) fun _ => .bind (keeps_openWrite spares) fun _ => ?_
    dsimp only
    split
    · exact keeps_flash _ spares.image
    · exact .pure _
  write entry data := by
    refine .bind (.require _ _) fun _ => ?_
    split
    · exact .pure _
    · exact .bind (.read _) fun _ => .bind (.require _ _) fun _ =>
        .bind (.require _ _) fun _ => keeps_writeAtCursor spares _
  finish entry := by
    refine .bind (.require _ _) fun _ =>
      .bind (.recovering (keeps_probe invariant) fun code => ?_) fun _ =>
        keeps_closeWrite spares
    split
    · exact .pure _
    · exact .fail _
  abort := .pure _

/-- The bridge to the image writer keeps what is spared. -/
theorem keeps_writerBridge (spares : Spares partition invariant) (identity : Manifest) :
    (writerBridge identity partition).Keeps invariant where
  start entry := .bind (.require _ _) fun _ => keeps_imageWriterBegin spares
  write entry data :=
    .bind (.read _) fun _ => .bind (.read _) fun _ =>
      .bind (.require _ _) fun _ => .bind (.require _ _) fun _ =>
        keeps_writeAtCursor spares _
  finish entry :=
    .bind (.read _) fun _ => .bind (.require _ _) fun _ =>
      keeps_imageWriterFinish spares
  abort := by
    refine .bind (.read _) fun _ => ?_
    split
    · exact keeps_imageWriterAbort spares
    · exact .pure _

/-- The writer of a copy keeps what is spared. -/
theorem keeps_copyWriter (spares : Spares partition invariant) :
    (config.copyWriter partition).Keeps invariant := by
  unfold copyWriter
  split
  · exact ⟨fun _ => keeps_imageWriterBegin spares, fun _ _ => keeps_writeAtCursor spares _,
      fun _ => keeps_imageWriterFinish spares, keeps_imageWriterAbort spares⟩
  · exact keeps_diskWriter spares

/-- The loop of a copy keeps what its writer keeps. -/
theorem keeps_copyLoop (frame : writer.Keeps invariant) (entry : Entry)
    (source buffer size fuel offset : Nat) :
    Keeps invariant (config.copyLoop writer entry source buffer size fuel offset) := by
  induction fuel generalizing offset with
  | zero => exact .pure _
  | succ fuel ih =>
    unfold copyLoop
    split
    · exact .bind (leaves_imageRead _ _ _).keepsAny fun data =>
        .bind (frame.write _ _) fun _ => ih _
    · exact .pure _

/-- An abort after a failure keeps what its writer keeps. -/
theorem keeps_orAbort (frame : writer.Keeps invariant) {body : Routine Storage Unit}
    (kept : Keeps invariant body) :
    Keeps invariant (orAbort writer body) :=
  .recovering kept fun _ => .bind frame.abort fun _ => .fail _

/-- A copy keeps what is spared. -/
theorem keeps_imageCopyTo (spares : Spares partition invariant) :
    Keeps invariant (config.imageCopyTo identity source partition) := by
  have frame : (config.copyWriter partition).Keeps invariant := keeps_copyWriter spares
  refine .withCleanup ?_ (keeps_closeWrite spares)
  exact .bind (.require _ _) fun _ =>
    .bind (leaves_imageCapacity _).keepsAny fun _ =>
    .bind (leaves_imageCapacity _).keepsAny fun _ => .bind (.require _ _) fun _ =>
    .bind leaves_transferBuffer.keepsAny fun buffer => .bind (frame.start _) fun _ =>
    .bind (keeps_orAbort frame (keeps_copyLoop frame _ _ _ _ _ _)) fun _ =>
    .bind (keeps_orAbort frame (frame.finish _)) fun _ =>
    .bind (leaves_hashPartition _ _).keepsAny fun _ => .require _ _

/-- A copy that returns has been read back. -/
theorem ensures_copyImage_holds (identity : Manifest) (source : Nat) :
    Returns admits (config.copyImage identity source partition)
      (fun _ after => isLowerSha256Hex identity.imageSha256.string = true ∧
        HoldsImage config.digest after partition identity.imageSize.toNat
          identity.imageSha256.string) store := by
  apply Ensures.bind
  refine .require (fun accepted => ?_) fun _ => trivial
  iterate 7 refine .after fun _ _ => ?_
  apply Ensures.bind
  refine ensures_hashPartition (fun whole => ?_) (fun _ => trivial) trivial
  exact .require (fun same => ⟨accepted.2.2.2.2, whole, same⟩) fun _ => trivial

/-- A copy that returns leaves its image in the destination, and no image write open. A copy
that fails leaves none open either. -/
theorem ensures_imageCopyTo (identity : Manifest) (source : Nat) :
    Ensures admits (config.imageCopyTo identity source partition)
      (fun _ after => after.writing = none ∧ isLowerSha256Hex identity.imageSha256.string = true ∧
        HoldsImage config.digest after partition identity.imageSize.toNat
          identity.imageSha256.string)
      (fun _ after => after.writing = none) (fun _ => True) store := by
  apply Ensures.withCleanup
  refine (ensures_copyImage_holds identity source).mono ?_ ?_ fun _ _ => trivial
  · intro _ after holds
    exact .update ⟨rfl, holds⟩
  · intro _ after _
    exact .update rfl

end ImageConfig

/-- Data replaces what is at the cursor. -/
theorem achieves_writeAtCursor {cursor : Nat} {data : Bytes}
    (returns : onReturn () (store.writingAt partition (overwrite cursor data content)
      (cursor + data.length))) :
    Achieves Answer.Works (writeAtCursor partition data) onReturn
      (store.writingAt partition content cursor) := by
  apply Ensures.bind
  apply Ensures.read
  apply Ensures.bind
  apply achieves_flash
  apply Ensures.update
  simpa [Storage.writingAt, Storage.withImage] using returns

/-- An image write starts at the front. -/
theorem achieves_imageWriterBegin
    (returns : ∀ content, onReturn () (store.writingAt partition content 0)) :
    Achieves Answer.Works (imageWriterBegin partition) onReturn store := by
  apply Ensures.bind
  apply Ensures.update
  apply achieves_flash
  exact returns _

/-- A finished image write is closed. -/
theorem achieves_imageWriterFinish {cursor : Nat}
    (returns : onReturn () { store.writingAt partition content cursor with writing := none }) :
    Achieves Answer.Works (imageWriterFinish partition) onReturn
      (store.writingAt partition content cursor) := by
  apply Ensures.bind
  apply achieves_flash
  apply Ensures.update
  simpa [Storage.writingAt, Storage.withImage] using returns

namespace ImageConfig

/-- The writer to disk appends while there is room. -/
theorem diskWriter_appends (disk : config.disk = true) (path : entry.path = config.appEntryPath)
    (named : partition ≠ 0)
    (room : config.capacity partition = 0 ∨ entry.size ≤ config.capacity partition) :
    (config.diskWriter partition).Appends partition entry where
  start := by
    intro store onReturn returns
    apply Ensures.bind
    refine .require (fun _ => ?_) fun refused => refused disk
    apply Ensures.bind
    refine .require (fun _ => ?_) fun refused => refused path
    apply Ensures.bind
    refine .require (fun _ => ?_) fun refused => refused named
    apply Ensures.bind
    apply achieves_probe
    apply Ensures.bind
    refine .require (fun _ => ?_) fun refused => refused room
    apply Ensures.bind
    apply Ensures.update
    dsimp only
    split
    · exact achieves_flash (returns _)
    · apply Ensures.pure
      simpa [Storage.writingAt, Storage.withImage] using returns (store.images partition)
  write := by
    intro store content data cursor onReturn some fits returns
    apply Ensures.bind
    refine .require (fun _ => ?_) fun refused => refused disk
    rw [if_neg some]
    apply Ensures.bind
    apply Ensures.read
    apply Ensures.bind
    refine .require (fun _ => ?_) fun refused => refused ?_
    · apply Ensures.bind
      refine .require (fun _ => ?_) fun refused => refused fits
      exact achieves_writeAtCursor returns
    · dsimp only [Storage.writingAt]
      omega
  finish := by
    intro store content cursor onReturn returns
    apply Ensures.bind
    refine .require (fun _ => ?_) fun refused => refused disk
    apply Ensures.bind
    apply Ensures.recovering
    refine Achieves.ensures (achieves_probe ?_)
    exact .update returns

/-- The writer of a copy appends while there is room. -/
theorem copyWriter_appends (writable : config.imageWriter = true ∨ config.disk = true)
    (path : entry.path = config.appEntryPath) (named : partition ≠ 0)
    (room : config.capacity partition = 0 ∨ entry.size ≤ config.capacity partition) :
    (config.copyWriter partition).Appends partition entry := by
  unfold copyWriter
  split
  · exact ⟨achieves_imageWriterBegin, fun _ _ => achieves_writeAtCursor, achieves_imageWriterFinish⟩
  · rename_i without
    exact diskWriter_appends (writable.resolve_left without) path named room

/-- Partitions can be read back. -/
def Readable (config : ImageConfig) : Prop := config.imageReader = true ∨ config.disk = true

/-- A read inside the image returns its bytes. -/
theorem achieves_imageRead {length : Nat} {onReturn : Bytes → Storage → Prop}
    (readable : config.Readable) (named : partition ≠ 0)
    (inside : offset + length ≤ (store.images partition).length)
    (returns : onReturn (((store.images partition).drop offset).take length) store) :
    Achieves Answer.Works (config.imageRead partition offset length) onReturn store := by
  apply Ensures.bind
  refine .require (fun _ => ?_) fun refused => refused named
  apply Ensures.bind
  refine .require (fun _ => ?_) fun refused => refused readable
  exact Pal.achieves_imageRead inside returns

/-- The capacity is that of the partition. -/
theorem achieves_imageCapacity {onReturn : Nat → Storage → Prop} (readable : config.Readable)
    (named : partition ≠ 0) (returns : onReturn (config.capacity partition) store) :
    Achieves Answer.Works (config.imageCapacity partition) onReturn store := by
  apply Ensures.bind
  refine .require (fun _ => ?_) fun refused => refused named
  apply Ensures.bind
  refine .require (fun _ => ?_) fun refused => refused (readable.imp_right .inr)
  apply Ensures.bind
  exact achieves_probe (.pure returns)

/-- The transfer buffer is not empty, whether or not it could be allocated. -/
theorem achieves_transferBuffer {onReturn : Nat → Storage → Prop}
    (returns : ∀ buffer, 0 < buffer → onReturn buffer store) :
    Achieves Answer.Works transferBuffer onReturn store := by
  apply Ensures.bind
  apply Ensures.attempt
  exact Achieves.ensures (achieves_probe (.pure (returns _ (by decide))))

/-- A whole image can be hashed. -/
theorem achieves_hashPartition {onReturn : Bytes → Storage → Prop} (readable : config.Readable)
    (named : partition ≠ 0) (positive : size ≠ 0) (whole : size ≤ (store.images partition).length)
    (returns : onReturn (config.digest.hex ((store.images partition).take size)) store) :
    Achieves Answer.Works (config.hashPartition partition size) onReturn store := by
  apply Ensures.bind
  refine .require (fun _ => ?_) fun refused => refused positive
  apply Ensures.bind
  refine achieves_transferBuffer fun buffer room => ?_
  apply Ensures.bind
  apply achieves_probe
  apply Ensures.bind
  refine ensures_hashLoop room (by omega) (by omega) (by omega) (fun _ _ _ _ read =>
    achieves_imageRead readable named (by omega) (read (by omega))) fun _ => ?_
  apply Ensures.bind
  exact achieves_probe (.pure returns)

/-- The loop copies the image to its end. -/
theorem achieves_copyLoop {destination : Nat} (appends : writer.Appends destination entry)
    (readable : config.Readable) (named : source ≠ 0) (other : source ≠ destination)
    (sized : entry.size = size) (room : 0 < buffer) (enough : size - offset ≤ fuel)
    (inside : offset ≤ size) (whole : size ≤ (store.images source).length)
    (written : offset ≤ content.length)
    (copied : content.take offset = (store.images source).take offset)
    (returns : ∀ content, size ≤ content.length →
      content.take size = (store.images source).take size →
      onReturn () (store.writingAt destination content size)) :
    Achieves Answer.Works (config.copyLoop writer entry source buffer size fuel offset) onReturn
      (store.writingAt destination content offset) := by
  induction fuel generalizing offset content with
  | zero =>
    obtain rfl : offset = size := by omega
    exact .pure (returns content written copied)
  | succ fuel ih =>
    unfold copyLoop
    split
    · rename_i more
      set take := min buffer (size - offset) with taking
      have seen : (store.writingAt destination content offset).images source =
          store.images source := by
        simp [Storage.writingAt, Function.update_of_ne other]
      set piece := ((store.images source).drop offset).take take with pieceIs
      have length : piece.length = take := by
        rw [List.length_take, List.length_drop]
        omega
      apply Ensures.bind
      refine achieves_imageRead readable named (by rw [seen]; omega) ?_
      rw [seen, ← pieceIs]
      apply Ensures.bind
      have some : piece ≠ [] := List.length_pos_iff.mp (by omega)
      refine appends.write some (by omega) ?_
      rw [length]
      refine ih (by omega) (by omega) ?_ ?_
      · have grown := le_length_overwrite piece written
        rwa [length] at grown
      · have front := take_overwrite piece written
        rw [length] at front
        rw [front, copied, ← List.take_add]
    · obtain rfl : offset = size := by omega
      exact .pure (returns content written copied)

/-- With working backends, room in the destination and an image in the source, a copy leaves
the image in the destination as well. -/
theorem achieves_imageCopyTo {destination : Nat} (readable : config.Readable)
    (writable : config.imageWriter = true ∨ config.disk = true)
    (positive : identity.imageSize ≠ 0) (sourceNamed : source ≠ 0) (named : destination ≠ 0)
    (other : source ≠ destination) (lower : isLowerSha256Hex identity.imageSha256.string = true)
    (fitsSource : config.capacity source = 0 ∨ identity.imageSize.toNat ≤ config.capacity source)
    (fits : config.capacity destination = 0 ∨
      identity.imageSize.toNat ≤ config.capacity destination)
    (holds : HoldsImage config.digest store source identity.imageSize.toNat
      identity.imageSha256.string)
    (returns : ∀ content cursor, identity.imageSize.toNat ≤ content.length →
      content.take identity.imageSize.toNat =
      (store.images source).take identity.imageSize.toNat →
      onReturn () { store.withImage destination content with writing := none, cursor }) :
    Achieves Answer.Works (config.imageCopyTo identity source destination) onReturn store := by
  apply Ensures.withCleanup
  apply Achieves.ensures
  have size : identity.imageSize.toNat ≠ 0 := by
    intro zero
    exact positive (UInt64.toNat.inj zero)
  apply Ensures.bind
  refine .require (fun _ => ?_) fun refused =>
    refused ⟨size, sourceNamed, named, other, lower⟩
  apply Ensures.bind
  refine achieves_imageCapacity readable sourceNamed ?_
  apply Ensures.bind
  refine achieves_imageCapacity readable named ?_
  apply Ensures.bind
  refine .require (fun _ => ?_) fun refused => refused ⟨fitsSource, fits⟩
  apply Ensures.bind
  refine achieves_transferBuffer fun buffer room => ?_
  have appends : (config.copyWriter destination).Appends destination
      ⟨config.appEntryPath, .file, identity.imageSize.toNat⟩ :=
    copyWriter_appends writable rfl named fits
  apply Ensures.bind
  refine appends.start fun erased => ?_
  apply Ensures.bind
  apply Ensures.recovering
  refine Achieves.ensures (achieves_copyLoop appends readable sourceNamed other rfl room (by omega)
    (by omega) holds.1 (by omega) (by simp) fun content whole copied => ?_)
  apply Ensures.bind
  apply Ensures.recovering
  refine Achieves.ensures (appends.finish ?_)
  have written : (({ store.writingAt destination content identity.imageSize.toNat with
      writing := none } : Storage).images destination) = content := by
    simp [Storage.writingAt]
  apply Ensures.bind
  refine achieves_hashPartition readable named size (by rw [written]; exact whole) ?_
  refine .require (fun _ => .update (returns content _ whole copied)) fun refused =>
    refused ?_
  rw [written, copied]
  exact holds.2

end ImageConfig

end Gizos.Loader
