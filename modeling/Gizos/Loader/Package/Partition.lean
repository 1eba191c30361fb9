import Gizos.Bundle.Installer
import Gizos.Loader.Image

/-! # Images in partitions

Hashing, verifying, writing and copying the image of a partition (`h2_loader_package.c`).
Which backends a target configures is part of the configuration; the calls themselves go to
the platform.
-/
namespace Gizos.Loader

open Fault Pal Gizos.Bundle Fault.Program

/-- The backends of `h2_loader_package_config_t` that images go through. -/
structure ImageConfig where
  /-- The platform's digest. -/
  digest : DigestApi
  /-- Capacity of each partition; zero when it is not known. -/
  capacity : Nat → Nat
  imageReader : Bool
  imageWriter : Bool
  disk : Bool
  /-- Erase block size of the disk. -/
  eraseBlockSize : Nat
  /-- Path of the application entry. -/
  appEntryPath : Bytes

/-- `H2_LOADER_IMAGE_IO_BUF_SIZE`. -/
def imageIoBufSize : Nat := 65536
/-- `H2_LOADER_VALIDATE_IO_BUF_SIZE`, the buffer used when none can be allocated. -/
def validateIoBufSize : Nat := 1024

/-- Allocates the transfer buffer, or falls back to the one on the stack. -/
def transferBuffer : Routine Storage Nat := do
  match ← (probe : Routine Storage Unit).attempt with
  | .ok _ => pure imageIoBufSize
  | .error _ => pure validateIoBufSize

namespace ImageConfig

variable (config : ImageConfig)

/-- `image_capacity`. -/
def imageCapacity (partition : Nat) : Routine Storage Nat := do
  require (partition ≠ 0) errInvalidArg
  require (config.imageReader ∨ config.imageWriter ∨ config.disk) errUnsupported
  probe
  pure (config.capacity partition)

/-- `image_read`. -/
def imageRead (partition offset length : Nat) : Routine Storage Bytes := do
  require (partition ≠ 0) errInvalidArg
  require (config.imageReader ∨ config.disk) errUnsupported
  Pal.imageRead partition offset length

/-- The loop of `hash_partition`; a pass takes at least one byte, so the size is fuel
enough. -/
def hashLoop (partition buffer size : Nat) : Nat → Nat → Bytes → Routine Storage Bytes
  | 0, _, hashed => pure hashed
  | fuel + 1, offset, hashed =>
    if offset < size then do
      let take := min buffer (size - offset)
      let data ← config.imageRead partition offset take
      hashLoop partition buffer size fuel (offset + take) (hashed ++ data)
    else pure hashed

/-- `hash_partition`: the digest of the first bytes of a partition, as text. -/
def hashPartition (partition size : Nat) : Routine Storage Bytes := do
  require (size ≠ 0) errInvalidArg
  let buffer ← transferBuffer
  probe
  let hashed ← config.hashLoop partition buffer size size 0 []
  probe
  pure (config.digest.hex hashed)

/-- `h2_loader_image_verify`. -/
def imageVerify (identity : Manifest) (partition : Nat) : Routine Storage Unit := do
  require (partition ≠ 0 ∧ identity.imageSize ≠ 0 ∧
    isLowerSha256Hex identity.imageSha256.string) errInvalidArg
  let capacity ← config.imageCapacity partition
  require (capacity = 0 ∨ identity.imageSize.toNat ≤ capacity) Pal.errNoSpace
  let sha256 ← config.hashPartition partition identity.imageSize.toNat
  require (sha256 = identity.imageSha256.string) errFormat

/-- `erase_len_for_entry`. -/
def eraseLenForEntry (partition size : Nat) : Nat :=
  let capacity := config.capacity partition
  let block := config.eraseBlockSize
  let length := if 0 < capacity ∧ capacity < size then capacity else size
  let length := if 0 < block ∧ length % block ≠ 0 then length + (block - length % block) else length
  if 0 < capacity ∧ capacity < length then capacity else length

end ImageConfig

/-- An image write opens on a partition. -/
def openWrite (partition : Nat) : Routine Storage Unit :=
  update fun store => { store with writing := some partition, cursor := 0 }

/-- The open image write has taken more bytes. -/
def advanceWrite (count : Nat) : Routine Storage Unit :=
  update fun store => { store with cursor := store.cursor + count }

/-- The open image write ends. -/
def closeWrite : Routine Storage Unit :=
  update fun store => { store with writing := none }

/-- Bytes written at the position of the open image write. -/
def writeAtCursor (partition : Nat) (data : Bytes) : Routine Storage Unit := do
  let offset ← read Storage.cursor
  flash partition (overwrite offset data)
  advanceWrite data.length

/-- The `begin` call of an image writer. -/
def imageWriterBegin (partition : Nat) : Routine Storage Unit := do
  openWrite partition
  flash partition id

/-- The `finish` call of an image writer. -/
def imageWriterFinish (partition : Nat) : Routine Storage Unit := do
  flash partition id
  closeWrite

/-- The `abort` call of an image writer, which reports nothing. -/
def imageWriterAbort (partition : Nat) : Routine Storage Unit := do
  (flash partition id).ignoring
  closeWrite

namespace ImageConfig

variable (config : ImageConfig)

/-- `disk_writer_begin`. -/
def diskWriterBegin (partition : Nat) (entry : Entry) : Routine Storage Unit := do
  require config.disk errInvalidArg
  require (entry.path = config.appEntryPath) errUnsupported
  require (partition ≠ 0) errInvalidArg
  probe
  require (config.capacity partition = 0 ∨ entry.size ≤ config.capacity partition) Pal.errNoSpace
  openWrite partition
  let length := config.eraseLenForEntry partition entry.size
  if 0 < length then
    flash partition fun content => overwrite 0 (List.replicate length 0xff) content

/-- `disk_writer_write`. -/
def diskWriterWrite (partition : Nat) (entry : Entry) (data : Bytes) : Routine Storage Unit := do
  require config.disk errInvalidArg
  if data = [] then pure () else do
    let offset ← read Storage.cursor
    require (config.capacity partition = 0 ∨
      offset + data.length ≤ config.capacity partition) Pal.errNoSpace
    require (offset + data.length ≤ entry.size) errFormat
    writeAtCursor partition data

/-- `disk_writer_end`. -/
def diskWriterEnd : Routine Storage Unit := do
  require config.disk errInvalidArg
  (probe : Routine Storage Unit).recovering fun code =>
    if code = errUnsupported then pure () else fail code
  closeWrite

/-- The disk writer of `h2_loader_package_install_to` and `h2_loader_image_copy_to`. -/
def diskWriter (partition : Nat) : AppWriter where
  start := config.diskWriterBegin partition
  write := config.diskWriterWrite partition
  finish _ := config.diskWriterEnd
  abort := pure ()

/-- `writer_bridge_begin` and its companions. -/
def writerBridge (identity : Manifest) (partition : Nat) : AppWriter where
  start entry := do
    require (entry.size = identity.imageSize.toNat) errInvalidArg
    imageWriterBegin partition
  write entry data := do
    let offset ← read Storage.cursor
    let writing ← read Storage.writing
    require (writing = some partition) errInvalidState
    require (offset + data.length ≤ entry.size) errFormat
    writeAtCursor partition data
  finish _ := do
    let writing ← read Storage.writing
    require (writing = some partition) errInvalidState
    imageWriterFinish partition
  abort := do
    let writing ← read Storage.writing
    if writing = some partition then imageWriterAbort partition

/-- The writer that `h2_loader_image_copy_to` uses. -/
def copyWriter (partition : Nat) : AppWriter :=
  if config.imageWriter then
    { start := fun _ => imageWriterBegin partition
      write := fun _ data => writeAtCursor partition data
      finish := fun _ => imageWriterFinish partition
      abort := imageWriterAbort partition }
  else config.diskWriter partition

/-- The loop of `h2_loader_image_copy_to`. -/
def copyLoop (writer : AppWriter) (entry : Entry) (source buffer size : Nat) :
    Nat → Nat → Routine Storage Unit
  | 0, _ => pure ()
  | fuel + 1, offset =>
    if offset < size then do
      let take := min buffer (size - offset)
      let data ← config.imageRead source offset take
      writer.write entry data
      copyLoop writer entry source buffer size fuel (offset + take)
    else pure ()

/-- Runs part of a write and gives the write up when the part fails. -/
def orAbort (writer : AppWriter) (body : Routine Storage Unit) : Routine Storage Unit :=
  body.recovering fun code => do
    writer.abort
    fail code

/-- The body of `h2_loader_image_copy_to`. -/
def copyImage (identity : Manifest) (source destination : Nat) : Routine Storage Unit := do
  let size := identity.imageSize.toNat
  require (size ≠ 0 ∧ source ≠ 0 ∧ destination ≠ 0 ∧ source ≠ destination ∧
    isLowerSha256Hex identity.imageSha256.string) errInvalidArg
  let sourceCapacity ← config.imageCapacity source
  let destinationCapacity ← config.imageCapacity destination
  require ((sourceCapacity = 0 ∨ size ≤ sourceCapacity) ∧
    (destinationCapacity = 0 ∨ size ≤ destinationCapacity)) Pal.errNoSpace
  let buffer ← transferBuffer
  let entry : Entry := ⟨config.appEntryPath, .file, size⟩
  let writer := config.copyWriter destination
  writer.start entry
  orAbort writer (config.copyLoop writer entry source buffer size size 0)
  orAbort writer (writer.finish entry)
  let sha256 ← config.hashPartition destination size
  require (sha256 = identity.imageSha256.string) errFormat

/-- `h2_loader_image_copy_to`, whose writer is gone when it returns. -/
def imageCopyTo (identity : Manifest) (source destination : Nat) : Routine Storage Unit :=
  (config.copyImage identity source destination).withCleanup closeWrite

end ImageConfig

end Gizos.Loader
