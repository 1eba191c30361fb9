import Gizos.Loader.Package.Partition
import Gizos.Loader.Package.Validator

/-! # Inspecting and installing packages

The functions of `h2_loader_package.c` on package files: verifying a file against its recorded
size and digest, inspecting it in either format, planning an install and carrying it out.
-/
namespace Gizos.Loader

open Fault Pal Gizos.Bundle Fault.Program

/-- `h2_loader_package_config_t`. -/
structure PackageConfig extends ImageConfig where
  /-- Where the staged package is. -/
  packagePath : Bytes
  /-- Directory of the data files. -/
  dataRoot : Bytes
  /-- File that names the installed data. -/
  installedChecksumPath : Bytes
  /-- The decompressor. -/
  zlib : InflateApi
  /-- The unpacker of packed files. -/
  pixa : PixaApi
  /-- The checksum of the contents of an entry. -/
  crc32 : Crc32Api
  /-- Empties the data directory. -/
  clearData : Option (Routine Storage Unit)

/-- `h2_loader_package_install_plan_t`. -/
structure InstallPlan where
  /-- The image is written. -/
  updateApp : Bool
  /-- The data files are written. -/
  updateData : Bool
deriving Repr, DecidableEq

/-- The role a format-two manifest names; the parser allows no third one. -/
def segmentedRole (role : Bytes) : ImageRole := if role = ascii "app" then .app else .h2loader

/-- What `inspect_segmented_path` reports. -/
def segmentedInspection (appEntryPath : Bytes) (m : SegmentedManifest) : Inspection where
  legacy := false
  staged := .zero
  manifest :=
    { format := 2
      role := segmentedRole m.role
      board := .copy _ m.board
      target := .copy _ m.target
      version := .copy _ m.version
      imageSize := UInt64.ofNat m.app.size
      imageSha256 := .copy _ m.imageSha256 }
  imagePath := appEntryPath
  dataChecksum := m.dataSha256 ++ [10]
  dataBytes := m.dataBytes
  pixaBytes := m.pixaBytes
  segments := some m

namespace PackageConfig

variable (config : PackageConfig)

/-- `h2_loader_package_verify_path`. -/
def verifyPath (path : Bytes) (size : UInt64) (sha256 : Bytes) : Routine Storage Unit := do
  require (size ≠ 0 ∧ isSha256Hex sha256) errInvalidArg
  let stat ← lookup fun store : Storage => store.files path
  require (stat.length = size.toNat) errFormat
  let content ← fsReadFile path
  require (config.digest.hex content = sha256) errFormat

/-- The bytes a format-two package starts with. -/
def segmentedStart : Bytes := ascii "manifest" ++ [0]

/-- The decompressed pieces of a package go through the validator, which then has to have seen
the end of the stream. -/
def feedValidator (content : Bytes) : Except Int (LayoutValidator × Bool) := do
  let stream := config.zlib.run validateIoBufSize content
  let v ← stream.1.foldlM (LayoutValidator.feed config.digest config.appEntryPath)
    LayoutValidator.start
  match stream.2 with
  | .ended _ => .ok (v, true)
  | .truncated => .ok (v, false)
  | .corrupt => .error errZlib

/-- `layout_validator_finish`, for a stream that ended. -/
def finishValidator (v : LayoutValidator) (streamDone : Bool) : Except Int Inspection := do
  if ¬streamDone then .error errZlib
  v.finish
  .ok v.inspection

/-- `inspect_segmented_path`. -/
def inspectSegmentedPath (path : Bytes) : Routine Storage Inspection := do
  probe
  let content ← lookup fun store : Storage => store.files path
  let m ← closingAfter do
    probe
    conclude (segmentedInspect config.digest content)
  pure (segmentedInspection config.appEntryPath m)

/-- The part of `h2_loader_package_inspect_path` for a package compressed as one stream. -/
def inspectStream (content : Bytes) : Routine Storage Inspection := do
  let (v, streamDone) ← closingAfter do
    probe
    conclude (config.feedValidator content)
  conclude (finishValidator v streamDone)

/-- `h2_loader_package_inspect_path`. -/
def inspectPath (path : Bytes) : Routine Storage Inspection := do
  let content ← lookup fun store : Storage => store.files path
  probe
  if content.take segmentedStart.length = segmentedStart then do
    probe
    config.inspectSegmentedPath path
  else config.inspectStream content

/-- `installed_data_checksum_matches`. -/
def installedDataChecksumMatches (checksum : Bytes) : Routine Storage Bool := do
  require (checksum ≠ [] ∧ checksum.length ≤ identityTextMax) errInvalidArg
  match ← (lookup fun store : Storage => store.files config.installedChecksumPath).attempt with
  | .ok content =>
    closingAfter do
      probe
      pure (content = checksum)
  | .error code => if code = errNotFound then pure false else fail code

variable (inspection : Inspection) (destination : Nat)

/-- The image the destination already holds need not be written again. -/
def imageUpdateNeeded : Routine Storage Bool :=
  if inspection.legacy = false ∧ (config.imageReader ∨ config.disk) then
    (do config.imageVerify inspection.manifest destination; pure false :
      Routine Storage Bool).recovering fun code =>
        if code = errFormat ∨ code = errNotFound then pure true else fail code
  else pure true

/-- `h2_loader_package_plan_install`. -/
def planInstall : Routine Storage InstallPlan := do
  require (destination ≠ 0 ∧ inspection.dataChecksum ≠ [] ∧
    inspection.dataChecksum.length ≤ identityTextMax ∧
    (inspection.manifest.role = .app ∨ inspection.manifest.role = .h2loader)) errInvalidArg
  if inspection.manifest.role = .h2loader then pure ⟨true, false⟩ else do
    let updateApp ← config.imageUpdateNeeded inspection destination
    let matching ← config.installedDataChecksumMatches inspection.dataChecksum
    pure ⟨updateApp, !matching⟩

/-- The options of an install. -/
def installOptions (writer : AppWriter) (plan : InstallPlan) : InstallOptions where
  dataRoot := config.dataRoot
  installedChecksumPath := config.installedChecksumPath
  appWriter := if plan.updateApp then some writer else none
  clearData := config.clearData
  skipAppInstall := !plan.updateApp
  skipDataInstall := !plan.updateData
  pixa := config.pixa
  crc32 := config.crc32

/-- `write_segment_app`, with the bytes the digest has been given. -/
def writeSegmentApp (writer : AppWriter) (entry : Entry) (data : Bytes) :
    Routine (Bytes × Storage) Unit := do
  update fun state => (state.1 ++ data, state.2)
  (writer.write entry data).on .snd

/-- The application member goes to the writer, and its digest has to match. -/
def inflateSegmentApp (package : Bytes) (m : SegmentedManifest) (writer : AppWriter)
    (entry : Entry) : Routine (Bytes × Storage) Unit := do
  segmentedInflate config.zlib package m.app (writeSegmentApp writer entry)
  let hashed ← read Prod.fst
  probe
  require (config.digest.hex hashed = m.imageSha256) errFormat

/-- The application part of `install_segments`. -/
def installSegmentApp (package : Bytes) (m : SegmentedManifest) (writer : AppWriter)
    (imagePath : Bytes) : Routine Storage Unit :=
  let entry : Entry := ⟨imagePath, .file, m.app.size⟩
  (do
    writer.start entry
    probe
    (config.inflateSegmentApp package m writer entry).withLocals []
    writer.finish entry : Routine Storage Unit).recovering fun code => do
      writer.abort
      fail code

/-- `install_segments`. -/
def installSegments (m : SegmentedManifest) (imagePath : Bytes) (plan : InstallPlan)
    (writer : AppWriter) : Routine Storage Unit :=
  onlyIf (plan.updateApp || plan.updateData) do
    let package ← lookup fun store : Storage => store.files config.packagePath
    closingAfter do
      onlyIf plan.updateData
        (installDataZlib (config.installOptions writer plan) config.zlib config.digest package m)
      onlyIf plan.updateApp (config.installSegmentApp package m writer imagePath)

/-- What a second inspection has to agree on with the first. -/
def sameInspection (fresh inspection : Inspection) : Bool :=
  fresh.legacy = inspection.legacy &&
  fresh.manifest.format = inspection.manifest.format &&
  fresh.manifest.role = inspection.manifest.role &&
  fresh.manifest.board.string = inspection.manifest.board.string &&
  fresh.manifest.target.string = inspection.manifest.target.string &&
  fresh.manifest.version.string = inspection.manifest.version.string &&
  fresh.manifest.imageSize = inspection.manifest.imageSize &&
  fresh.manifest.imageSha256.string = inspection.manifest.imageSha256.string &&
  fresh.imagePath = inspection.imagePath &&
  fresh.dataChecksum = inspection.dataChecksum &&
  match fresh.segments, inspection.segments with
  | some left, some right => left.app = right.app && left.data = right.data &&
      left.dataBytes = right.dataBytes && left.pixaBytes = right.pixaBytes
  | _, _ => true

/-- The writer an install uses. -/
def installWriter (identity : Manifest) (destination : Nat) : AppWriter :=
  if config.imageWriter then ImageConfig.writerBridge identity destination
  else config.diskWriter destination

/-- Installs a package by its format; only one of format two has members. -/
def carryOut (fresh : Inspection) (plan : InstallPlan) (writer : AppWriter) :
    Routine Storage Unit :=
  match fresh.segments with
  | some m => config.installSegments m fresh.imagePath plan writer
  | none => onlyIf (plan.updateApp || plan.updateData)
      ((config.installOptions writer plan).installOta config.zlib config.packagePath)

/-- Reads back the image that was written. -/
def readBack : Routine Storage Unit :=
  (do
    let sha256 ← config.hashPartition destination inspection.manifest.imageSize.toNat
    require (sha256 = inspection.manifest.imageSha256.string) errFormat :
      Routine Storage Unit).recovering fun code => do
        onlyIf config.imageWriter (imageWriterAbort destination)
        fail code

/-- What `h2_loader_package_install_to` requires of its arguments. -/
def installable (plan : InstallPlan) : Prop :=
  inspection.staged.valid ∧ inspection.dataChecksum ≠ [] ∧
    inspection.dataChecksum.length ≤ identityTextMax ∧ destination ≠ 0 ∧
    inspection.manifest.imageSize ≠ 0 ∧
    (inspection.manifest.role = .app ∨ inspection.manifest.role = .h2loader) ∧
    (inspection.manifest.role = .h2loader → plan.updateApp ∧ plan.updateData = false)

instance (plan : InstallPlan) : Decidable (installable inspection destination plan) :=
  inferInstanceAs (Decidable (_ ∧ _ ∧ _ ∧ _ ∧ _ ∧ _ ∧ _))

/-- The body of `h2_loader_package_install_to`. -/
def install (plan : InstallPlan) : Routine Storage Unit := do
  require (installable inspection destination plan) errInvalidArg
  let capacity ← config.imageCapacity destination
  require (capacity = 0 ∨ inspection.manifest.imageSize.toNat ≤ capacity) Pal.errNoSpace
  config.verifyPath config.packagePath inspection.staged.size inspection.staged.checksum.string
  let fresh ← config.inspectPath config.packagePath
  require (sameInspection fresh inspection) errFormat
  require (plan.updateApp → config.imageWriter ∨ config.disk) errUnsupported
  config.carryOut fresh plan (config.installWriter inspection.manifest destination)
  onlyIf (plan.updateApp && !inspection.legacy && (config.imageReader || config.disk))
    (config.readBack inspection destination)

/-- `h2_loader_package_install_to`, whose writer is gone when it returns. -/
def installTo (plan : InstallPlan) : Routine Storage Unit :=
  (config.install inspection destination plan).withCleanup closeWrite

end PackageConfig

end Gizos.Loader
