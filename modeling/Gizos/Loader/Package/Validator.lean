import Gizos.Loader.Image

/-! # The layout validator

The streaming check of a format-one package (`layout_validator_*` in
`h2_loader_package.c`). The validator is fed decompressed pieces of any size, hashes the data
files and the image as they pass, and fills in the inspection. The running digest is the
bytes it has been fed since it was started.
-/
namespace Gizos.Loader

open Gizos.Bundle

/-- `h2_loader_identity_t`. -/
structure StagedIdentity where
  /-- Whether the identity is set. -/
  valid : Bool
  /-- Version of the package. -/
  version : Text identityTextMax
  /-- Digest of the package file. -/
  checksum : Text identityTextMax
  /-- Size of the package file. -/
  size : UInt64
deriving DecidableEq

/-- The zeroed identity. -/
def StagedIdentity.zero : StagedIdentity := ⟨false, .zero _, .zero _, 0⟩

/-- `h2_loader_package_inspection_t`. -/
structure Inspection where
  /-- The package has no manifest. -/
  legacy : Bool
  /-- The package file as it was staged. -/
  staged : StagedIdentity
  /-- The manifest, or what a legacy package implies. -/
  manifest : Manifest
  /-- Path of the application entry. -/
  imagePath : Bytes
  /-- Exact bytes of the data checksum. -/
  dataChecksum : Bytes
  /-- Bytes of plain data files. -/
  dataBytes : Nat
  /-- Bytes of packed data files. -/
  pixaBytes : Nat
  /-- Member locations of a format-two package. -/
  segments : Option SegmentedManifest
deriving DecidableEq

/-- The zeroed inspection. -/
def Inspection.zero : Inspection := ⟨false, .zero, .zero, [], [], 0, 0, none⟩

/-- `h2_loader_layout_validator_t`. Arrays that fill up hold exactly what was copied so far. -/
structure LayoutValidator where
  /-- Header bytes read so far. -/
  header : Bytes
  /-- Content bytes of the entry still to come. -/
  remaining : Nat
  /-- Padding bytes of the entry still to come. -/
  paddingRemaining : Nat
  /-- A header block is being read. -/
  readingHeader : Bool
  /-- Padding is being skipped. -/
  readingPadding : Bool
  /-- Zero blocks read since the last entry. -/
  zeroBlocks : Nat
  /-- The checksum entry is complete. -/
  checksumSeen : Bool
  /-- Bytes of the checksum entry. -/
  checksumData : Bytes
  /-- The data digest is running. -/
  dataDigestStarted : Bool
  /-- The data digest matched the checksum entry. -/
  dataDigestVerified : Bool
  /-- Path of the last hashed data file. -/
  lastDataPath : Bytes
  /-- The package starts with a manifest. -/
  manifestSeen : Bool
  /-- A data entry was seen. -/
  dataSeen : Bool
  /-- The image digest is running. -/
  imageDigestStarted : Bool
  /-- Number of entries started. -/
  entryIndex : Nat
  /-- Bytes of the manifest entry. -/
  manifestData : Bytes
  /-- The application entry was seen. -/
  appSeen : Bool
  /-- The end of the archive was seen. -/
  done : Bool
  /-- The entry being read. -/
  entry : Entry
  /-- What the running digest has been fed. -/
  hashed : Bytes
  /-- The inspection being filled in. -/
  inspection : Inspection
deriving DecidableEq

/-- The validator `h2_loader_package_inspect_path` starts with. -/
def LayoutValidator.start : LayoutValidator where
  header := []
  remaining := 0
  paddingRemaining := 0
  readingHeader := true
  readingPadding := false
  zeroBlocks := 0
  checksumSeen := false
  checksumData := []
  dataDigestStarted := false
  dataDigestVerified := false
  lastDataPath := []
  manifestSeen := false
  dataSeen := false
  imageDigestStarted := false
  entryIndex := 0
  manifestData := []
  appSeen := false
  done := false
  entry := ⟨[], .file, 0⟩
  hashed := []
  inspection := .zero

/-- The components of the loader's own path check, with the component read so far. -/
def segmentsSafe : Bytes → Bytes → Bool
  | component, [] => component = [] || componentSafe component
  | component, ch :: rest =>
    if ch = slash then componentSafe component && segmentsSafe [] rest
    else segmentsSafe (component ++ [ch]) rest

/-- `is_safe_relative_path` of the loader, which lets a trailing slash pass. -/
def isSafeRelativePath (path : Bytes) : Bool :=
  path ≠ [] && path.head? ≠ some slash && !path.contains backslash && segmentsSafe [] path

/-- The counter a data file adds its size to, which must not overflow. -/
def countData (inspection : Inspection) (entry : Entry) : Except Int Inspection :=
  if entry.kind ≠ .file then .ok inspection
  else if pathHasSuffix entry.path (ascii ".pixa") then
    if 2 ^ 64 - 1 - inspection.pixaBytes < entry.size then .error errLayout
    else .ok { inspection with pixaBytes := inspection.pixaBytes + entry.size }
  else
    if 2 ^ 64 - 1 - inspection.dataBytes < entry.size then .error errLayout
    else .ok { inspection with dataBytes := inspection.dataBytes + entry.size }

namespace LayoutValidator

variable (digest : DigestApi) (appEntryPath : Bytes) (v : LayoutValidator)

/-- A loader package may not carry data. -/
def dataForbidden : Bool :=
  v.manifestSeen && v.inspection.manifest.role = .h2loader

/-- Starting the manifest entry. -/
def startManifest (index : Nat) (entry : Entry) : Except Int LayoutValidator :=
  if index ≠ 0 ∨ v.manifestSeen ∨ entry.kind ≠ .file ∨ entry.size = 0 ∨ 512 < entry.size then
    .error errLayout
  else .ok { v with manifestSeen := true }

/-- Starting the checksum entry, which is the first one after the manifest. -/
def startChecksum (index : Nat) (entry : Entry) : Except Int LayoutValidator :=
  if v.checksumSeen ∨ entry.kind ≠ .file ∨ entry.size = 0 ∨ identityTextMax ≤ entry.size then
    .error errLayout
  else if (¬v.manifestSeen ∧ index ≠ 0) ∨ (v.manifestSeen ∧ index ≠ 1) then .error errLayout
  else .ok v

/-- Hashing the path of a data file of a package with a manifest. -/
def hashDataPath (entry : Entry) : Except Int LayoutValidator :=
  if entry.kind = .file ∧ v.manifestSeen then
    if ¬v.dataDigestStarted ∨ (v.lastDataPath ≠ [] ∧ ¬strcmpLt v.lastDataPath entry.path) then
      .error errLayout
    else .ok { v with
      hashed := v.hashed ++ entry.path ++ [0] ++ (if entry.size = 0 then [0] else [])
      lastDataPath := entry.path }
  else .ok v

/-- Starting an entry inside the data directory. -/
def startData (entry : Entry) : Except Int LayoutValidator :=
  if ¬v.checksumSeen then .error errLayout
  else if ¬isSafeRelativePath (entry.path.drop 5) then .error errUnsafePath
  else if v.dataForbidden then .error errLayout
  else do
    let v ← hashDataPath { v with dataSeen := true } entry
    let inspection ← countData v.inspection entry
    .ok { v with inspection, readingHeader := entry.size = 0 }

/-- Starting the application entry, which ends the data digest of a package with a
manifest. -/
def startApp (entry : Entry) : Except Int LayoutValidator :=
  if ¬v.checksumSeen ∨ v.appSeen ∨ entry.kind ≠ .file ∨ entry.path ≠ appEntryPath ∨
      entry.size = 0 then .error errLayout
  else
    let v := { v with
      appSeen := true
      inspection := { v.inspection with imagePath := entry.path } }
    if v.manifestSeen then
      if v.inspection.manifest.imageSize.toNat ≠ entry.size ∨ ¬v.dataDigestStarted ∨
          v.checksumData.take 64 ≠ digest.hex v.hashed then .error errLayout
      else .ok { v with
        dataDigestStarted := false
        dataDigestVerified := true
        hashed := []
        imageDigestStarted := true }
    else .ok { v with inspection := { v.inspection with
      legacy := true
      manifest := { v.inspection.manifest with
        role := .app
        imageSize := UInt64.ofNat entry.size } } }

/-- Starting one of the two top directories. -/
def startDirectory (entry : Entry) : Except Int LayoutValidator :=
  if entry.path ≠ dataPath then .ok { v with readingHeader := true }
  else if v.dataForbidden then .error errLayout
  else .ok { v with dataSeen := true, readingHeader := true }

/-- `layout_validator_start_entry`. -/
def startEntry (entry : Entry) : Except Int LayoutValidator :=
  let index := v.entryIndex
  let v := { v with
    entryIndex := index + 1
    entry := entry
    remaining := entry.size
    paddingRemaining := tarPadding entry.size
    readingHeader := false
    readingPadding := false }
  if entry.path = manifestPath then startManifest v index entry
  else if entry.path = checksumPath then startChecksum v index entry
  else if (entry.path = dataPath ∨ entry.path = appPath) ∧ entry.kind = .dir then
    startDirectory v entry
  else if isDataPath entry.path then startData v entry
  else if isAppPath entry.path then startApp digest appEntryPath v entry
  else .error errLayout

/-- The checksum without its line end. -/
def checksumText (bytes : Bytes) : Bytes :=
  if bytes.getLast? = some 10 then bytes.dropLast else bytes

/-- The checksum entry is complete: its text is recorded and the data digest starts. -/
def finishChecksum : Except Int LayoutValidator :=
  if v.manifestSeen ∧ ¬isLowerSha256Hex (checksumText v.checksumData) then .error errLayout
  else .ok { v with
    inspection := { v.inspection with dataChecksum := v.checksumData }
    dataDigestStarted := v.manifestSeen
    hashed := if v.manifestSeen then [] else v.hashed
    checksumSeen := true }

/-- What the end of an entry's content means for that entry. -/
def finishContent : Except Int LayoutValidator :=
  if v.entry.path = manifestPath then
    if v.manifestData.length ≠ v.entry.size then .error errLayout else
    match manifestParse v.manifestData with
    | .ok manifest => .ok { v with inspection := { v.inspection with manifest } }
    | .error _ => .error errLayout
  else if v.entry.path = checksumPath then finishChecksum v
  else if isDataPath v.entry.path ∧ v.entry.kind = .file ∧ v.dataDigestStarted then
    .ok { v with hashed := v.hashed ++ [0] }
  else if isAppPath v.entry.path ∧ v.imageDigestStarted then
    if digest.hex v.hashed ≠ v.inspection.manifest.imageSha256.string then .error errLayout
    else .ok { v with imageDigestStarted := false }
  else .ok v

/-- `layout_validator_finish_entry`. -/
def finishEntry : Except Int LayoutValidator := do
  let v ← finishContent digest v
  if v.paddingRemaining > 0 then .ok { v with readingPadding := true }
  else .ok { v with readingHeader := true }

/-- What the bytes of a piece of content are used for. -/
def absorb (piece : Bytes) : Except Int LayoutValidator :=
  if v.entry.path = manifestPath then
    if 512 < v.manifestData.length + piece.length then .error errNoSpace
    else .ok { v with manifestData := v.manifestData ++ piece }
  else if v.entry.path = checksumPath then
    if identityTextMax < v.checksumData.length + piece.length then .error errNoSpace
    else .ok { v with checksumData := v.checksumData ++ piece }
  else if v.dataDigestStarted ∧ isDataPath v.entry.path ∧ v.entry.kind = .file then
    .ok { v with hashed := v.hashed ++ piece }
  else if v.imageDigestStarted ∧ isAppPath v.entry.path then
    .ok { v with hashed := v.hashed ++ piece }
  else .ok v

/-- A full header block. -/
def takeHeader (block : Bytes) : Except Int LayoutValidator := do
  match ← tarParseHeader block with
  | none => .ok { v with
      zeroBlocks := v.zeroBlocks + 1
      done := v.done || v.zeroBlocks + 1 ≥ 2 }
  | some entry =>
    if v.done then .error errLayout
    else startEntry digest appEntryPath { v with zeroBlocks := 0 } entry

/-- `layout_validator_consume_header`: the validator and the data after what it took. -/
def consumeHeader (data : Bytes) : Except Int (LayoutValidator × Bytes) := do
  let take := min (512 - v.header.length) data.length
  let header := v.header ++ data.take take
  if header.length < 512 then .ok ({ v with header }, data.drop take)
  else
    let v ← takeHeader digest appEntryPath { v with header := [] } header
    .ok (v, data.drop take)

/-- `layout_validator_consume_file`. -/
def consumeFile (data : Bytes) : Except Int (LayoutValidator × Bytes) := do
  let take := min v.remaining data.length
  let v ← absorb v (data.take take)
  let v := { v with remaining := v.remaining - take }
  if v.remaining = 0 then
    let v ← finishEntry digest v
    .ok (v, data.drop take)
  else .ok (v, data.drop take)

/-- `layout_validator_consume_padding`. -/
def consumePadding (data : Bytes) : LayoutValidator × Bytes :=
  let take := min v.paddingRemaining data.length
  let v := { v with paddingRemaining := v.paddingRemaining - take }
  if v.paddingRemaining = 0 then
    ({ v with readingPadding := false, readingHeader := true }, data.drop take)
  else (v, data.drop take)

/-- One pass of the loop of `layout_validator_feed`. -/
def consume (data : Bytes) : Except Int (LayoutValidator × Bytes) :=
  if v.readingHeader then consumeHeader digest appEntryPath v data
  else if v.readingPadding then .ok (consumePadding v data)
  else consumeFile digest v data

/-- The loop of `layout_validator_feed`; a pass takes a byte or ends an entry, so twice the
data is fuel enough. -/
def feedLoop : Nat → LayoutValidator → Bytes → Except Int LayoutValidator
  | 0, _, _ => .error errLayout
  | fuel + 1, v, data =>
    if v.done then if data.all (· = 0) then .ok v else .error errLayout
    else if data = [] then .ok v
    else do
      let (v, rest) ← consume digest appEntryPath v data
      feedLoop fuel v rest

/-- `layout_validator_feed`. -/
def feed (data : Bytes) : Except Int LayoutValidator :=
  feedLoop digest appEntryPath (2 * data.length + 2) v data

/-- `layout_validator_finish`. -/
def finish : Except Int Unit :=
  if ¬v.done ∨ ¬v.checksumSeen ∨ ¬v.appSeen ∨ v.header ≠ [] ∨ ¬v.readingHeader then
    .error errLayout
  else if v.manifestSeen ∧ ¬v.dataDigestVerified then .error errLayout
  else if v.dataForbidden ∧ v.dataSeen then .error errLayout
  else .ok ()

end LayoutValidator

/-- Validation of a whole decompressed package, fed in pieces. -/
def validateLayout (digest : DigestApi) (appEntryPath : Bytes) (pieces : List Bytes) :
    Except Int Inspection := do
  let v ← pieces.foldlM (LayoutValidator.feed digest appEntryPath) LayoutValidator.start
  LayoutValidator.finish v
  .ok v.inspection

end Gizos.Loader
