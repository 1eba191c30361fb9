import Gizos.Bundle.Manifest
import Gizos.Fault.Guards
import Gizos.Pal.Storage

/-! # The bundle installer

The tar state machine of the bundle library and the installs that feed it
(`h2_bundle_archive.c`, `h2_bundle_installer.c`): an archive compressed as one stream, with the
OTA layout or with a manifest, and the data member of a segmented package. The state machine is
kept as local variables beside the storage, because a failing call releases what the entry at hand
still holds open.
-/
namespace Gizos.Bundle

open Fault Pal Fault.Program

/-- `h2_bundle_app_writer_t`: where the bytes of an application entry go. -/
structure AppWriter where
  start : Entry → Routine Storage Unit
  /-- Takes the next bytes of the entry. -/
  write : Entry → Bytes → Routine Storage Unit
  /-- Ends the entry. -/
  finish : Entry → Routine Storage Unit
  /-- Gives the entry up. -/
  abort : Routine Storage Unit

/-- Every call of a writer keeps an invariant. -/
structure AppWriter.Keeps (writer : AppWriter) (invariant : Storage → Prop) : Prop where
  start : ∀ entry, Fault.Keeps invariant (writer.start entry)
  write : ∀ entry data, Fault.Keeps invariant (writer.write entry data)
  finish : ∀ entry, Fault.Keeps invariant (writer.finish entry)
  abort : Fault.Keeps invariant writer.abort

/-- With working backends, a writer puts what it is given, piece after piece, into its
partition. -/
structure AppWriter.Appends (writer : AppWriter) (partition : Nat) (entry : Entry) : Prop where
  /-- Starting may erase. -/
  start : ∀ {store : Storage} {onReturn : Unit → Storage → Prop},
    (∀ content, onReturn () (store.writingAt partition content 0)) →
    Achieves Answer.Works (writer.start entry) onReturn store
  /-- Writing goes on where the last write ended. -/
  write : ∀ {store : Storage} {content data : Bytes} {cursor : Nat}
    {onReturn : Unit → Storage → Prop}, data ≠ [] → cursor + data.length ≤ entry.size →
    onReturn () (store.writingAt partition (overwrite cursor data content) (cursor + data.length)) →
    Achieves Answer.Works (writer.write entry data) onReturn
      (store.writingAt partition content cursor)
  /-- Finishing keeps what was written. -/
  finish : ∀ {store : Storage} {content : Bytes} {cursor : Nat}
    {onReturn : Unit → Storage → Prop},
    onReturn () { store.writingAt partition content cursor with writing := none } →
    Achieves Answer.Works (writer.finish entry) onReturn (store.writingAt partition content cursor)

/-- The unpacker of `.pixa` files: for packed contents and a destination, the files it writes
in order and whether it reports success after them. -/
structure PixaApi where
  /-- Unpacks packed contents at a destination. -/
  extract : Bytes → Bytes → List (Bytes × Bytes) × Bool

/-- `h2_bundle_install_options_t`. -/
structure InstallOptions where
  /-- Directory the files go to, `dst_root`. -/
  dataRoot : Bytes
  /-- File that names the installed data. -/
  installedChecksumPath : Bytes
  /-- Where the application goes. -/
  appWriter : Option AppWriter
  /-- Empties the data directory. -/
  clearData : Option (Routine Storage Unit)
  /-- Leaves the application alone. -/
  skipAppInstall : Bool
  /-- Leaves the data alone. -/
  skipDataInstall : Bool
  /-- The unpacker of packed files. -/
  pixa : PixaApi
  /-- The checksum of the contents of an entry. -/
  crc32 : Crc32Api
  /-- The archive has the OTA layout. -/
  otaLayout : Bool := true
  /-- What the files of the archive are checked against. -/
  manifest : Option BundleManifest := none
  /-- File that names the installed version. -/
  installedVersionPath : Option Bytes := none

/-- `tar_state_kind_t`. -/
inductive TarKind where
  /-- `TAR_STATE_HEADER`. -/
  | header
  /-- `TAR_STATE_FILE`. -/
  | file
  /-- `TAR_STATE_PADDING`. -/
  | padding
deriving Repr, DecidableEq

/-- `tar_output_kind_t`. -/
inductive TarOutput where
  /-- `TAR_OUTPUT_NONE`. -/
  | none
  /-- `TAR_OUTPUT_FS`. -/
  | fs
  /-- `TAR_OUTPUT_APP`. -/
  | app
  /-- `TAR_OUTPUT_CHECKSUM`. -/
  | checksum
  /-- `TAR_OUTPUT_SKIP`. -/
  | skip
deriving Repr, DecidableEq

/-- `tar_state_t`. The buffers are the bytes they hold, and `hashed` is what the data digest
has been given. -/
structure TarState where
  /-- What the next bytes are. -/
  kind : TarKind := .header
  /-- Where the contents of the entry go. -/
  output : TarOutput := .none
  /-- The entry at hand, under its installed path. -/
  entry : Entry := ⟨[], .file, 0⟩
  /-- The entry at hand, under its archive path. -/
  appEntry : Entry := ⟨[], .file, 0⟩
  /-- The header bytes read so far. -/
  header : Bytes := []
  /-- Content bytes still to come. -/
  remaining : Nat := 0
  /-- Padding bytes still to come. -/
  paddingRemaining : Nat := 0
  /-- Zero blocks seen in a row. -/
  zeroBlocks : Nat := 0
  /-- The end of the archive was seen. -/
  done : Bool := false
  /-- The file that is open for writing. -/
  outFile : Option Bytes := .none
  /-- The packed contents read so far. -/
  pixaData : Bytes := []
  /-- The checksum read so far. -/
  checksumData : Bytes := []
  /-- The checksum entry was seen. -/
  checksumSeen : Bool := false
  /-- The manifest entry was seen. -/
  packageManifestSeen : Bool := false
  /-- The application entry was seen. -/
  appSeen : Bool := false
  /-- The application writer has been started. -/
  appWriterActive : Bool := false
  /-- The installed data is another one. -/
  dataInstallNeeded : Bool := false
  /-- The data directory has been emptied. -/
  dataCleared : Bool := false
  /-- Where the entry at hand is installed. -/
  dstPath : Bytes := []
  /-- A data digest is computed. -/
  dataDigest : Bool := false
  /-- The entry at hand goes into the data digest. -/
  hashingDataEntry : Bool := false
  /-- Path of the last data entry. -/
  lastDataPath : Bytes := []
  /-- Bytes of plain data files. -/
  dataPayloadBytes : Nat := 0
  /-- Bytes of packed data files. -/
  pixaPayloadBytes : Nat := 0
  /-- Bytes given to the data digest. -/
  hashed : Bytes := []
  /-- CRC-32 of the contents of the entry at hand, so far. -/
  entryCrc32 : UInt32 := 0
  /-- Which entries of the manifest have been seen; empty where there is nothing to mark. -/
  manifestSeen : List Bool := []
deriving Repr, DecidableEq

/-- A routine of the installer: its local variables beside the storage. -/
abbrev InstallRoutine (α : Type) : Type := Routine (TarState × Storage) α

/-- A routine of the platform, called by the installer. -/
def onStore {α : Type} (body : Routine Storage α) : InstallRoutine α := body.on .snd

/-- An assignment to the installer's variables. -/
def assign (change : TarState → TarState) : InstallRoutine Unit :=
  update fun state => (change state.1, state.2)

/-- The installer's variables. -/
def tarState : InstallRoutine TarState := read Prod.fst

/-- `map_fs`. -/
def mapFs {σ α : Type} (body : Routine σ α) : Routine σ α :=
  body.recovering fun _ => fail errFs

section Guards

variable {α : Type} {invariant : Storage → Prop} {pre : TarState → Prop}

theorem guards_assign {change : TarState → TarState} {post : Unit → TarState → Prop}
    (promised : ∀ state, pre state → post () (change state)) :
    Guards invariant pre (assign change) post :=
  .assign promised

theorem guards_stable {change : TarState → TarState}
    (stable : ∀ state, pre state → pre (change state)) :
    Guards invariant pre (assign change) fun _ => pre :=
  .assign stable

theorem guards_onStore {body : Routine Storage α} (kept : Keeps invariant body) :
    Guards invariant pre (onStore body) fun _ => pre :=
  .onState kept

theorem guards_mapFs {body : InstallRoutine α} {post : α → TarState → Prop}
    (guarded : Guards invariant pre body post) : Guards invariant pre (mapFs body) post :=
  .recovering guarded fun _ => .fail _

theorem guards_probe : Guards invariant pre (onStore probe) fun _ => pre :=
  guards_onStore (keeps_probe _)

end Guards

/-- The places of the slashes in a path, except at its front. -/
def slashesIn (path : Bytes) : List Nat :=
  (List.range path.length).filter fun index => 0 < index && path[index]? = some slash

/-- Makes a directory that may not need to be made. -/
def makeParent (path : Bytes) : Routine Storage Unit :=
  (fsMakeDir path).recovering fun code =>
    if code = errUnsupported then pure () else fail code

/-- `bundle_fs_make_dir_all`: every directory on the way, and the last one. -/
def makeDirAll (path : Bytes) : Routine Storage Unit := do
  require (path ≠ []) errInvalidArg
  require (path.length < pathMax) Pal.errNoSpace
  (slashesIn path).forM fun index => makeParent (path.take index)
  fsMakeDir path

/-- `h2_bundle_path_parent_dir`: the path before its last slash. -/
def pathParentDir (path : Bytes) : Bytes :=
  ((path.reverse.dropWhile (· ≠ slash)).drop 1).reverse

/-- `ensure_parent_dirs`. -/
def ensureParentDirs (path : Bytes) : Routine Storage Unit := do
  let parent := pathParentDir path
  if parent = [] then pure () else mapFs (makeDirAll parent)

/-- `bundle_fs_write_file`. -/
def fsWriteFile (path data : Bytes) : Routine Storage Unit := do
  fsOpenTruncate path
  closingAfter do
    fsWriteAll path data.length data
    probe

/-- Size of the buffer of `checksum_data`. -/
def checksumCapacity : Nat := 128

/-- `read_installed_checksum`: as much of the file as fits the buffer, and nothing when there
is no file. -/
def readInstalledChecksum (path : Bytes) : Routine Storage Bytes := do
  require (path ≠ []) errFs
  match ← (lookup fun store : Storage => store.files path).attempt with
  | .ok content =>
    let content ← (do probe; pure (content.take checksumCapacity) : Routine Storage Bytes).attempt
    (probe : Routine Storage Unit).ignoring
    match content with
    | .ok content => pure content
    | .error _ => fail errFs
  | .error code => if code = errNotFound then pure [] else fail errFs

/-- Unpacks files one after the other. -/
def extractFiles : List (Bytes × Bytes) → Routine Storage Unit
  | [] => pure ()
  | (path, content) :: rest => do
    ensureParentDirs path
    fsWriteFile path content
    extractFiles rest

/-- `pixa_extract_memory_with_progress`, on the file system of the installer. -/
def PixaApi.unpack (pixa : PixaApi) (data destination : Bytes) : Routine Storage Unit := do
  extractFiles (pixa.extract data destination).1
  require (pixa.extract data destination).2 errPixa

namespace InstallOptions

variable (options : InstallOptions) (entry : Entry) (state : TarState)

/-- `finish_checksum_entry`. -/
def finishChecksumEntry : InstallRoutine Unit := do
  let state ← tarState
  require (state.checksumSeen = false ∧ state.checksumData ≠ []) errLayout
  assign fun state => { state with checksumSeen := true }
  if options.skipDataInstall then assign fun state => { state with dataInstallNeeded := false }
  else do
    let installed ← onStore (readInstalledChecksum options.installedChecksumPath)
    assign fun state => { state with dataInstallNeeded := installed ≠ state.checksumData }

/-- `ensure_data_cleared`. -/
def ensureDataCleared : InstallRoutine Unit := do
  let state ← tarState
  if state.dataCleared ∨ ¬state.dataInstallNeeded then pure () else do
    onStore (options.clearData.getD (pure ()))
    assign fun state => { state with dataCleared := true }

/-- Gives an application entry up that has been started. -/
def abortApp : InstallRoutine Unit :=
  match state.appWriterActive, options.appWriter with
  | true, some writer => do
    onStore writer.abort
    assign fun state => { state with appWriterActive := false }
  | _, _ => pure ()

/-- Closes the file that is open for writing. -/
def closeOutFile : InstallRoutine Unit :=
  if state.outFile.isSome then (onStore probe).ignoring else pure ()

/-- `release_entry_buffers`. -/
def releaseEntryBuffers : InstallRoutine Unit := do
  let state ← tarState
  options.abortApp state
  closeOutFile state
  assign fun state => { state with outFile := none, pixaData := [] }

/-- The state after the contents of an entry: its padding, if there is any. -/
def afterContent : TarState :=
  { state with kind := if 0 < state.paddingRemaining then .padding else .header }

/-- The suffix of packed files. -/
def pixaSuffix : Bytes := ascii ".pixa"

/-- `finish_file_entry`, for an application entry. -/
def finishAppEntry : InstallRoutine Unit :=
  match options.appWriter with
  | none => fail errLayout
  | some writer =>
    ((onStore (writer.finish entry)).recovering fun code => do
      onStore writer.abort
      fail code).withCleanup
        (assign fun state => afterContent { state with appWriterActive := false })

/-- Unpacks the entry at hand, or ends the file it was written to. -/
def finishFile : InstallRoutine Unit :=
  if pathHasSuffix state.entry.path pixaSuffix then
    (onStore (do probe; options.pixa.unpack state.pixaData state.dstPath)).recovering fun _ =>
      fail errPixa
  else if state.outFile.isSome then do
    mapFs (onStore probe)
    (mapFs (onStore probe)).withCleanup (assign fun state => { state with outFile := none })
  else pure ()

/-- Releases what an entry holds open, and gives up. -/
def giveUp {α : Type} (code : Int) : InstallRoutine α := do
  options.releaseEntryBuffers
  fail code

/-- Marks an entry of the manifest as seen, if marks are kept. -/
def markSeen (index : Nat) : InstallRoutine Unit := do
  let state ← tarState
  onlyIf (decide (state.manifestSeen ≠ [])) do
    require (state.manifestSeen.getD index false = false) errManifest
    assign fun state => { state with manifestSeen := state.manifestSeen.set index true }

/-- `verify_manifest_entry`. -/
def verifyManifestEntry : InstallRoutine Unit :=
  match options.manifest with
  | none => pure ()
  | some manifest => do
    let state ← tarState
    match manifest.find state.entry.path with
    | none => fail errManifest
    | some index => do
      conclude (match manifest.entries[index]? with
        | some entry => manifestVerifyCrc32 entry state.entry.size state.entryCrc32
        | none => .error errManifest)
      markSeen index

/-- `finish_file_entry`. -/
def finishFileEntry : InstallRoutine Unit := do
  assign fun state =>
    if state.hashingDataEntry then
      { state with hashed := state.hashed ++ [0], hashingDataEntry := false }
    else state
  let state ← tarState
  match state.output with
  | .checksum => options.finishChecksumEntry.withCleanup (assign afterContent)
  | .app => options.finishAppEntry state.appEntry
  | .skip => assign afterContent
  | .fs | .none => do
    options.verifyManifestEntry.recovering options.giveUp
    (options.finishFile state).withCleanup
      (assign fun state => afterContent { state with pixaData := [] })

/-- Contents that go nowhere, if there are any. -/
def skipContent : InstallRoutine Unit :=
  assign fun state =>
    { state with output := .skip, kind := if entry.size = 0 then .header else .file }

/-- An entry without contents of interest. -/
def skipEntry : InstallRoutine Unit :=
  assign fun state => { state with output := .skip, kind := .header }

/-- Starts the contents of an entry, which may be over at once. -/
def startContent : InstallRoutine Unit :=
  if entry.size = 0 then options.finishFileEntry
  else assign fun state => { state with kind := .file }

/-- Opens the file an entry goes to; packed files are kept in memory first. -/
def openOutFile (path : Bytes) : InstallRoutine Unit :=
  if pathHasSuffix entry.path pixaSuffix then pure () else do
    mapFs (onStore (fsOpenTruncate path))
    assign fun state => { state with outFile := some path }

/-- The part of `start_entry` that installs a file or a directory. -/
def startInstalled (relative : Bytes) : InstallRoutine Unit := do
  let path ← conclude (pathJoin pathMax options.dataRoot relative)
  assign fun state => { state with dstPath := path }
  match entry.kind with
  | .dir => do
    mapFs (onStore (makeDirAll path))
    assign fun state => { state with kind := .header }
  | .file => do
    assign fun state => { state with output := .fs }
    onStore (ensureParentDirs path)
    openOutFile entry path
    options.startContent entry

/-- `start_entry`, for a path inside the data directory. -/
def startData : InstallRoutine Unit := do
  let state ← tarState
  require state.checksumSeen errLayout
  if state.dataInstallNeeded then do
    options.ensureDataCleared
    let relative := entry.path.drop (ascii "data/").length
    if relative = [] then do
      require (entry.kind = .dir) errLayout
      skipEntry
    else do
      require (relative.length < pathMax) Bundle.errNoSpace
      assign fun state => { state with entry := { entry with path := relative } }
      options.startInstalled entry relative
  else skipContent entry

/-- `start_entry`, for a path inside the application directory. -/
def startApp : InstallRoutine Unit := do
  let state ← tarState
  require state.checksumSeen errLayout
  if entry.kind = .dir then skipEntry else do
    require (state.appSeen = false) errLayout
    assign fun state => { state with appSeen := true }
    if options.skipAppInstall then skipContent entry else
      match options.appWriter with
      | none => fail errLayout
      | some writer => do
        assign fun state => { state with output := .app }
        onStore (writer.start entry)
        assign fun state => { state with appWriterActive := true }
        options.startContent entry

/-- The variables at the start of an entry. -/
def enterEntry : TarState :=
  { state with
    entry := entry
    appEntry := entry
    output := .none
    remaining := entry.size
    paddingRemaining := tarPadding entry.size
    pixaData := []
    outFile := none
    entryCrc32 := 0
    hashingDataEntry := false }

/-- The part of `start_entry` that feeds a data digest with the path of an entry. -/
def hashDataEntry : InstallRoutine Unit := do
  let state ← tarState
  if state.dataDigest then do
    require (isDataPath entry.path ∧ entry.kind = .file) errLayout
    require (strcmpLt state.lastDataPath entry.path) errLayout
    assign fun state => { state with
      lastDataPath := entry.path
      hashed := state.hashed ++ entry.path ++ [0]
      hashingDataEntry := true }
    if pathHasSuffix entry.path pixaSuffix then do
      require (state.pixaPayloadBytes + entry.size < 2 ^ 64) Bundle.errNoSpace
      assign fun state => { state with pixaPayloadBytes := state.pixaPayloadBytes + entry.size }
    else do
      require (state.dataPayloadBytes + entry.size < 2 ^ 64) Bundle.errNoSpace
      assign fun state => { state with dataPayloadBytes := state.dataPayloadBytes + entry.size }
  else pure ()

/-- `start_entry`, for the manifest. -/
def startManifest : InstallRoutine Unit := do
  let state ← tarState
  require (state.packageManifestSeen = false ∧ state.checksumSeen = false ∧
    entry.kind = .file ∧ entry.size ≠ 0) errLayout
  assign fun state => { state with packageManifestSeen := true, output := .skip, kind := .file }

/-- `start_entry`, for the checksum. -/
def startChecksum : InstallRoutine Unit := do
  require (entry.kind = .file ∧ entry.size ≠ 0 ∧ entry.size < checksumCapacity) errLayout
  assign fun state => { state with output := .checksum, kind := .file }

/-- `start_entry`, for the layout of an OTA archive. -/
def startOtaEntry : InstallRoutine Unit :=
  if entry.path = manifestPath then startManifest entry
  else if entry.path = checksumPath then startChecksum entry
  else if (entry.path = dataPath ∨ entry.path = appPath) ∧ entry.kind = .dir then skipEntry
  else if isDataPath entry.path then options.startData entry
  else if isAppPath entry.path then options.startApp entry
  else fail errLayout

/-- `start_entry`. -/
def startEntry : InstallRoutine Unit := do
  assign (enterEntry entry)
  hashDataEntry entry
  if options.otaLayout then options.startOtaEntry entry
  else options.startInstalled entry entry.path

/-- `consume_header_bytes`, which returns the bytes after the ones it took. -/
def consumeHeaderBytes (input : Bytes) : InstallRoutine Bytes := do
  let state ← tarState
  let want := 512 - state.header.length
  let header := state.header ++ input.take want
  if header.length < 512 then do
    assign fun state => { state with header := header }
    pure (input.drop want)
  else do
    assign fun state => { state with header := [] }
    match ← conclude (tarParseHeader header) with
    | none => do
      assign fun state => { state with
        zeroBlocks := state.zeroBlocks + 1
        done := state.done || decide (2 ≤ state.zeroBlocks + 1) }
      pure (input.drop want)
    | some entry => do
      assign fun state => { state with zeroBlocks := 0 }
      options.startEntry entry
      pure (input.drop want)

/-- Hands content bytes to the buffer of a packed file, or to the file that is open. -/
def putFile (data : Bytes) : InstallRoutine Unit :=
  if pathHasSuffix state.entry.path pixaSuffix then do
    onStore probe
    assign fun state => { state with pixaData := state.pixaData ++ data }
  else
    match state.outFile with
    | some path => mapFs (onStore (fsWriteAll path data.length data))
    | none => fail errFs

/-- Hands content bytes to where the entry at hand goes. -/
def putContent (data : Bytes) : InstallRoutine Unit :=
  match state.output with
  | .checksum => do
    require (state.checksumData.length + data.length < checksumCapacity) errLayout
    assign fun state => { state with checksumData := state.checksumData ++ data }
  | .app =>
    match options.appWriter with
    | some writer => onStore (writer.write state.appEntry data)
    | none => fail errLayout
  | .skip => pure ()
  | .fs | .none => putFile state data

/-- Finishes an entry whose contents are over. -/
def finishIfOver (remaining : Nat) : InstallRoutine Unit :=
  if remaining = 0 then options.finishFileEntry else pure ()

/-- `consume_file_bytes`, which returns the bytes after the ones it took. -/
def consumeFileBytes (input : Bytes) : InstallRoutine Bytes := do
  let state ← tarState
  let data := input.take state.remaining
  if data = [] then do
    options.finishFileEntry
    pure input
  else do
    assign fun state =>
      if state.hashingDataEntry then { state with hashed := state.hashed ++ data } else state
    options.putContent state data
    assign fun state => { state with
      entryCrc32 := options.crc32.update state.entryCrc32 data
      remaining := state.remaining - data.length }
    options.finishIfOver (state.remaining - data.length)
    pure (input.drop state.remaining)

/-- `consume_padding_bytes`, which returns the bytes after the ones it took. -/
def consumePaddingBytes (input : Bytes) : InstallRoutine Bytes := do
  let state ← tarState
  let padding := input.take state.paddingRemaining
  require (state.dataDigest = false ∨ padding.all (· = 0)) errTar
  let left := state.paddingRemaining - padding.length
  assign fun state => { state with
    paddingRemaining := left
    kind := if left = 0 then .header else state.kind }
  pure (input.drop state.paddingRemaining)

/-- One pass of the loop of `tar_state_feed`. -/
def consume (input : Bytes) : InstallRoutine Bytes := do
  let state ← tarState
  match state.kind with
  | .header => options.consumeHeaderBytes input
  | .file => options.consumeFileBytes input
  | .padding => consumePaddingBytes input

/-- The loop of `tar_state_feed`, which returns what it leaves of the input. A pass takes a byte
or ends an entry that has no bytes left. -/
def feedLoop : Nat → Bytes → InstallRoutine Bytes
  | 0, _ => fail errTar
  | fuel + 1, input => do
    let state ← tarState
    if input = [] ∨ state.done then pure input else do
      let rest ← (options.consume input).recovering options.giveUp
      feedLoop fuel rest

/-- `tar_state_feed`. -/
def feed (data : Bytes) : InstallRoutine Unit := do
  let rest ← options.feedLoop (2 * data.length + 1) data
  let state ← tarState
  require (state.dataDigest = false ∨ state.done = false ∨ rest.all (· = 0)) errTar

/-- The part of `tar_state_finish` for the OTA layout. -/
def finishOta : InstallRoutine Unit := do
  require (state.checksumSeen ∧ state.appSeen) errLayout
  if options.skipDataInstall = false ∧ state.dataInstallNeeded then do
    options.ensureDataCleared
    mapFs (onStore (fsWriteFile options.installedChecksumPath state.checksumData))
  else pure ()

/-- `tar_state_finish`. -/
def finish : InstallRoutine Unit := do
  let state ← tarState
  if state.outFile.isSome ∨ state.pixaData ≠ [] then options.giveUp errTar else do
    require (state.kind = .header ∧ state.header = []) errTar
    require (state.zeroBlocks ≠ 0 ∧ (state.dataDigest = false ∨ 2 ≤ state.zeroBlocks)) errTar
    onlyIf options.otaLayout (options.finishOta state)
    require (options.manifest = none ∨ state.manifestSeen.all id) errManifest

/-- The decompressed pieces of an archive, each read from the archive before it is fed. -/
def feedPieces : List Bytes → InstallRoutine Unit
  | [] => pure ()
  | piece :: rest => do
    (mapFs (onStore probe)).recovering options.giveUp
    options.feed piece
    feedPieces rest

/-- `H2_BUNDLE_IO_BUF_SIZE`, which is `SEGMENT_IO_SIZE` too. -/
def ioBufSize : Nat := 4096

/-- An archive has to be a whole stream; what comes after it is not looked at. -/
def endStream : InflateEnd → InstallRoutine Unit
  | .ended _ => pure ()
  | .truncated | .corrupt => options.giveUp errZlib

/-- The part of `h2_bundle_archive_install_zlib_tar` for an archive that is open. -/
def installStream (zlib : InflateApi) (archive : Bytes) : InstallRoutine Unit := do
  let stream := zlib.run ioBufSize archive
  options.feedPieces stream.1
  options.endStream stream.2
  (mapFs (onStore probe)).recovering options.giveUp
  options.finish

/-- The entries of the manifest that marks are kept for. -/
def marked : List ManifestEntry := (options.manifest.map BundleManifest.entries).getD []

/-- `init_manifest_seen`: the memory of the marks. -/
def initManifestSeen : Routine Storage Unit :=
  if options.marked = [] then pure ()
  else (probe : Routine Storage Unit).recovering fun _ => fail errNoMemory

/-- `h2_bundle_archive_install_zlib_tar`. -/
def installZlibTar (zlib : InflateApi) (archivePath : Bytes) : Routine Storage Unit := do
  options.initManifestSeen
  let archive ← mapFs (lookup fun store : Storage => store.files archivePath)
  (options.installStream zlib archive).withLocals
    { manifestSeen := options.marked.map fun _ => false }

/-- The version that is to be noted after an install, and where. -/
def versionFile : Option (Bytes × Bytes) := do
  let path ← options.installedVersionPath
  let manifest ← options.manifest
  let version ← manifest.version
  pure (path, version)

/-- `h2_bundle_install`. -/
def install (zlib : InflateApi) (archivePath : Bytes) : Routine Storage Unit := do
  options.installZlibTar zlib archivePath
  match options.versionFile with
  | some (path, version) => mapFs (fsWriteFile path version)
  | none => pure ()

/-- The options of an OTA install. -/
def forOta : InstallOptions :=
  { options with otaLayout := true, manifest := none, installedVersionPath := none }

/-- `h2_bundle_install_ota`. -/
def installOta (zlib : InflateApi) (archivePath : Bytes) : Routine Storage Unit :=
  options.forOta.install zlib archivePath

end InstallOptions

section Segments

variable {σ : Type}

/-- Writes a piece, if there is one. -/
def writePiece (write : Bytes → Routine σ Unit) (piece : Bytes) : Routine σ Unit :=
  if piece = [] then pure () else write piece

/-- The pieces of a member, each read from the package before it is written. Returns how much
was produced. -/
def inflatePieces (write : Bytes → Routine σ Unit) (size : Nat) :
    List Bytes → Nat → Routine σ Nat
  | [], produced => pure produced
  | piece :: rest, produced => do
    probe
    require (produced + piece.length ≤ size) errFormat
    writePiece write piece
    inflatePieces write size rest (produced + piece.length)

/-- A member has to be a whole stream of the promised size, with nothing after it. -/
def endMember (segment : Segment) (produced : Nat) : InflateEnd → Routine σ Unit
  | .ended unused => do
    require (unused = 0) errFormat
    require (produced = segment.size) errTruncated
  | .truncated => fail errTruncated
  | .corrupt => fail errFormat

/-- `h2_bundle_segmented_inflate`. -/
def segmentedInflate (zlib : InflateApi) (package : Bytes) (segment : Segment)
    (write : Bytes → Routine σ Unit) : Routine σ Unit := do
  require (segment.compressedSize ≠ 0 ∧ segment.size ≠ 0 ∧
    segment.offset + segment.compressedSize < 2 ^ 64) errInvalidArg
  let stream := zlib.run InstallOptions.ioBufSize
    (field package segment.offset segment.compressedSize)
  let produced ← inflatePieces write segment.size stream.1 0
  endMember segment produced stream.2

end Segments

/-- The installer's variables for the data member of a segmented package. -/
def TarState.forData (manifest : SegmentedManifest) : TarState :=
  { checksumSeen := true
    appSeen := true
    dataInstallNeeded := true
    dataDigest := true
    checksumData := manifest.dataSha256 ++ [10] }

/-- The options for the data member of a segmented package. -/
def InstallOptions.forData (options : InstallOptions) : InstallOptions :=
  { options with
    appWriter := none
    skipAppInstall := true
    skipDataInstall := false
    otaLayout := true
    manifest := none
    installedVersionPath := none }

/-- The check of the data digest and of the two totals. -/
def verifyData (digest : DigestApi) (manifest : SegmentedManifest) : InstallRoutine Unit := do
  let state ← tarState
  require (digest.hex state.hashed = manifest.dataSha256 ∧
    state.dataPayloadBytes = manifest.dataBytes ∧ state.pixaPayloadBytes = manifest.pixaBytes)
    errFormat

/-- `h2_bundle_archive_install_data_zlib`. -/
def installDataZlib (options : InstallOptions) (zlib : InflateApi) (digest : DigestApi)
    (package : Bytes) (manifest : SegmentedManifest) : Routine Storage Unit := do
  require (options.clearData.isSome ∧ manifest.dataSha256.length = 64) errInvalidArg
  -- The file that names the installed data goes first, so that a replacement that is cut short
  -- is not taken for the old data.
  fsRemoveOptional options.installedChecksumPath
  ((do
    onStore probe
    segmentedInflate zlib package manifest.data options.forData.feed
    onStore probe
    verifyData digest manifest
    options.forData.finish : InstallRoutine Unit).withCleanup
      options.forData.releaseEntryBuffers).withLocals (TarState.forData manifest)

end Gizos.Bundle
