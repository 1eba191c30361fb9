import Gizos.Bundle.Containment
import Gizos.Bundle.Cut
import Gizos.Bundle.Reading
import Gizos.Loader.Package.DataChecksum

/-! # What the installed checksum names

The file with the installed checksum is to name the data tree that is on disk: if it holds the
checksum of a package, the tree is that of the package. Replacing a tree takes many steps, each of
which may fail or be cut by a reset, so both installers are followed through all of them.
-/
namespace Gizos.Loader

open Fault Pal Gizos.Bundle

variable (options : InstallOptions)

/-- What installing a data file writes: the file, or what it unpacks to. -/
def otaWrites (file : Bytes × Bytes) : List (Bytes × Bytes) :=
  let destination := joined options.dataRoot (file.1.drop (ascii "data/").length)
  if pathHasSuffix file.1 InstallOptions.pixaSuffix then
    (options.pixa.extract file.2 destination).1
  else [(destination, file.2)]

theorem dataFiles_append (first second : List (Entry × Bytes)) :
    dataFiles (first ++ second) = dataFiles first ++ dataFiles second :=
  List.filterMap_append

/-- The variables of the installer that outlast an entry. -/
structure InstallView where
  /-- The checksum entry was seen. -/
  checksumSeen : Bool
  checksumData : Bytes
  /-- The application entry was seen. -/
  appSeen : Bool
  /-- The manifest entry was seen. -/
  packageManifestSeen : Bool
  /-- A data digest is computed. -/
  dataDigest : Bool
  /-- The installed data is another one. -/
  dataInstallNeeded : Bool
  /-- The data directory has been emptied. -/
  dataCleared : Bool
  /-- The file that is open. -/
  outFile : Option Bytes
  /-- The packed contents read so far. -/
  pixaData : Bytes

/-- The view of the variables. -/
def viewOf (state : TarState) : InstallView where
  checksumSeen := state.checksumSeen
  checksumData := state.checksumData
  appSeen := state.appSeen
  packageManifestSeen := state.packageManifestSeen
  dataDigest := state.dataDigest
  dataInstallNeeded := state.dataInstallNeeded
  dataCleared := state.dataCleared
  outFile := state.outFile
  pixaData := state.pixaData

/-- Files by their paths. -/
abbrev Tree : Type := Bytes → Option Bytes

/-- A path of the data tree: inside the root, and not the file that names the tree. -/
def InTree (path : Bytes) : Prop :=
  Below options.dataRoot path ∧ path ≠ options.installedChecksumPath

/-- The data tree of a package with these entries. -/
def treeOf (entries : List (Entry × Bytes)) : Tree :=
  writeFiles (fun _ => none) ((dataFiles entries).flatMap (otaWrites options))

/-- The contents of the checksum entries. -/
def checksumOf (entries : List (Entry × Bytes)) : Bytes :=
  (entries.filter fun entry => entry.1.path = checksumPath).flatMap Prod.snd

/-- These files have this data tree. -/
def HasTree (files tree : Tree) : Prop :=
  ∀ path, InTree options path → files path = tree path

/-- If the installed checksum is that of a package, the data tree is that of the package. The
catalog has the tree of each package under its checksum. -/
def Identified (catalog : Bytes → Option Tree) (files : Tree) : Prop :=
  ∀ checksum tree, files options.installedChecksumPath = some checksum →
    catalog checksum = some tree → HasTree options files tree

/-- A package is in the catalog under its checksum, and no other tree is under a front of it. -/
def Listed (catalog : Bytes → Option Tree) (checksum : Bytes)
    (entries : List (Entry × Bytes)) : Prop :=
  ∀ part tree, part <+: checksum → catalog part = some tree →
    HasTree options tree (treeOf options entries)

/-- The tree and its name are as before. -/
structure Unchanged (before after : Tree) : Prop where
  name : after options.installedChecksumPath = before options.installedChecksumPath
  tree : HasTree options after before

theorem Unchanged.refl (files : Tree) : Unchanged options files files :=
  ⟨rfl, fun _ _ => rfl⟩

/-- Emptying the data directory takes the name away first: wherever it ends, the name is gone or
nothing has changed, and where it returns, the tree is gone too. -/
def Retires (clear : Routine Storage Unit) (store : Storage) : Prop :=
  Ensures Answer.Honest clear
    (fun _ after => after.files options.installedChecksumPath = none ∧
      HasTree options after.files fun _ => none)
    (fun _ after => after.files options.installedChecksumPath = none ∨
      Unchanged options store.files after.files)
    (fun after => after.files options.installedChecksumPath = none ∨
      Unchanged options store.files after.files) store

/-- No data entry of a stream, and nothing the unpacker writes, is at the path of the name. -/
structure Apart (stream : Bytes) : Prop where
  /-- No data entry has the path of the name. -/
  entries : ∀ {front block : Bytes} {zeros : Nat} {done : List (Entry × Bytes)} {entry : Entry},
    Wrote front zeros done → zeros < 2 → HeaderBlock block entry → front ++ block <+: stream →
    isDataPath entry.path = true →
    joined options.dataRoot (entry.path.drop (ascii "data/").length) ≠ options.installedChecksumPath
  /-- Nothing is unpacked to that path. -/
  unpacked : ∀ packed destination, ∀ file ∈ (options.pixa.extract packed destination).1,
    file.1 ≠ options.installedChecksumPath

/-- An application writer changes no file. -/
def WritesNoFile : Prop :=
  ∀ writer, options.appWriter = some writer → ∀ files : Tree,
    writer.Keeps fun store => store.files = files

theorem identified_unnamed {options : InstallOptions} {catalog : Bytes → Option Tree} {files : Tree}
    (unnamed : files options.installedChecksumPath = none) : Identified options catalog files := by
  intro checksum tree named
  cases unnamed.symm.trans named

theorem Identified.unchanged {options : InstallOptions} {catalog : Bytes → Option Tree}
    {before after : Tree} (identified : Identified options catalog before)
    (same : Unchanged options before after) : Identified options catalog after := by
  intro checksum tree named listed path inside
  rw [same.tree path inside]
  exact identified checksum tree (same.name.symm.trans named) listed path inside

/-- Only the root and the path of the name matter to how a directory is emptied. -/
theorem Retires.moved {options other : InstallOptions} {clear : Routine Storage Unit}
    {store : Storage} (root : other.dataRoot = options.dataRoot)
    (path : other.installedChecksumPath = options.installedChecksumPath)
    (retires : Retires options clear store) : Retires other clear store := by
  have inside : ∀ place, InTree other place → InTree options place := by
    intro place
    unfold InTree
    rw [root, path]
    exact id
  have same : ∀ {after : Storage}, after.files options.installedChecksumPath = none ∨
      Unchanged options store.files after.files →
      after.files other.installedChecksumPath = none ∨ Unchanged other store.files after.files := by
    rintro after (unnamed | same)
    · exact .inl (path ▸ unnamed)
    · exact .inr ⟨path ▸ same.name, fun place within => same.tree place (inside place within)⟩
  refine retires.mono (fun _ after ended => ?_) (fun _ _ => same) fun _ => same
  exact ⟨path ▸ ended.1, fun place within => ended.2 place (inside place within)⟩

/-- A run of one of the installers: what it installs into, the trees that have names, the storage
it starts from, the name that a data member has of its own and the stream it reads. -/
structure TreeRun where
  options : InstallOptions
  /-- The tree of each package under its checksum. -/
  catalog : Bytes → Option Tree
  /-- The storage before the first entry. -/
  start : Storage
  /-- Whether it is the install of a data member. -/
  digests : Bool
  /-- The name of the data member. -/
  name : Bytes
  /-- The decompressed stream. -/
  stream : Bytes

namespace TreeRun

variable (run : TreeRun)

/-- The name of the tree of these entries. -/
def nameOf (done : List (Entry × Bytes)) : Bytes :=
  if run.digests then run.name else checksumOf done

/-- The tree is named as it should be. -/
def Good (files : Tree) : Prop := Identified run.options run.catalog files

/-- What a run needs of its surroundings. -/
structure Sound : Prop where
  identified : run.Good run.start.files
  apart : Apart run.options run.stream
  writer : WritesNoFile run.options
  /-- The data directory can be emptied, and loses its name first. -/
  clears : ∃ clear, run.options.clearData = some clear ∧ ∀ store,
    Unchanged run.options run.start.files store.files → Retires run.options clear store
  unchecked : run.options.manifest = none
  layout : run.options.otaLayout = true

/-- The installer is between entries. -/
structure Stands (done : List (Entry × Bytes)) (view : InstallView) (files : Tree) : Prop where
  early : view.checksumSeen = false → dataFiles done = [] ∧ view.dataInstallNeeded = false
  /-- Until the directory is emptied, nothing has changed. -/
  waiting : view.dataCleared = false → Unchanged run.options run.start.files files ∧
    (view.dataInstallNeeded = true → dataFiles done = [])
  /-- From then on the tree has no name, and it is the one of the entries so far. -/
  cleared : view.dataCleared = true → view.dataInstallNeeded = true ∧
    files run.options.installedChecksumPath = none ∧
    HasTree run.options files (treeOf run.options done)
  sum : view.dataDigest = run.digests ∧ view.checksumData = run.nameOf done

variable {run} {done : List (Entry × Bytes)} {entry : Entry} {content : Bytes} {view : InstallView}
  {files : Tree}

theorem Stands.good (sound : run.Sound) (stands : run.Stands done view files) : run.Good files := by
  cases cleared : view.dataCleared with
  | true => exact identified_unnamed (stands.cleared cleared).2.1
  | false => exact sound.identified.unchanged (stands.waiting cleared).1

theorem treeOf_append_other (other : dataFiles [(entry, content)] = []) :
    treeOf run.options (done ++ [(entry, content)]) = treeOf run.options done := by
  unfold treeOf
  rw [dataFiles_append, other, List.append_nil]

theorem treeOf_append_file (data : isDataPath entry.path = true) (file : entry.kind = .file) :
    treeOf run.options (done ++ [(entry, content)]) =
      writeFiles (treeOf run.options done) (otaWrites run.options (entry.path, content)) := by
  unfold treeOf
  rw [dataFiles_append, dataFiles_file content file data]
  simp [writeFiles]

theorem checksumOf_other (other : entry.path ≠ checksumPath) :
    checksumOf (done ++ [(entry, content)]) = checksumOf done := by
  simp [checksumOf, other]

theorem nameOf_other (other : entry.path ≠ checksumPath) :
    run.nameOf (done ++ [(entry, content)]) = run.nameOf done := by
  unfold nameOf
  rw [checksumOf_other other]

theorem Stands.pass (stands : run.Stands done view files) (other : entry.path ≠ checksumPath)
    (idle : dataFiles [(entry, content)] = [] ∨
      (view.checksumSeen = true ∧ view.dataInstallNeeded = false)) {manifest app : Bool} :
    run.Stands (done ++ [(entry, content)])
      { view with packageManifestSeen := manifest, appSeen := app } files := by
  have same : view.dataInstallNeeded = true ∨ view.checksumSeen = false →
      dataFiles [(entry, content)] = [] := by
    rintro (needed | unseen)
    · exact idle.resolve_right fun idle => absurd (idle.2.symm.trans needed) nofun
    · exact idle.resolve_right fun idle => absurd (idle.1.symm.trans unseen) nofun
  refine ⟨fun unseen => ?_, fun uncleared => ?_, fun cleared => ?_, ?_⟩
  · refine ⟨?_, (stands.early unseen).2⟩
    rw [dataFiles_append, (stands.early unseen).1, same (.inr unseen)]
    rfl
  · refine ⟨(stands.waiting uncleared).1, fun needed => ?_⟩
    rw [dataFiles_append, (stands.waiting uncleared).2 needed, same (.inl needed)]
    rfl
  · obtain ⟨needed, unnamed, tree⟩ := stands.cleared cleared
    refine ⟨needed, unnamed, ?_⟩
    rw [treeOf_append_other (same (.inl needed))]
    exact tree
  · rw [nameOf_other other]
    exact stands.sum

/-- The installer is inside a data file, which goes into the tree. -/
structure Fills (run : TreeRun) (done : List (Entry × Bytes)) (entry : Entry) (state : TarState)
    (files : Tree) : Prop where
  path : isDataPath entry.path = true
  kind : entry.kind = .file
  output : state.output = .fs
  /-- The file keeps its suffix when it is installed. -/
  suffix : pathHasSuffix state.entry.path InstallOptions.pixaSuffix =
    pathHasSuffix entry.path InstallOptions.pixaSuffix
  /-- Where it goes. -/
  destination : state.dstPath = joined run.options.dataRoot (entry.path.drop (ascii "data/").length)
  apart : state.dstPath ≠ run.options.installedChecksumPath
  seen : state.checksumSeen = true
  replaces : state.dataInstallNeeded = true
  emptied : state.dataCleared = true
  sum : state.dataDigest = run.digests ∧ state.checksumData = run.nameOf done
  unnamed : files run.options.installedChecksumPath = none

theorem Fills.past {state : TarState} (fills : run.Fills done entry state files)
    {opened : Option Bytes} {packed : Bytes} {after : Tree}
    (unnamed : after run.options.installedChecksumPath = none)
    (tree : HasTree run.options after (treeOf run.options (done ++ [(entry, content)]))) :
    run.Stands (done ++ [(entry, content)])
      { viewOf state with outFile := opened, pixaData := packed } after := by
  have other : entry.path ≠ checksumPath := by
    intro same
    have data := fills.path
    rw [same] at data
    exact absurd data (by decide)
  refine ⟨fun unseen => absurd (fills.seen.symm.trans unseen) nofun,
    fun uncleared => absurd (fills.emptied.symm.trans uncleared) nofun,
    fun _ => ⟨fills.replaces, unnamed, tree⟩, ?_⟩
  rw [nameOf_other other]
  exact fills.sum

/-- The installer has taken the first contents of an entry. -/
inductive Takes (run : TreeRun) (done : List (Entry × Bytes)) (entry : Entry) (got : Bytes)
    (state : TarState) (files : Tree) : Prop where
  /-- They do not go into the tree. -/
  | pass (output : state.output = .skip ∨ state.output = .app)
    (stands : run.Stands done (viewOf state) files)
    (past : ∀ content, run.Stands (done ++ [(entry, content)]) (viewOf state) files)
  /-- They are the checksum. -/
  | checksum (output : state.output = .checksum) (path : entry.path = checksumPath)
    (undigested : run.digests = false)
    (stands : run.Stands done { viewOf state with checksumData := checksumOf done } files)
    (taken : state.checksumData = checksumOf done ++ got)
  /-- They are a data file. -/
  | file (fills : run.Fills done entry state files)
    (plain : pathHasSuffix entry.path InstallOptions.pixaSuffix = false)
    (opened : state.outFile = some state.dstPath) (present : files state.dstPath = some got)
    (tree : HasTree run.options files
      (Function.update (treeOf run.options done) state.dstPath (some got)))
  /-- They are a packed data file. -/
  | packed (fills : run.Fills done entry state files)
    (packed : pathHasSuffix entry.path InstallOptions.pixaSuffix = true)
    (taken : state.pixaData = got)
    (tree : HasTree run.options files (treeOf run.options done))

variable {state : TarState} {got : Bytes} {store : Storage} {α : Type}
  {onReturn : α → TarState × Storage → Prop}

/-- Neither where the state machine stands nor what goes into the data digest matters to an
entry. -/
theorem Takes.congr {later : TarState} (takes : run.Takes done entry got state files)
    (same : (viewOf later, later.output, later.entry, later.dstPath) =
      (viewOf state, state.output, state.entry, state.dstPath)) :
    run.Takes done entry got later files := by
  cases later
  cases state
  obtain ⟨⟨rfl, rfl, rfl, rfl, rfl, rfl, rfl, rfl, rfl⟩, rfl, rfl, rfl⟩ := same
  cases takes with
  | pass output stands past => exact .pass output stands past
  | checksum output path undigested stands taken =>
    exact .checksum output path undigested stands taken
  | file fills plain opened present tree => exact .file { fills with } plain opened present tree
  | packed fills packed taken tree => exact .packed { fills with } packed taken tree

theorem Takes.good (sound : run.Sound) (takes : run.Takes done entry got state files) :
    run.Good files := by
  cases takes with
  | pass _ stands _ | checksum _ _ _ stands _ => exact stands.good sound
  | file fills _ _ _ _ | packed fills _ _ _ => exact identified_unnamed fills.unnamed

/-- The routine ends well: it returns as required, or the files are named as they should be. -/
def EndsWell (run : TreeRun) (body : InstallRoutine α)
    (onReturn : α → TarState × Storage → Prop) (state : TarState × Storage) : Prop :=
  Ensures Answer.Honest body onReturn (fun _ after => run.Good after.2.files)
    (fun after => run.Good after.2.files) state

theorem endsWell_spared {body : Routine Storage α} (spared : Leaves Storage.files body)
    (good : run.Good store.files)
    (returns : ∀ value after, after.files = store.files → onReturn value (state, after)) :
    run.EndsWell (onStore body) onReturn (state, store) := by
  have still : ∀ after : Storage, after.files = store.files → run.Good after.files := by
    intro after same
    rw [same]
    exact good
  exact .on (.leaving spared (.trivially returns (fun _ => still) still))

/-- The same call, with its result code replaced. -/
theorem endsWell_mapFs {body : InstallRoutine α}
    (ended : run.EndsWell body onReturn (state, store)) :
    run.EndsWell (mapFs body) onReturn (state, store) :=
  .recovering (ended.mono (fun _ _ => id) (fun _ _ good => .fail good) fun _ => id)

theorem endsWell_cleanup {body : InstallRoutine α} {change : TarState → TarState}
    (ended : run.EndsWell body (fun value after => onReturn value (change after.1, after.2))
      (state, store)) :
    run.EndsWell (body.withCleanup (assign change)) onReturn (state, store) :=
  .withCleanup (ended.mono (fun _ _ returned => .update returned)
    (fun _ _ good => .update good) fun _ => id)

end TreeRun

end Gizos.Loader
