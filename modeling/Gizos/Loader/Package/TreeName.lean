import Gizos.Loader.Package.TreeHooks

/-! # A replaced tree is named last

Both installers, followed through whatever stream they are given: wherever they end, the files are
named as they should be. The one for segmented packages takes the old name away by itself. The one
for OTA archives leaves that to the caller's way of emptying the directory.
-/
namespace Gizos.Loader

open Fault Pal Gizos.Bundle TreeRun

variable {store : Storage} {children : List Bytes}

/-- The decompressed bytes of an archive, or of a member of a package. -/
def inflated (zlib : InflateApi) (packed : Bytes) : Bytes :=
  (zlib.run InstallOptions.ioBufSize packed).1.flatten

namespace TreeRun

variable {run : TreeRun} {bytes : Bytes} {entries : List (Entry × Bytes)} {state : TarState}
  {store : Storage}

/-- An install, as a reader of its stream. -/
def treeReader (sound : run.Sound) : Reader run.options where
  admits := Answer.Honest
  allowed bytes := bytes <+: run.stream
  between done state := run.Stands done (viewOf state.1) state.2.files
  during done entry got state := run.Takes done entry got state.1 state.2.files
  bad state := run.Good state.2.files
  front allowed := (List.prefix_append _ _).trans allowed
  releases good := endsWell_release sound good
  calls := by
    rintro ⟨state, store⟩ holds
    have good : run.Good store.files := by
      rcases holds with ⟨done, stands⟩ | ⟨done, entry, got, takes⟩
      · exact stands.good sound
      · exact takes.good sound
    exact .on (ensures_probe rfl (fun _ _ => good) good)
  refuses _ _ _ _ _ stands := stands.good sound
  unclean stands _ := stands.good sound
  start := by
    intro bytes block zeros done entry state store wrote few header allowed stands
    have safe := tarParseHeader_safe header.parsed
    have stands : run.Stands done (viewOf state) store.files := stands
    refine (endsWell_startEntry sound stands safe.1 safe.2
      (sound.apart.entries wrote few header allowed)).imp ?_
    rintro _ later ⟨past, takes⟩
    exact ⟨past, fun filled => (takes filled).congr rfl⟩
  put := by
    intro done entry got data state store takes _ _
    have takes : run.Takes done entry got state store.files :=
      takes.congr rfl
    unfold TarState.hashing
    split
    · exact takes.put sound data _
    · exact takes.put sound data state.hashed
  finish := by
    intro bytes block content zeros done entry state store _ _ _ _ takes _ _
    have takes : run.Takes done entry content state store.files :=
      takes.congr rfl
    exact takes.finish sound

theorem good_of_fed (sound : run.Sound) {state : TarState × Storage}
    (fed : (treeReader sound).Fed bytes state) : run.Good state.2.files := by
  cases fed with
  | header _ _ _ _ _ _ stands | padding _ _ _ _ _ _ _ _ _ stands | finished _ _ _ _ stands =>
    exact Stands.good sound stands
  | content _ _ _ _ _ _ _ _ takes => exact Takes.good sound takes

/-- A complete tree may be given its name, and any front of it. -/
theorem good_named {checksum part : Bytes}
    (listed : Listed run.options run.catalog checksum entries)
    (tree : HasTree run.options store.files (treeOf run.options entries))
    (front : part <+: checksum) :
    run.Good (Function.update store.files run.options.installedChecksumPath (some part)) := by
  intro name named present found path inside
  rw [Function.update_self, Option.some.injEq] at present
  subst present
  rw [Function.update_of_ne inside.2, tree path inside]
  exact (listed part named front found path inside).symm

theorem endsWell_finish (sound : run.Sound) {state : TarState × Storage}
    (fed : (treeReader sound).Fed bytes state)
    (listed : ∀ entries, Contents (bytes ++ List.replicate 512 0) entries →
      Listed run.options run.catalog (run.nameOf entries) entries) :
    run.EndsWell run.options.finish (fun _ after => run.Good after.2.files) state := by
  have good := good_of_fed sound fed
  obtain ⟨state, store⟩ := state
  refine .bind (.read ?_)
  split
  · exact @Reader.ensures_giveUp _ (treeReader sound) _ _ _ _ good
  refine .bind (.require (fun place => .bind (.require (fun zeros =>
    .bind ?_) fun _ => good)) fun _ => good)
  obtain ⟨entries, stands, contents⟩ := fed.ended place.1 place.2 zeros.1
  have stands : run.Stands entries (viewOf state) store.files := stands
  have listed : Listed run.options run.catalog state.checksumData entries := by
    have sum : state.checksumData = run.nameOf entries := stands.sum.2
    rw [sum]
    exact listed entries contents
  have unmarked : ∀ {after : TarState × Storage}, run.Good after.2.files →
      run.EndsWell (Program.require (run.options.manifest = none ∨ state.manifestSeen.all id)
        errManifest) (fun _ after => run.Good after.2.files) after :=
    fun good => .require (fun _ => good) fun _ => good
  rw [sound.layout]
  refine .bind (.require (fun _ => ?_) fun _ => good)
  split
  · rename_i installs
    refine .bind ((endsWell_ensureDataCleared sound stands installs.2).imp ?_)
    rintro _ ⟨later, under⟩ ⟨rfl, unnamed, tree⟩
    have cut : ∀ {after : Storage}, after.files = under.files ∨
        Part run.options.installedChecksumPath state.checksumData under after →
        run.Good after.files := by
      rintro after (same | ⟨part, front, files⟩)
      · exact identified_unnamed (by rw [same]; exact unnamed)
      · rw [files]
        exact good_named listed tree front
    refine endsWell_mapFs (.on ((ensures_fsWriteFile _ _).mono ?_ (fun _ _ => cut) fun _ => cut))
    exact fun _ after written => unmarked (cut (.inr ⟨_, List.prefix_rfl, written⟩))
  · exact .pure (unmarked good)

/-- The pieces of a data member are fed one after the other. -/
theorem endsWell_inflatePieces (sound : run.Sound) {pieces : List Bytes} {size produced : Nat}
    {state : TarState × Storage} (fed : (treeReader sound).Fed bytes state)
    (allowed : bytes ++ pieces.flatten <+: run.stream) :
    run.EndsWell (inflatePieces run.options.feed size pieces produced)
      (fun _ => (treeReader sound).Fed (bytes ++ pieces.flatten)) state := by
  induction pieces generalizing bytes produced state with
  | nil => exact .pure ((List.append_nil bytes).symm ▸ fed)
  | cons piece rest ih =>
    have good := good_of_fed sound fed
    rw [List.flatten_cons, ← List.append_assoc] at allowed ⊢
    refine .bind (ensures_probe (.bind (.require (fun _ => .bind ?_)
      fun _ => good)) (fun _ _ => good) good)
    unfold writePiece
    split
    · rename_i empty
      rw [empty, List.append_nil] at allowed ⊢
      exact .pure (ih fed allowed)
    · exact (fed.feed ((treeReader sound).front allowed)).imp fun _ _ later => ih later allowed

theorem endsWell_segmentedInflate (sound : run.Sound) {zlib : InflateApi} {package : Bytes}
    {segment : Segment} {state : TarState × Storage} (fed : (treeReader sound).Fed [] state)
    (stream : run.stream = inflated zlib (field package segment.offset segment.compressedSize)) :
    run.EndsWell (segmentedInflate zlib package segment run.options.feed)
      (fun _ => (treeReader sound).Fed run.stream) state := by
  have good := good_of_fed sound fed
  refine .bind (.require (fun _ => .bind
    ((endsWell_inflatePieces sound fed ?_).imp ?_)) fun _ => good)
  · rw [stream]
    exact List.prefix_rfl
  intro produced later fed
  have good := good_of_fed sound fed
  rw [stream]
  unfold endMember
  split
  · exact .bind (.require (fun _ => .require (fun _ => fed) fun _ => good) fun _ => good)
  · exact .fail good
  · exact .fail good

end TreeRun

/-- A stream with a package that the catalog has under its name, and with nothing at the path of
the name. -/
structure Carries (options : InstallOptions) (catalog : Bytes → Option Tree)
    (nameOf : List (Entry × Bytes) → Bytes) (stream : Bytes) : Prop where
  apart : Apart options stream
  /-- What the stream has entries of is in the catalog. A zero block may be missing at the end. -/
  listed : ∀ entries, Contents (stream ++ List.replicate 512 0) entries →
    Listed options catalog (nameOf entries) entries

section Installs

variable {options : InstallOptions} {catalog : Bytes → Option Tree} {zlib : InflateApi}
  {start : Storage}

/-- An OTA archive, where the directory loses its name first when it is emptied. -/
theorem identified_installOta (identified : Identified options catalog start.files)
    (writer : WritesNoFile options) {clear : Routine Storage Unit}
    (chosen : options.clearData = some clear) (retires : ∀ store : Storage,
      Unchanged options start.files store.files → Retires options clear store)
    {archivePath : Bytes} (carries : ∀ archive, start.files archivePath = some archive →
      Carries options catalog checksumOf (inflated zlib archive)) :
    Always Answer.Honest (options.installOta zlib archivePath)
      (fun after => Identified options catalog after.files) start := by
  refine .bind (.bind (.pure (.bind (.recovering
    (ensures_lookup (fun archive found => ?_) (fun _ _ => .fail identified) identified)))))
  let run : TreeRun := ⟨options.forOta, catalog, start, false, [], inflated zlib archive⟩
  have carries := carries archive found
  have sound : run.Sound := ⟨identified, ⟨carries.apart.entries, carries.apart.unpacked⟩, writer,
    ⟨clear, chosen, fun store same =>
      (retires store { same with }).moved (by rfl) (by rfl)⟩, rfl, rfl⟩
  have fed : (TreeRun.treeReader sound).Fed [] ({}, start) := by
    refine Reader.fed_start rfl ⟨false, rfl⟩ ⟨fun _ => ⟨rfl, rfl⟩,
      fun _ => ⟨.refl _ _, nofun⟩, nofun, rfl, rfl⟩
  refine .withLocals (.bind ((fed.feedPieces List.prefix_rfl).imp ?_))
  intro _ state fed
  refine .bind ?_
  unfold InstallOptions.endStream
  split
  · refine .pure (.bind (fed.readCall.imp fun _ state fed => ?_))
    exact (endsWell_finish sound fed carries.listed).imp fun _ _ good => .pure good
  · exact @Reader.ensures_giveUp _ (TreeRun.treeReader sound) _ _ _ _ (good_of_fed sound fed)
  · exact @Reader.ensures_giveUp _ (TreeRun.treeReader sound) _ _ _ _ (good_of_fed sound fed)

/-- A data member, which is installed after its old name has been removed. -/
theorem identified_installDataZlib (identified : Identified options catalog start.files)
    (retires : ∀ clear, options.clearData = some clear → ∀ store : Storage,
      store.files options.installedChecksumPath = none →
      HasTree options store.files start.files → Retires options clear store)
    {digest : DigestApi} {package : Bytes} {manifest : SegmentedManifest}
    (carries : Carries options catalog (fun _ => manifest.dataSha256 ++ [10])
      (inflated zlib (field package manifest.data.offset manifest.data.compressedSize))) :
    Always Answer.Honest (installDataZlib options zlib digest package manifest)
      (fun after => Identified options catalog after.files) start := by
  have removed : ∀ {after : Storage},
      after.files = Function.update start.files options.installedChecksumPath none →
      after.files options.installedChecksumPath = none := by
    intro after files
    rw [files, Function.update_self]
  have cut : ∀ {after : Storage}, after.files = start.files ∨
      after.files = Function.update start.files options.installedChecksumPath none →
      Identified options catalog after.files := by
    rintro after (same | files)
    · rw [same]
      exact identified
    · exact identified_unnamed (removed files)
  refine .bind (.require (fun given => .bind
    ((ensures_fsRemoveOptional _).mono ?_ (fun _ _ => cut) fun _ => cut)) fun _ => identified)
  intro _ begun files
  obtain ⟨clear, chosen⟩ := Option.isSome_iff_exists.mp given.1
  let run : TreeRun := ⟨options.forData, catalog, begun, true, manifest.dataSha256 ++ [10],
    inflated zlib (field package manifest.data.offset manifest.data.compressedSize)⟩
  have sound : run.Sound := by
    refine ⟨cut (.inr files), ⟨carries.apart.entries, carries.apart.unpacked⟩, nofun,
      ⟨clear, chosen, fun store same =>
        (retires clear chosen store ?_ fun path inside => ?_).moved (by rfl) (by rfl)⟩, rfl, rfl⟩
    · exact same.name.trans (removed files)
    · refine (same.tree path inside).trans ?_
      rw [files, Function.update_of_ne inside.2]
  have fed : (TreeRun.treeReader sound).Fed [] (TarState.forData manifest, begun) :=
    Reader.fed_start rfl ⟨true, rfl⟩ ⟨nofun, fun _ => ⟨.refl _ _, fun _ => rfl⟩, nofun, rfl, rfl⟩
  -- Whatever becomes of the install, the buffers are released at its end.
  have releases : ∀ {after : TarState × Storage}, run.Good after.2.files →
      run.EndsWell options.forData.releaseEntryBuffers (fun _ later => run.Good later.2.files)
        after := fun good => endsWell_release sound good
  refine .withLocals (.withCleanup (.mono ?_ (fun _ _ => releases)
    (fun _ _ => releases) fun _ => id))
  refine .bind (fed.call.imp ?_)
  rintro _ _ rfl
  refine .bind ((endsWell_segmentedInflate sound fed rfl).imp fun _ later fed => ?_)
  refine .bind (fed.call.imp ?_)
  rintro _ _ rfl
  refine .bind (.bind (.read (.require (fun _ => ?_) fun _ => good_of_fed sound fed)))
  exact endsWell_finish sound fed carries.listed

/-- `clear_dir_children`, for a directory that lists these files: they are removed one after the
other. -/
def clearDirChildren : List Bytes → Routine Storage Unit
  | [] => pure ()
  | child :: rest => do
    fsRemoveOptional child
    clearDirChildren rest

/-- The files are gone at the end, and none comes back before. -/
theorem ensures_clearDirChildren (children : List Bytes) :
    Ensures Answer.Honest (clearDirChildren children)
      (fun _ after => ∀ path, after.files path = if path ∈ children then none else store.files path)
      (fun _ after => ∀ path, store.files path = none → after.files path = none)
      (fun after => ∀ path, store.files path = none → after.files path = none) store := by
  induction children generalizing store with
  | nil => exact .pure fun path => by simp
  | cons child rest ih =>
    have cut : ∀ {after : Storage}, after.files = store.files ∨
        after.files = Function.update store.files child none →
        ∀ path, store.files path = none → after.files path = none := by
      rintro after (same | removed) path missing
      · rw [same]
        exact missing
      · rw [removed, Function.update_apply]
        split
        · rfl
        · exact missing
    refine .bind ((ensures_fsRemoveOptional child).mono ?_ (fun _ _ => cut) fun _ => cut)
    intro _ middle removed
    refine ih.mono ?_ ?_ ?_
    · intro _ after emptied path
      rw [emptied path, removed]
      by_cases here : path = child <;> simp [here]
    · exact fun _ after gone path missing => gone path (cut (.inr removed) path missing)
    · exact fun after gone path missing => gone path (cut (.inr removed) path missing)

/-- A tree without a name gets none when its files are removed. -/
theorem retires_unnamed (unnamed : store.files options.installedChecksumPath = none)
    (all : ∀ path, InTree options path → store.files path ≠ none → path ∈ children) :
    Retires options (clearDirChildren children) store := by
  refine (ensures_clearDirChildren children).mono ?_ (fun _ after gone => .inl (gone _ unnamed))
    fun after gone => .inl (gone _ unnamed)
  intro _ after emptied
  refine ⟨?_, fun path inside => ?_⟩
  · rw [emptied, unnamed, ite_self]
  · rw [emptied path]
    split
    · rfl
    · rename_i other
      by_contra present
      exact other (all path inside present)

/-- A directory that lists the name before its other files loses the name first. -/
theorem retires_clearDirChildren
    (all : ∀ path, InTree options path → store.files path ≠ none → path ∈ children) :
    Retires options (clearDirChildren (options.installedChecksumPath :: children)) store := by
  have cut : ∀ {after : Storage}, after.files = store.files ∨
      after.files = Function.update store.files options.installedChecksumPath none →
      after.files options.installedChecksumPath = none ∨
        Unchanged options store.files after.files := by
    rintro after (same | removed)
    · rw [same]
      exact .inr (.refl _ _)
    · rw [removed]
      exact .inl (Function.update_self ..)
  refine .bind ((ensures_fsRemoveOptional _).mono ?_ (fun _ _ => cut) fun _ => cut)
  intro _ middle removed
  have unnamed : middle.files options.installedChecksumPath = none := by
    rw [removed, Function.update_self]
  have still : ∀ {after : Storage}, after.files options.installedChecksumPath = none ∨
      Unchanged options middle.files after.files →
      after.files options.installedChecksumPath = none :=
    fun ended => ended.elim id fun same => same.name.trans unnamed
  refine (retires_unnamed unnamed fun path inside present => all path inside ?_).mono
    (fun _ _ => id) (fun _ _ ended => .inl (still ended)) fun _ ended =>
      .inl (still ended)
  rw [removed, Function.update_of_ne inside.2] at present
  exact present

end Installs

/-- Wherever an install ends, by a return, a failure or a reset, the installed checksum is that of
a package only if the data tree is the one of the package. For an OTA archive that takes a
directory which loses its name first when it is emptied. For a segmented package it is enough that
emptying the directory does not bring the name back. -/
theorem installed_checksum_names_tree (options : InstallOptions) (catalog : Bytes → Option Tree)
    (zlib : InflateApi) (start : Storage) (identified : Identified options catalog start.files) :
    (∀ clear archivePath after, WritesNoFile options → options.clearData = some clear →
      (∀ store : Storage, Unchanged options start.files store.files → Retires options clear store) →
      (∀ archive, start.files archivePath = some archive →
        Carries options catalog checksumOf (inflated zlib archive)) →
      Reaches Answer.Honest (options.installOta zlib archivePath) start after →
      Identified options catalog after.files) ∧
    ∀ digest package manifest after,
      (∀ clear, options.clearData = some clear → ∀ store : Storage,
        store.files options.installedChecksumPath = none →
        HasTree options store.files start.files → Retires options clear store) →
      Carries options catalog (fun _ => manifest.dataSha256 ++ [10])
        (inflated zlib (field package manifest.data.offset manifest.data.compressedSize)) →
      Reaches Answer.Honest (installDataZlib options zlib digest package manifest) start after →
      Identified options catalog after.files := by
  constructor
  · intro clear archivePath after writer chosen retires carries reaches
    exact (identified_installOta identified writer chosen retires carries).reached reaches
  · intro digest package manifest after retires carries reaches
    exact (identified_installDataZlib identified retires carries).reached reaches

/-- An install into the directory `d`, which lists these files. -/
def treeOptions (children : List Bytes) : InstallOptions where
  dataRoot := ascii "d"
  installedChecksumPath := ascii "d/c"
  appWriter := none
  clearData := some (clearDirChildren children)
  skipAppInstall := true
  skipDataInstall := false
  pixa := ⟨fun _ _ => ([], true)⟩
  crc32 := summedBytes

/-- A package with the checksum `n` and one data file. -/
def treePackage : Bytes :=
  fileArchive [(checksumPath, ascii "n"), (ascii "data/x", [7]), (ascii "app/f", [9])]

/-- A data member with the same file. -/
def treeMember : Bytes := fileArchive [(ascii "data/x", [7])]

/-- The manifest of a segmented package with this member. -/
def treeManifest : SegmentedManifest where
  role := []
  board := []
  target := []
  version := []
  imageSha256 := []
  dataSha256 := List.replicate 64 97
  dataBytes := 1
  pixaBytes := 0
  app := ⟨0, 0, 0, []⟩
  data := ⟨0, 2048, 2048, []⟩

/-- The installed data, with the checksum `o`: two files. -/
def oldTree : Tree :=
  Function.update (Function.update (fun _ => none) (ascii "d/x") (some [1]))
    (ascii "d/y") (some [2])

/-- The data of the new package. -/
def newTree : Tree := Function.update (fun _ => none) (ascii "d/x") (some [7])

/-- The checksums and their trees. -/
def treeCatalog (name : Bytes) : Option Tree :=
  if name = ascii "o" then some oldTree
  else if name = ascii "n" ∨ name = treeManifest.dataSha256 ++ [10] then some newTree else none

/-- The old tree with its name, and the new package at `a`. -/
def treeStart : Storage where
  files := Function.update (Function.update oldTree (ascii "d/c") (some (ascii "o"))) (ascii "a")
    (some treePackage)
  images := fun _ => []

/-- The directory `d` lists its files in this order. -/
def nameLast : List Bytes := [ascii "d/x", ascii "d/y", ascii "d/c"]

theorem treeStart_inside {path : Bytes} (inside : InTree (treeOptions children) path) :
    treeStart.files path = oldTree path := by
  obtain ⟨⟨relative, -, below⟩, other⟩ := inside
  have outside : path ≠ ascii "a" := by
    rintro rfl
    simp [treeOptions, joined, ascii] at below
  refine (Function.update_of_ne outside _ _).trans ?_
  exact Function.update_of_ne other _ _

theorem identified_treeStart (children : List Bytes) :
    Identified (treeOptions children) treeCatalog treeStart.files := by
  intro checksum tree named listed path inside
  have name : checksum = ascii "o" := by
    have present : treeStart.files (ascii "d/c") = some (ascii "o") := rfl
    exact Option.some.inj (named.symm.trans present)
  rw [name] at listed
  rw [treeStart_inside inside, Option.some.inj listed]

/-- A directory that lists its name last is cut when the first data file is gone: the name of the
old tree stays. -/
theorem cut_clear_keeps_name :
    Identified (treeOptions nameLast) treeCatalog treeStart.files ∧
      ∃ after, Reaches Answer.Honest
        ((treeOptions nameLast).installOta storedZlib (ascii "a")) treeStart after ∧
        ¬Identified (treeOptions nameLast) treeCatalog after.files := by
  refine ⟨identified_treeStart nameLast, _, ⟨resetAt 6, resetAt_honest 6, 0, rfl⟩, ?_⟩
  have named : ((treeOptions nameLast).installOta storedZlib (ascii "a") (resetAt 6) 0
      treeStart).state.files (ascii "d/c") = some (ascii "o") := by
    decide +kernel
  have gone : ((treeOptions nameLast).installOta storedZlib (ascii "a") (resetAt 6) 0
      treeStart).state.files (ascii "d/x") = none := by
    decide +kernel
  generalize ((treeOptions nameLast).installOta storedZlib (ascii "a") (resetAt 6) 0
    treeStart).state = after at named gone ⊢
  intro identified
  have inside : InTree (treeOptions nameLast) (ascii "d/x") :=
    ⟨⟨ascii "x", pathIsSafeRelative_iff.mp (by decide), rfl⟩, by decide⟩
  have present : oldTree (ascii "d/x") = some [1] := rfl
  have same := identified (ascii "o") oldTree named (if_pos rfl) _ inside
  cases gone.symm.trans (same.trans present)

theorem listed_newTree {entries : List (Entry × Bytes)} {name : Bytes}
    (data : dataFiles entries = [(ascii "data/x", [7])]) (other : ¬ascii "o" <+: name) :
    Listed (treeOptions children) treeCatalog name entries := by
  intro part tree front found path inside
  unfold treeOf
  rw [data]
  unfold treeCatalog at found
  split at found
  · rename_i old
    exact absurd (old ▸ front) other
  split at found
  · cases found
    rfl
  · cases found

/-- What has to be known of the entries of the new package. -/
def NewEntries (entries : List (Entry × Bytes)) : Prop :=
  dataFiles entries = [(ascii "data/x", [7])] ∧ ¬ascii "o" <+: checksumOf entries ∧
    ∀ entry ∈ entries, joined (ascii "d") (entry.1.path.drop (ascii "data/").length) ≠ ascii "d/c"

instance : DecidablePred NewEntries := fun _ => inferInstanceAs (Decidable (_ ∧ _ ∧ _))

theorem carries_newTree {nameOf : List (Entry × Bytes) → Bytes} {stream : Bytes}
    (new : (listEntries 8 0 (stream ++ List.replicate 512 0)).any
      (fun entries => NewEntries entries) = true)
    (other : ∀ entries, NewEntries entries → ¬ascii "o" <+: nameOf entries) :
    Carries (treeOptions children) treeCatalog nameOf stream := by
  obtain ⟨listed, found, -⟩ := (Option.any_eq_true _ _).mp new
  have contents := listEntries_contains (by decide) found
  refine ⟨⟨fun wrote few header front _ => ?_, nofun⟩, fun entries contents => ?_⟩
  · obtain ⟨content, member⟩ := Contents.member contents wrote few header
      (front.trans (List.prefix_append _ _))
    exact (Contents.known new contents).2.2 _ member
  · have known := Contents.known new contents
    exact listed_newTree known.1 (other entries known)

theorem oldTree_listed {path : Bytes} (present : oldTree path ≠ none) : path ∈ nameLast := by
  by_contra missing
  simp only [nameLast, List.mem_cons, not_or] at missing
  refine present ((Function.update_of_ne missing.2.1 _ _).trans ?_)
  exact Function.update_of_ne missing.1 _ _

/-- Both installs, cut at one of their calls. The directory has to lose its name first only where
the installer does not take it away. -/
theorem cut_installs_name_tree :
    Identified (treeOptions (ascii "d/c" :: nameLast)) treeCatalog
      ((treeOptions (ascii "d/c" :: nameLast)).installOta storedZlib (ascii "a") (resetAt 7) 0
        treeStart).state.files ∧
    Identified (treeOptions nameLast) treeCatalog
      (installDataZlib (treeOptions nameLast) storedZlib AcceptedPackage.sampleDigest treeMember
        treeManifest (resetAt 7) 0 treeStart).state.files := by
  have all : ∀ {children : List Bytes} {files : Tree} path, InTree (treeOptions children) path →
      files path = treeStart.files path → files path ≠ none → path ∈ nameLast := by
    intro children files path inside same present
    rw [same, treeStart_inside inside] at present
    exact oldTree_listed present
  constructor
  · refine (installed_checksum_names_tree _ treeCatalog storedZlib treeStart
      (identified_treeStart _)).1 _ (ascii "a") _ nofun rfl (fun store same => ?_)
      (fun archive found => ?_) ⟨resetAt 7, resetAt_honest 7, 0, rfl⟩
    · exact retires_clearDirChildren fun path inside => all path inside (same.tree path inside)
    · obtain rfl : treePackage = archive := Option.some.inj found
      have whole : inflated storedZlib treePackage = treePackage := List.flatten_singleton
      exact carries_newTree (by decide +kernel) fun entries new => new.2.1
  · refine (installed_checksum_names_tree _ treeCatalog storedZlib treeStart
      (identified_treeStart _)).2 _ _ _ _ ?_ ?_ ⟨resetAt 7, resetAt_honest 7, 0, rfl⟩
    · rintro clear chosen store unnamed same
      obtain rfl : clearDirChildren nameLast = clear := Option.some.inj chosen
      exact retires_unnamed unnamed fun path inside => all path inside (same path inside)
    · have whole : inflated storedZlib (field treeMember treeManifest.data.offset
          treeManifest.data.compressedSize) = treeMember := by decide +kernel
      exact carries_newTree (by decide +kernel) fun _ _ => by decide

end Gizos.Loader
