import Gizos.Bundle.Reading

/-! # What a manifest guarantees

An install with a manifest marks an entry of the manifest for each file of the archive, after it
has compared path, size and CRC-32, and it succeeds only if every entry is marked. So the files of
an archive that installs are those of the manifest, each of them once.
-/
namespace Gizos.Bundle

open Fault Pal InstallOptions

/-- The regular files of an archive. -/
def regularFiles (entries : List (Entry × Bytes)) : List (Entry × Bytes) :=
  entries.filter fun entry => entry.1.kind = .file

/-- Path, size and CRC-32 of a file. -/
def described (crc32 : Crc32Api) (file : Entry × Bytes) : Bytes × Nat × Except Int UInt32 :=
  (file.1.path, file.2.length, .ok (crc32.update 0 file.2))

/-- Path, size and CRC-32 of an entry of a manifest. -/
def ManifestEntry.recorded (entry : ManifestEntry) : Bytes × Nat × Except Int UInt32 :=
  (entry.path, entry.size.toNat, parseCrc32Hex entry.checksumHex)

/-- The entries of a manifest that are marked. -/
def markedEntries : List ManifestEntry → List Bool → List ManifestEntry
  | entry :: entries, mark :: marks =>
    if mark then entry :: markedEntries entries marks else markedEntries entries marks
  | _, _ => []

theorem markedEntries_none (entries : List ManifestEntry) :
    markedEntries entries (entries.map fun _ => false) = [] := by
  induction entries with
  | nil => rfl
  | cons entry entries ih => simpa [markedEntries] using ih

theorem markedEntries_all {entries : List ManifestEntry} {marks : List Bool}
    (size : marks.length = entries.length) (all : marks.all id = true) :
    markedEntries entries marks = entries := by
  induction entries generalizing marks with
  | nil => simp [markedEntries]
  | cons entry entries ih =>
    cases marks with
    | nil => cases size
    | cons mark marks =>
      rw [List.all_cons, Bool.and_eq_true] at all
      have marked : mark = true := all.1
      rw [markedEntries, if_pos marked, ih (Nat.succ.inj size) all.2]

theorem markedEntries_set {entries : List ManifestEntry} {marks : List Bool} {index : Nat}
    {entry : ManifestEntry} (size : marks.length = entries.length)
    (found : entries[index]? = some entry) (fresh : marks.getD index false = false) :
    (markedEntries entries (marks.set index true)).Perm (entry :: markedEntries entries marks) := by
  induction entries generalizing marks index with
  | nil => cases found
  | cons first entries ih =>
    cases marks with
    | nil => cases size
    | cons mark marks =>
      cases index with
      | zero =>
        cases found
        have clear : mark = false := fresh
        subst clear
        exact List.Perm.refl _
      | succ index =>
        have later := ih (Nat.succ.inj size) found fresh
        cases mark with
        | true => exact (later.cons first).trans (List.Perm.swap entry first _)
        | false => exact later

/-- The files read so far are those of the marked entries. -/
structure Checked (crc32 : Crc32Api) (manifest : BundleManifest)
    (entries : List (Entry × Bytes)) (state : TarState) : Prop where
  /-- There is a mark for each entry of the manifest. -/
  size : state.manifestSeen.length = manifest.entries.length
  /-- Files and marked entries agree. -/
  agrees : ((regularFiles entries).map (described crc32)).Perm
    ((markedEntries manifest.entries state.manifestSeen).map ManifestEntry.recorded)

/-- A file of the archive is being read. -/
structure Taking (crc32 : Crc32Api) (manifest : BundleManifest)
    (entries : List (Entry × Bytes)) (entry : Entry) (got : Bytes) (state : TarState) :
    Prop extends Checked crc32 manifest entries state where
  hand : state.entry = entry
  file : entry.kind = .file
  output : state.output = .fs
  sum : state.entryCrc32 = crc32.update 0 got

variable {options : InstallOptions} {crc32 : Crc32Api} {manifest : BundleManifest}
  {entries : List (Entry × Bytes)}
  {entry : Entry} {content : Bytes}

theorem Checked.congr {state after : TarState} (checked : Checked crc32 manifest entries state)
    (same : after.manifestSeen = state.manifestSeen) : Checked crc32 manifest entries after :=
  ⟨same ▸ checked.size, same ▸ checked.agrees⟩

theorem Taking.congr {state after : TarState}
    (taking : Taking crc32 manifest entries entry content state)
    (same : (after.manifestSeen, after.entry, after.output, after.entryCrc32) =
      (state.manifestSeen, state.entry, state.output, state.entryCrc32)) :
    Taking crc32 manifest entries entry content after := by
  simp only [Prod.mk.injEq] at same
  exact ⟨taking.toChecked.congr same.1, same.2.1.trans taking.hand, taking.file,
    same.2.2.1.trans taking.output, same.2.2.2.trans taking.sum⟩

theorem Checked.skip {state : TarState} (checked : Checked crc32 manifest entries state)
    (directory : entry.kind = .dir) : Checked crc32 manifest (entries ++ [(entry, content)])
      state := by
  refine ⟨checked.size, ?_⟩
  have same : regularFiles (entries ++ [(entry, content)]) = regularFiles entries := by
    simp [regularFiles, List.filter_append, directory]
  rw [same]
  exact checked.agrees

theorem Taking.mark {state : TarState} {index : Nat} {line : ManifestEntry}
    (taking : Taking crc32 manifest entries entry content state)
    (whole : content.length = entry.size)
    (found : manifest.entries[index]? = some line) (path : line.path = entry.path)
    (verified : manifestVerifyCrc32 line entry.size state.entryCrc32 = .ok ())
    (fresh : state.manifestSeen.getD index false = false) :
    Checked crc32 manifest (entries ++ [(entry, content)])
      { state with manifestSeen := state.manifestSeen.set index true } := by
  obtain ⟨sized, summed⟩ := manifestVerifyCrc32_ok verified
  refine ⟨by simpa using taking.size, ?_⟩
  have files : (regularFiles (entries ++ [(entry, content)])).map (described crc32) =
      (regularFiles entries).map (described crc32) ++ [line.recorded] := by
    simp only [regularFiles, List.filter_append, List.map_append]
    simp [taking.file, described, ManifestEntry.recorded, path, sized, summed, whole, taking.sum]
  rw [files]
  have marked := (markedEntries_set taking.size found fresh).map ManifestEntry.recorded
  have agrees := taking.agrees.append_right [line.recorded]
  exact agrees.trans ((List.perm_append_singleton _ _).trans marked.symm)

section Hooks

variable {α γ : Type} {pre : TarState → Prop}

/-- Nothing is asked of a routine that gives up after it. -/
theorem guards_anything (body : InstallRoutine α) :
    Guards (fun _ : Storage => True) pre body fun _ _ => True := fun _ _ _ _ =>
  .trivially (fun _ _ => ⟨trivial, trivial⟩) (fun _ _ => trivial) fun _ => trivial

/-- A routine that leaves a view of the variables alone keeps what is about the view. -/
theorem guards_leaving {body : InstallRoutine α} (view : TarState → γ)
    (frame : Leaves (fun state : TarState × Storage => view state.1) body)
    (seen : ∀ before after, view after = view before → pre before → pre after) :
    Guards (fun _ : Storage => True) pre body fun _ => pre := fun _ _ holds _ =>
  .leaving frame (.trivially (fun _ _ same => ⟨seen _ _ same holds, trivial⟩)
    (fun _ _ _ => trivial) fun _ _ => trivial)

theorem guards_storage (body : Routine Storage α) :
    Guards (fun _ : Storage => True) pre (onStore body) fun _ => pre :=
  guards_onStore fun _ _ _ _ => trivial

namespace InstallOptions

theorem leaves_finishFile (state : TarState) :
    Leaves (fun state : TarState × Storage => state.1.manifestSeen) (options.finishFile state) := by
  unfold finishFile
  split
  · exact .recovering (.on fun _ _ => rfl) fun _ => .fail _
  · split
    · have called : Leaves (fun state : TarState × Storage => state.1.manifestSeen)
          (mapFs (onStore probe) : InstallRoutine Unit) :=
        .recovering (.on fun _ _ => rfl) fun _ => .fail _
      exact .bind called fun _ => .withCleanup called (.update fun _ => rfl)
    · exact .pure _

/-- Contents of a file that are taken go into its checksum. -/
theorem taking_put {got data : Bytes} {state : TarState} {store : Storage}
    (taking : Taking options.crc32 manifest entries entry got state) :
    Returns (fun _ => True) (options.putContent state data)
      (fun _ after => Taking options.crc32 manifest entries entry (got ++ data)
        (after.1.advance options.crc32 data)) (state.hashing data, store) := by
  refine .leaving (leaves_putContent
    (fun state => (state.manifestSeen, state.entry, state.output, state.entryCrc32))
    (fun _ _ => rfl) (fun _ _ => rfl) state data)
    (.trivially ?_ (fun _ _ _ => trivial) fun _ _ => trivial)
  rintro _ ⟨after, later⟩ same
  have unhashed : ((state.hashing data).manifestSeen, (state.hashing data).entry,
      (state.hashing data).output, (state.hashing data).entryCrc32) =
      (state.manifestSeen, state.entry, state.output, state.entryCrc32) := by
    unfold TarState.hashing
    split <;> rfl
  have taken : Taking options.crc32 manifest entries entry got after :=
    taking.congr (same.trans unhashed)
  refine ⟨taken.toChecked.congr rfl, taken.hand, taken.file, taken.output, ?_⟩
  change options.crc32.update after.entryCrc32 data = _
  rw [taken.sum, options.crc32.append]

/-- The files of a decompressed archive are those of a manifest. -/
def Matches (crc32 : Crc32Api) (manifest : BundleManifest) (stream : Bytes) : Prop :=
  ∃ entries, Contents (stream ++ List.replicate 512 0) entries ∧
    ((regularFiles entries).map (described crc32)).Perm
      (manifest.entries.map ManifestEntry.recorded)

variable (checks : options.manifest = some manifest)

include checks

theorem guards_verify (whole : content.length = entry.size) :
    Guards (fun _ : Storage => True) (Taking options.crc32 manifest entries entry content)
      options.verifyManifestEntry fun _ => Checked options.crc32 manifest
        (entries ++ [(entry, content)]) := by
  unfold verifyManifestEntry
  rw [checks]
  refine .bindExact fun state taking => ?_
  cases found : manifest.find state.entry.path with
  | none => exact .fail _
  | some index =>
    obtain ⟨line, listed, path⟩ := manifest.find_some found
    dsimp only
    rw [listed]
    refine .bindConclude fun _ verified => .bindExact fun seen same => ?_
    subst same
    have kept : seen.manifestSeen ≠ [] := by
      have bound := (List.getElem?_eq_some_iff.mp listed).1
      rw [← taking.size] at bound
      exact List.ne_nil_of_length_pos (by omega)
    rw [decide_eq_true kept]
    refine .bindRequire fun fresh => guards_assign ?_
    rintro _ rfl
    rw [taking.hand] at path verified
    exact taking.mark whole listed path verified fresh

theorem guards_fileOver (whole : content.length = entry.size) :
    Guards (fun _ : Storage => True) (Taking options.crc32 manifest entries entry content)
      options.finishFileEntry fun _ => Checked options.crc32 manifest
        (entries ++ [(entry, content)]) := by
  have hashed : Guards (fun _ : Storage => True)
    (Taking options.crc32 manifest entries entry content)
      (assign fun state =>
        if state.hashingDataEntry then
          { state with hashed := state.hashed ++ [0], hashingDataEntry := false }
        else state) fun _ => Taking options.crc32 manifest entries entry content := by
    refine guards_assign fun state taking => ?_
    split
    · exact taking.congr rfl
    · exact taking
  refine .bind hashed fun _ => .bindLocals fun state taking => ?_
  rw [taking.output]
  refine .bind (.recovering (guards_verify checks whole) fun code =>
    .bind (guards_anything _) fun _ => .fail _) fun _ => ?_
  exact .withCleanup (guards_leaving TarState.manifestSeen (leaves_finishFile state)
    fun _ _ same checked => checked.congr same)
    (fun _ => guards_assign fun _ checked => checked.congr rfl) (guards_anything _)

/-- A started entry is a file that is being read, or it is over. -/
theorem guards_fileStart (plain : entry.kind = .dir → entry.size = 0) (relative : Bytes) :
    Guards (fun _ : Storage => True)
      (fun state => Checked options.crc32 manifest entries state ∧ state.entry = entry ∧
        state.entryCrc32 = 0)
      (options.startInstalled entry relative) fun _ state =>
        (entry.size = 0 → Checked options.crc32 manifest (entries ++ [(entry, [])]) state) ∧
        (entry.size ≠ 0 → Taking options.crc32 manifest entries entry [] state) := by
  refine .bindConclude fun path _ => .bind (guards_stable fun state begun =>
    ⟨begun.1.congr rfl, begun.2⟩) fun _ => ?_
  cases kind : entry.kind with
  | dir =>
    exact .bind (guards_mapFs (guards_storage _)) fun _ => guards_assign fun state begun =>
      ⟨fun _ => (begun.1.skip kind).congr rfl, fun filled => absurd (plain kind) filled⟩
  | file =>
    have directed : Guards (fun _ : Storage => True)
        (fun state => Checked options.crc32 manifest entries state ∧ state.entry = entry ∧
          state.entryCrc32 = 0)
        (assign fun state => { state with output := .fs }) fun _ =>
          Taking options.crc32 manifest entries entry [] :=
      guards_assign fun state begun => ⟨begun.1.congr rfl, begun.2.1, kind, rfl,
        begun.2.2.trans options.crc32.initial.symm⟩
    have opened : Guards (fun _ : Storage => True) (Taking options.crc32 manifest entries entry [])
        (openOutFile entry path) fun _ => Taking options.crc32 manifest entries entry [] := by
      unfold openOutFile
      split
      · exact .pure fun _ taking => taking
      · exact .bind (guards_mapFs (guards_storage _)) fun _ =>
          guards_assign fun _ taking => taking.congr rfl
    refine .bind directed fun _ => .bind (guards_storage _) fun _ =>
      .bind opened fun _ => ?_
    unfold startContent
    split
    · rename_i empty
      exact (guards_fileOver checks (by rw [empty]; rfl)).mono (fun _ => id)
        fun _ _ checked => ⟨fun _ => checked, fun filled => absurd empty filled⟩
    · rename_i filled
      exact guards_assign fun _ taking =>
        ⟨fun empty => absurd empty filled, fun _ => taking.congr rfl⟩

/-- An install with a manifest, as a reader of its archive. -/
def manifestReader (bare : options.otaLayout = false) :
    Reader options where
  admits _ := True
  allowed _ := True
  between entries state := Checked options.crc32 manifest entries state.1
  during entries entry got state := Taking options.crc32 manifest entries entry got state.1
  bad _ := True
  front allowed := allowed
  releases _ := .trivially (fun _ _ => trivial) (fun _ _ => trivial) fun _ => trivial
  calls _ := .on (ensures_probe rfl (fun _ _ => trivial) trivial)
  refuses _ _ _ _ _ _ := trivial
  unclean _ _ := trivial
  start := by
    intro bytes block zeros entries entry state store _ _ header _ checked
    refine .bind (.update ?_)
    have begun : Checked options.crc32 manifest entries (enterEntry entry state) ∧
        (enterEntry entry state).entry = entry ∧ (enterEntry entry state).entryCrc32 = 0 :=
      ⟨checked.congr rfl, rfl, rfl⟩
    have unhashed : Guards (fun _ : Storage => True)
        (fun state => Checked options.crc32 manifest entries state ∧ state.entry = entry ∧
          state.entryCrc32 = 0)
        (hashDataEntry entry) fun _ state =>
          Checked options.crc32 manifest entries state ∧ state.entry = entry ∧
            state.entryCrc32 = 0 := by
      refine guards_leaving (fun state => (state.manifestSeen, state.entry, state.entryCrc32)) ?_ ?_
      · refine .bind (.read _) fun state => ?_
        split
        · refine .bind (.require _ _) fun _ => .bind (.require _ _) fun _ =>
            .bind (.update fun _ => rfl) fun _ => ?_
          split <;> exact .bind (.require _ _) fun _ => .update fun _ => rfl
        · exact .pure _
      · rintro before after same ⟨checked, hand, sum⟩
        simp only [Prod.mk.injEq] at same
        exact ⟨checked.congr same.1, same.2.1.trans hand, same.2.2.trans sum⟩
    have started := Guards.bind unhashed fun _ =>
      guards_fileStart checks (tarParseHeader_safe header.parsed).2 entry.path
    rw [bare]
    refine (started (enterEntry entry state) store begun trivial).imp ?_
    rintro _ after ⟨⟨past, going⟩, -⟩
    exact ⟨fun empty => (past empty).congr rfl, fun filled => (going filled).congr rfl⟩
  put := by
    intro entries entry got data state store taking _ _
    have taking : Taking options.crc32 manifest entries entry got state := taking.congr rfl
    exact (taking_put taking).imp fun _ after taken => taken.congr rfl
  finish := by
    intro bytes block content zeros entries entry state store _ _ _ _ taking whole _
    exact (guards_fileOver checks whole state store (taking.congr rfl) trivial).imp
      fun _ after ended => ended.1.congr rfl

/-- An archive that has been read to its end has the files of the manifest. -/
theorem ensures_checkedFinish (bare : options.otaLayout = false) {bytes : Bytes}
    {state : TarState × Storage} (fed : (manifestReader checks bare).Fed bytes state) :
    Returns (fun _ => True) options.finish (fun _ _ => Matches options.crc32 manifest bytes)
      state := by
  refine .bind (.read ?_)
  split
  · exact .after fun _ _ => .fail trivial
  refine .bind (.require (fun front => ?_) fun _ => trivial)
  refine .bind (.require (fun zeros => ?_) fun _ => trivial)
  rw [bare]
  refine .bind (.ret (.require (fun seen => ?_) fun _ => trivial))
  obtain ⟨entries, checked, contents⟩ := fed.ended front.1 front.2 zeros.1
  have all : state.1.manifestSeen.all id = true :=
    seen.resolve_left fun none => (nomatch checks.symm.trans none)
  have whole := markedEntries_all checked.size all
  exact ⟨entries, contents, whole ▸ checked.agrees⟩

theorem ensures_checkedStream
    (bare : options.otaLayout = false) (zlib : InflateApi) (archive : Bytes) (store : Storage) :
    Returns (fun _ => True) (options.installStream zlib archive)
      (fun _ _ => Matches options.crc32 manifest (zlib.run ioBufSize archive).1.flatten)
      ({ manifestSeen := options.marked.map fun _ => false }, store) := by
  have marked : options.marked = manifest.entries := by
    unfold marked
    rw [checks]
    rfl
  have fed : (manifestReader checks bare).Fed []
      ({ manifestSeen := options.marked.map fun _ => false }, store) := by
    refine Reader.fed_start rfl ⟨false, rfl⟩ ⟨?_, ?_⟩
    · simp [marked, TarState.payload]
    · simp only [TarState.payload, marked, markedEntries_none]
      simp [regularFiles]
  refine .bind ((fed.feedPieces trivial).imp fun _ state fed => .bind ?_)
  have rest : Returns (fun _ => True) (do
      (mapFs (onStore probe)).recovering options.giveUp
      options.finish)
      (fun _ _ => Matches options.crc32 manifest (zlib.run ioBufSize archive).1.flatten) state :=
    .bind (fed.readCall.imp fun _ _ fed => ensures_checkedFinish checks bare fed)
  cases (zlib.run ioBufSize archive).2 with
  | ended unused => exact .pure rest
  | truncated | corrupt => exact .after fun _ _ => .fail trivial

end InstallOptions

end Hooks

/-- An archive that a manifest-checked install succeeds on has exactly the regular files of the
manifest: each with the path, size and CRC-32 of its entry, none missing, extra or repeated. The
archive may end with a single zero block, so its entries are read with a second one behind it. -/
theorem manifest_install_exact (options : InstallOptions) (manifest : BundleManifest)
    (checks : options.manifest = some manifest) (bare : options.otaLayout = false)
    (zlib : InflateApi) (archivePath : Bytes) (answers : Nat → Answer) (time ended : Nat)
    (start after : Storage)
    (installed : options.install zlib archivePath answers time start = .returned () after ended) :
    ∃ archive entries, start.files archivePath = some archive ∧
      Contents ((zlib.run ioBufSize archive).1.flatten ++ List.replicate 512 0) entries ∧
      ((regularFiles entries).map (described options.crc32)).Perm
        (manifest.entries.map ManifestEntry.recorded) := by
  have ensured : Ensures (fun _ => True) (options.install zlib archivePath)
      (fun _ _ => ∃ archive, start.files archivePath = some archive ∧ InstallOptions.Matches
        options.crc32 manifest (zlib.run ioBufSize archive).1.flatten)
      (fun _ _ => True) (fun _ => True) start := by
    have quiet : Leaves id options.initManifestSeen := by
      unfold initManifestSeen
      split
      · exact .pure _
      · exact .recovering (leaves_probe id) fun _ => .fail _
    refine .bind (.bind (.quiet quiet (fun _ => .bind ?_) (fun _ => trivial) trivial))
    refine .recovering (ensures_lookup (fun archive found => ?_) (fun _ _ =>
      .fail trivial) trivial)
    refine .withLocals ((ensures_checkedStream checks bare zlib archive
      start).imp fun _ _ matched => ?_)
    exact .trivially (fun _ _ => ⟨archive, found, matched⟩) (fun _ _ => trivial) fun _ => trivial
  have ending := ensured answers (fun _ => trivial) time
  rw [installed] at ending
  obtain ⟨archive, found, entries, contents, agrees⟩ := ending
  exact ⟨archive, entries, found, contents, agrees⟩

/-- A manifest of two files. -/
def pairManifest : BundleManifest where
  version := none
  entries := [⟨ascii "x", ascii "00000001", 1⟩, ⟨ascii "y", ascii "00000005", 2⟩]

/-- Options that check an archive against that manifest. -/
def pairOptions (otaLayout : Bool) : InstallOptions where
  dataRoot := ascii "d"
  installedChecksumPath := ascii "c"
  appWriter := none
  clearData := none
  skipAppInstall := true
  skipDataInstall := false
  pixa := ⟨fun _ _ => ([], true)⟩
  crc32 := summedBytes
  otaLayout := otaLayout
  manifest := some pairManifest

/-- A file system with an uncompressed archive at `a`. -/
def pairStorage (files : List (Bytes × Bytes)) : Storage where
  files path := if path = ascii "a" then some (fileArchive files) else none
  images _ := []

/-- The run ended with success. -/
def succeeds {σ α : Type} : Outcome σ α → Bool
  | .returned _ _ _ => true
  | _ => false

theorem exists_of_succeeds {σ : Type} {outcome : Outcome σ Unit} (good : succeeds outcome = true) :
    ∃ after ended, outcome = .returned () after ended := by
  cases outcome with
  | returned value state time => exact ⟨state, time, rfl⟩
  | failed code state time | stopped state => cases good

/-- The two files of the manifest, in another order than there. -/
def pairFiles : List (Bytes × Bytes) := [(ascii "y", [2, 3]), (ascii "x", [1])]

/-- An archive with the two files of the manifest installs, and has no other files. -/
theorem pair_install_exact :
    ∃ archive entries, (pairStorage pairFiles).files (ascii "a") = some archive ∧
      Contents ((storedZlib.run ioBufSize archive).1.flatten ++ List.replicate 512 0) entries ∧
      ((regularFiles entries).map (described summedBytes)).Perm
        (pairManifest.entries.map ManifestEntry.recorded) := by
  have run : succeeds ((pairOptions false).install storedZlib (ascii "a") (fun _ => {}) 0
      (pairStorage pairFiles)) = true := by decide +kernel
  obtain ⟨after, ended, installed⟩ := exists_of_succeeds run
  exact manifest_install_exact (pairOptions false) pairManifest rfl rfl storedZlib (ascii "a")
    (fun _ => {}) 0 ended _ after installed

/-- The members of an OTA archive: a checksum, the data files and an application. -/
def otaFiles : List (Bytes × Bytes) :=
  [(ascii "checksum", [107]), (ascii "data/x", [1]), (ascii "data/y", [2, 3]), (ascii "app/f", [])]

/-- With the OTA layout only the data files are compared with the manifest, so an archive with a
checksum and an application besides the files of the manifest installs. -/
theorem ota_install_not_exact :
    (pairOptions true).manifest = some pairManifest ∧
      (pairManifest.entries.map ManifestEntry.path).Nodup ∧
      (∃ after ended, (pairOptions true).install storedZlib (ascii "a") (fun _ => {}) 0
        (pairStorage otaFiles) = .returned () after ended) ∧
      ∀ archive entries, (pairStorage otaFiles).files (ascii "a") = some archive →
        Contents ((storedZlib.run ioBufSize archive).1.flatten ++ List.replicate 512 0) entries →
        ¬((regularFiles entries).map (described summedBytes)).Perm
          (pairManifest.entries.map ManifestEntry.recorded) := by
  refine ⟨rfl, by decide, exists_of_succeeds (by decide +kernel), fun archive entries found contents
    agrees => ?_⟩
  have listed : listEntries 8 0 (fileArchive otaFiles ++ List.replicate 512 0) =
      some (otaFiles.map fun file => (⟨file.1, .file, file.2.length⟩, file.2)) := by
    decide +kernel
  have archived : archive = fileArchive otaFiles := by
    have same : (pairStorage otaFiles).files (ascii "a") = some (fileArchive otaFiles) := by
      simp [pairStorage]
    exact Option.some.inj (found.symm.trans same)
  subst archived
  have stream : (storedZlib.run ioBufSize (fileArchive otaFiles)).1.flatten =
      fileArchive otaFiles := List.append_nil _
  rw [stream] at contents
  have same := Contains.unique contents (listEntries_contains (by decide) listed)
  have lengths := agrees.length_eq
  rw [same] at lengths
  simp [regularFiles, otaFiles, pairManifest] at lengths

end Gizos.Bundle
