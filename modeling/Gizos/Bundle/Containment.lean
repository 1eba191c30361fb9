import Gizos.Bundle.Confinement
import Gizos.Bundle.Contents

/-! # Where an install can write

Every path an install opens or makes a directory for lies in its root, is on the way to its root,
or is one of the two files the caller names. What the path check of the bundle library accepts is
said in terms of the components of a path.
-/
namespace Gizos.Bundle

open Fault Pal InstallOptions

/-- A relative path that cannot leave the directory it is relative to. -/
structure SafeRelative (path : Bytes) : Prop where
  /-- Every component names something in the directory before it. -/
  components : ∀ component ∈ path.splitOn slash,
    component ≠ [] ∧ component ≠ [dot] ∧ component ≠ [dot, dot]
  backslash : backslash ∉ path
  colon : colon ∉ path

theorem componentSafe_iff {component : Bytes} : componentSafe component = true ↔
    component ≠ [] ∧ component ≠ [dot] ∧ component ≠ [dot, dot] := by
  simp [componentSafe, and_assoc]

/-- The loop checks the component it is in and those still to come. -/
theorem componentsSafe_iff {component rest : Bytes} :
    componentsSafe component rest = true ↔
      (∀ part ∈ (rest.splitOn slash).modifyHead (component ++ ·), componentSafe part = true) ∧
        backslash ∉ rest ∧ colon ∉ rest := by
  induction rest generalizing component with
  | nil => simp [componentsSafe]
  | cons ch rest ih =>
    unfold componentsSafe
    by_cases banned : ch = colon ∨ ch = backslash
    · rcases banned with rfl | rfl <;> simp
    have notColon : ¬colon = ch := fun same => banned (.inl same.symm)
    have notBackslash : ¬backslash = ch := fun same => banned (.inr same.symm)
    by_cases separator : ch = slash
    · subst separator
      simp only [banned, if_false, ne_eq, not_true_eq_false, Bool.and_eq_true, ih, List.splitOn,
        List.splitOnP_cons_eq_if_modifyHead, beq_self_eq_true, if_true, List.modifyHead_cons,
        List.append_nil,
        List.mem_cons, notColon, notBackslash, false_or]
      rw [show ((fun part : Bytes => ([] : Bytes) ++ part) = id) from rfl, List.modifyHead_id]
      simp only [id_eq, forall_eq_or_imp, and_assoc]
    · have joins : (fun part : Bytes => component ++ ch :: part) =
          fun part => component ++ [ch] ++ part := by
        funext part
        simp
      simp only [banned, if_false, ne_eq, separator, not_false_eq_true, if_true, ih, List.splitOn,
        List.splitOnP_cons_eq_if_modifyHead, beq_iff_eq, List.modifyHead_modifyHead,
        Function.comp_def,
        List.mem_cons, notColon, notBackslash, false_or, joins]

/-- `h2_bundle_path_is_safe_relative` accepts the paths that cannot leave their directory. -/
theorem pathIsSafeRelative_iff {path : Bytes} :
    pathIsSafeRelative path = true ↔ SafeRelative path := by
  have loop : componentsSafe [] path = true ↔ SafeRelative path := by
    rw [componentsSafe_iff, show ((fun part : Bytes => ([] : Bytes) ++ part) = id) from rfl,
      List.modifyHead_id]
    simp only [id_eq, componentSafe_iff]
    exact ⟨fun ⟨parts, noBackslash, noColon⟩ => ⟨parts, noBackslash, noColon⟩,
      fun safe => ⟨safe.components, safe.backslash, safe.colon⟩⟩
  cases path with
  | nil => simpa [pathIsSafeRelative, componentsSafe, componentSafe] using loop
  | cons first rest =>
    rw [← loop]
    unfold pathIsSafeRelative
    simp only [Bool.and_eq_true, decide_eq_true_eq, ne_eq]
    constructor
    · exact fun checked => checked.2
    · intro safe
      -- The loop already rejects what the checks in front of it reject.
      refine ⟨⟨?_, ?_⟩, safe⟩
      · rintro rfl
        simp [componentsSafe, componentSafe, slash, colon, backslash] at safe
      · rintro rfl
        simp [componentsSafe] at safe

/-- Both sides of a separator of a safe path are safe, and the other way round. -/
theorem safeRelative_append {front back : Bytes} :
    SafeRelative (front ++ slash :: back) ↔ SafeRelative front ∧ SafeRelative back := by
  have parts := List.splitOn_append_cons_self (a := slash) front back
  have separator : backslash ≠ slash ∧ colon ≠ slash := by decide
  constructor
  · intro safe
    refine ⟨⟨fun part member => safe.components part ?_, fun member => safe.backslash ?_,
      fun member => safe.colon ?_⟩, ⟨fun part member => safe.components part ?_,
      fun member => safe.backslash ?_, fun member => safe.colon ?_⟩⟩
    all_goals simp [parts, member]
  · rintro ⟨left, right⟩
    refine ⟨fun part member => ?_, ?_, ?_⟩
    · rw [parts, List.mem_append] at member
      exact member.elim (left.components part) (right.components part)
    · simp [left.backslash, right.backslash, separator.1]
    · simp [left.colon, right.colon, separator.2]

/-- A path inside a root. -/
def Below (root path : Bytes) : Prop :=
  ∃ relative, SafeRelative relative ∧ path = joined root relative

/-- What lies behind a separator of a path inside a root is inside the root. -/
theorem Below.append {root path rest : Bytes} (below : Below root path)
    (safe : SafeRelative rest) : Below root (path ++ slash :: rest) := by
  obtain ⟨relative, inside, rfl⟩ := below
  refine ⟨relative ++ slash :: rest, safeRelative_append.mpr ⟨inside, safe⟩, ?_⟩
  simp [joined]

/-- A directory that a path inside a root is in lies inside the root, or on the way to it. -/
theorem Below.above {root path target : Bytes} (below : Below root target)
    (above : Above path target) : Below root path ∨ Above path root := by
  obtain ⟨relative, safe, rfl⟩ := below
  rcases above with rfl | ⟨rest, same⟩
  · exact .inl ⟨relative, safe, rfl⟩
  unfold joined at same
  rw [List.append_assoc] at same
  rcases List.append_eq_append_iff.mp same with ⟨front, rfl, behind⟩ | ⟨further, rfl, behind⟩
  · split at behind
    · rename_i separated
      cases front with
      | nil => exact .inr (.inl (List.append_nil _))
      | cons first front =>
        obtain ⟨rfl, rfl⟩ := List.cons.inj behind
        refine .inl ⟨front, (safeRelative_append.mp safe).1, ?_⟩
        simp only [joined, if_pos separated, List.append_assoc, List.cons_append, List.nil_append]
    · rename_i joint
      subst behind
      refine .inl ⟨front, (safeRelative_append.mp safe).1, ?_⟩
      simp only [joined, if_neg joint, List.append_nil]
  · -- The root goes on with the separator that the path is followed by.
    cases further with
    | nil => exact .inr (.inl (List.append_nil _).symm)
    | cons first further =>
      obtain ⟨rfl, -⟩ := List.cons.inj behind
      exact .inr (.inr ⟨further, rfl⟩)

/-- The unpacker writes at its destination or below it. -/
def PixaApi.StaysBelow (pixa : PixaApi) : Prop :=
  ∀ packed destination, ∀ file ∈ (pixa.extract packed destination).1,
    file.1 = destination ∨ ∃ rest, SafeRelative rest ∧ file.1 = destination ++ slash :: rest

namespace InstallOptions

variable {options : InstallOptions}

/-- The files an install writes because its caller names them. -/
def Names (options : InstallOptions) (path : Bytes) : Prop :=
  path = options.installedChecksumPath ∨ ∃ version, options.versionFile = some (path, version)

/-- What an install can have done to a storage. -/
structure Contained (options : InstallOptions) (start after : Storage) : Prop where
  /-- The paths that were opened or made a directory lie inside the root, are the root or a
  directory it is in, or are named by the caller. -/
  asked : ∀ path ∈ after.asked, path ∈ start.asked ∨ Below options.dataRoot path ∨
    Above path options.dataRoot ∨ options.Names path
  /-- The files that changed lie inside the root or are named by the caller. -/
  files : ∀ path, after.files path ≠ start.files path →
    Below options.dataRoot path ∨ options.Names path

/-- The routines the caller hands to an install stay inside its root. -/
structure Trusted (options : InstallOptions) (start : Storage) : Prop where
  writer : ∀ writer, options.appWriter = some writer → writer.Keeps (options.Contained start)
  /-- Clearing the data stays inside. -/
  clear : ∀ clearData, options.clearData = some clearData →
    Keeps (options.Contained start) clearData

/-- The installs of the bundle library: with the options as they are, of an OTA archive, and of
the data member of a segmented package. -/
def installs (options : InstallOptions) (zlib : InflateApi) (digest : DigestApi)
    (archivePath package : Bytes) (manifest : SegmentedManifest) : List (Routine Storage Unit) :=
  [options.install zlib archivePath, options.installOta zlib archivePath,
    installDataZlib options zlib digest package manifest]

theorem Fills.below {path : Bytes} (stays : options.pixa.StaysBelow) (fills : options.Fills path) :
    Below options.dataRoot path := by
  have inside : ∀ path, options.Inside path → Below options.dataRoot path :=
    fun path ⟨relative, safe, same⟩ => ⟨relative, pathIsSafeRelative_iff.mp safe, same⟩
  cases fills with
  | inside path here => exact inside path here
  | unpacked packed destination file here extracted =>
    rcases stays packed destination file extracted with same | ⟨rest, safe, same⟩
    · rw [same]
      exact inside _ here
    · rw [same]
      exact (inside _ here).append safe

theorem MayWrite.contained {path : Bytes} (stays : options.pixa.StaysBelow)
    (may : options.MayWrite path) : Below options.dataRoot path ∨ options.Names path := by
  cases may with
  | checksum => exact .inr (.inl rfl)
  | version path version noted => exact .inr (.inr ⟨version, noted⟩)
  | fills path fills => exact .inl (fills.below stays)

theorem within_contained {start : Storage} (stays : options.pixa.StaysBelow)
    (trusted : options.Trusted start) : options.Within (options.Contained start) where
  asks path store may contained := by
    refine ⟨List.forall_mem_cons.mpr ⟨.inr ?_, contained.asked⟩, contained.files⟩
    rcases may with may | ⟨target, fills, above⟩
    · exact (may.contained stays).imp_right .inr
    · exact ((fills.below stays).above above).imp_right .inl
  files path content store may contained := by
    refine ⟨contained.asked, fun other changed => ?_⟩
    by_cases same : other = path
    · subst same
      exact may.contained stays
    · rw [Storage.withFile_files, Function.update_of_ne same] at changed
      exact contained.files other changed
  writer := trusted.writer
  clear := trusted.clear

end InstallOptions

/-- Whatever the archive, however it is split and wherever the run is cut, an install opens and
makes directories for paths inside its root, the root and the directories it is in, and paths named
by its caller, and changes files only inside its root or named by its caller. -/
theorem install_contained (options : InstallOptions) (stays : options.pixa.StaysBelow)
    (zlib : InflateApi) (digest : DigestApi) (archivePath package : Bytes)
    (manifest : SegmentedManifest) (start after : Storage) (trusted : options.Trusted start)
    (routine : Routine Storage Unit)
    (chosen : routine ∈ options.installs zlib digest archivePath package manifest)
    (run : Reaches Answer.Any routine start after) : options.Contained start after := by
  have within := within_contained stays trusted
  have kept : Keeps (options.Contained start) routine := by
    simp only [InstallOptions.installs, List.mem_cons, List.not_mem_nil, or_false] at chosen
    rcases chosen with rfl | rfl | rfl
    · exact keeps_install within zlib archivePath
    · exact keeps_installOta within zlib archivePath
    · exact keeps_installDataZlib within zlib digest package manifest
  exact (kept.ensures ⟨fun path member => .inl member, fun path changed =>
    absurd rfl changed⟩).reached
    run

/-- Options with a root `d` and nothing else. -/
def bareOptions : InstallOptions where
  dataRoot := ascii "d"
  installedChecksumPath := ascii "c"
  appWriter := none
  clearData := none
  skipAppInstall := true
  skipDataInstall := true
  pixa := ⟨fun _ _ => ([], true)⟩
  crc32 := summedBytes
  otaLayout := false

/-- A file system with an archive of one empty file `f` at `a`. -/
def bareStorage : Storage where
  files path := if path = ascii "a" then some (fileArchive [(ascii "f", [])]) else none
  images _ := []

theorem bare_trusted (start : Storage) : bareOptions.Trusted start := ⟨nofun, nofun⟩

/-- The file of the archive is opened in the root, and what the install did is contained. -/
theorem bare_install_contained :
    let after := (bareOptions.install storedZlib (ascii "a") (fun _ => {}) 0 bareStorage).state
    ascii "d/f" ∈ after.asked ∧ bareOptions.Contained bareStorage after :=
  ⟨by decide +kernel, install_contained bareOptions nofun storedZlib
    ⟨fun _ => List.replicate 32 0, fun _ => List.length_replicate⟩ (ascii "a") []
    ⟨[], [], [], [], [], [], 0, 0, ⟨0, 0, 0, []⟩, ⟨0, 0, 0, []⟩⟩ bareStorage _ (bare_trusted _) _
    List.mem_cons_self ⟨_, fun _ => trivial, 0, rfl⟩⟩

/-- The root itself is made a directory, and it is not inside the root. -/
theorem bare_install_makes_root :
    bareOptions.pixa.StaysBelow ∧ bareOptions.Trusted bareStorage ∧
      ∃ after path, Reaches Answer.Any (bareOptions.install storedZlib (ascii "a"))
        bareStorage after ∧
        path ∈ after.asked ∧ path ∉ bareStorage.asked ∧ ¬Below bareOptions.dataRoot path := by
  refine ⟨nofun, bare_trusted _, _, ascii "d", ⟨fun _ => {}, fun _ => trivial, 0, rfl⟩,
    ?_, nofun, ?_⟩
  · decide +kernel
  · rintro ⟨relative, -, same⟩
    have lengths := congrArg List.length same
    simp [joined, bareOptions, ascii, slash] at lengths

end Gizos.Bundle
