import Gizos.Loader.Metadata
import Gizos.Pal.Disk

/-! # Recovering a published package

`h2_loader_package_recover_publish`, which runs before the loader starts. A package is published
when its file has the size that a valid Stage record gives; everything else an interrupted upload
may have left is discarded, with the record.
-/
namespace Gizos.Loader

open Fault Pal Gizos.Bundle

/-- The file system and the preferences. -/
abbrev PackageStore : Type := Disk × Preferences

/-- A routine on the file system. -/
def onFiles {α : Type} (body : Routine Disk α) : Routine PackageStore α := body.on .fst

/-- A routine on the preferences. -/
def onRecords {α : Type} (body : Routine Preferences α) : Routine PackageStore α := body.on .snd

/-- The file an upload writes before it is renamed to the package. -/
def temporaryPath (package : Bytes) : Bytes := package ++ ascii ".tmp"

/-- `h2_pal_fs_stat` of something that need not be there. -/
def statOptional (path : Bytes) : Routine Disk (Option FsStat) := do
  match ← (fsStat path).attempt with
  | .ok stat => pure (some stat)
  | .error code => if code = errNotFound then pure none else Program.fail code

/-- `h2_pal_fs_remove` of something that was found, and that may be gone by now. -/
def removeFound (found : Option FsStat) (path : Bytes) : Routine Disk Unit :=
  Program.onlyIf found.isSome ((fsUnlink path).recovering fun code =>
    if code = errNotFound then pure () else Program.fail code)

/-- Whether something that was found is a directory. -/
def isDirectory (found : Option FsStat) : Bool := found.any FsStat.isDir

/-- `discard_candidate`: anything but one package file of the recorded size. -/
def discardCandidate (package previous temporary : Option FsStat) (stage : Metadata)
    (present : Bool) : Bool :=
  (isDirectory package || isDirectory previous || isDirectory temporary) || temporary.isSome ||
    package.isNone || !present || !stage.valid ||
    package.any fun stat => stat.size ≠ stage.packageSize.toNat

variable (packagePath previousPath : Bytes)

/-- `h2_loader_package_recover_publish`. -/
def recoverPublish : Routine PackageStore Unit := do
  Program.require ((temporaryPath packagePath).length < pathMax) Pal.errNoSpace
  let package ← onFiles (statOptional packagePath)
  let previous ← onFiles (statOptional previousPath)
  let temporary ← onFiles (statOptional (temporaryPath packagePath))
  let (stage, present) ← onRecords (metadataRead .stage)
  let discard := discardCandidate package previous temporary stage present
  onFiles (removeFound temporary (temporaryPath packagePath))
  onFiles (removeFound previous previousPath)
  onFiles (Program.onlyIf discard (removeFound package packagePath))
  Program.onlyIf discard (onRecords (metadataClear .stage))

/-- A package is published: its file has the size its valid record gives, and nothing else of an
upload is there. -/
structure Published (store : PackageStore) : Prop where
  /-- The file and the record agree. -/
  agreed : ∃ content synced stage, store.1.find packagePath = some (.file content synced) ∧
    (store.2.slot .stage).bind (metadataDecode .stage) = some stage ∧ stage.valid = true ∧
    content.length = stage.packageSize.toNat
  temporary : store.1.find (temporaryPath packagePath) = none
  previous : store.1.find previousPath = none

/-- Nothing is published, and nothing of an upload is there. -/
structure Vacant (store : PackageStore) : Prop where
  package : store.1.find packagePath = none
  record : store.2.slot .stage = none
  temporary : store.1.find (temporaryPath packagePath) = none
  previous : store.1.find previousPath = none

section Rules

section Parts

variable {α : Type} {admits : Answer → Prop} {onReturn : α → PackageStore → Prop}
  {onFail : Int → PackageStore → Prop} {onReset : PackageStore → Prop} {disk : Disk}
  {pref : Preferences}

theorem ensures_onFiles {body : Routine Disk α}
    (ensured : Ensures admits body (fun value after => onReturn value (after, pref))
      (fun code after => onFail code (after, pref)) (fun after => onReset (after, pref)) disk) :
    Ensures admits (onFiles body) onReturn onFail onReset (disk, pref) :=
  .on ensured

theorem ensures_onRecords {body : Routine Preferences α}
    (ensured : Ensures admits body (fun value after => onReturn value (disk, after))
      (fun code after => onFail code (disk, after)) (fun after => onReset (disk, after)) pref) :
    Ensures admits (onRecords body) onReturn onFail onReset (disk, pref) :=
  .on ensured

end Parts

variable {path : Bytes} {disk : Disk}

theorem ensures_statOptional :
    Returns Answer.Honest (statOptional path)
      (fun found after => after = disk ∧ found = (disk.find path).map Node.stat) disk := by
  apply Ensures.bind
  apply Ensures.attempt
  refine ensures_fsStat (fun node found => ?_) (fun absent => ?_) (fun code reports => ?_) trivial
  · rw [found]
    exact .pure ⟨rfl, rfl⟩
  · rw [absent]
    exact .pure ⟨rfl, rfl⟩
  · have other : code ≠ errNotFound := fun same => Answer.not_reports_honest (same ▸ reports)
    dsimp only
    rw [if_neg other]
    exact .fail trivial

/-- A path is gone, and no other path has changed. -/
structure Removed (path : Bytes) (before after : Disk) : Prop where
  gone : after.find path = none
  others : ∀ other, other ≠ path → after.find other = before.find other

theorem Removed.absent {before after : Disk} (removed : Removed path before after) {other : Bytes}
    (absent : before.find other = none) : after.find other = none := by
  by_cases same : other = path
  · subst same
    exact removed.gone
  · rw [removed.others other same]
    exact absent

theorem ensures_removeFound {found : Option FsStat}
    (absent : found = none → disk.find path = none) :
    Returns Answer.Honest (removeFound found path)
      (fun _ after => Removed path disk after) disk := by
  refine .onlyIf (fun _ => ?_) fun unfound => ⟨absent (by simpa using unfound), fun _ _ => rfl⟩
  apply Ensures.recovering
  have failing : ∀ code after, Answer.Reports Answer.Honest code → Returns Answer.Honest
      (if code = errNotFound then pure () else Program.fail code)
      (fun _ after => Removed path disk after) after := by
    intro code after reports
    have other : code ≠ errNotFound := fun same => Answer.not_reports_honest (same ▸ reports)
    rw [if_neg other]
    exact .fail trivial
  exact ensures_fsUnlink ⟨Disk.find_drop_self, fun other differ => Disk.find_drop_of_ne differ⟩
    (fun absent => .pure ⟨absent, fun _ _ => rfl⟩) (.fail trivial)
    (fun code reports => failing code _ reports)
    (fun code reports => failing code _ reports.of_unclean) trivial trivial

end Rules

section Decision

variable {package previous temporary : Option FsStat} {stage : Metadata} {present : Bool}

theorem kept_of_discardCandidate
    (kept : discardCandidate package previous temporary stage present = false) :
    present = true ∧ stage.valid = true ∧ package = some ⟨stage.packageSize.toNat, false⟩ := by
  unfold discardCandidate isDirectory at kept
  cases package with
  | none => simp at kept
  | some stat =>
    obtain ⟨size, isDir⟩ := stat
    simp_all

end Decision

/-- The removals and the clearing, once everything has been looked at. -/
theorem ensures_recoverPublish {packagePath previousPath : Bytes}
    (distinct : packagePath ≠ previousPath) (disk : Disk) (pref : Preferences) :
    Returns Answer.Honest (recoverPublish packagePath previousPath)
      (fun _ after => Published packagePath previousPath after ∨
        Vacant packagePath previousPath after) (disk, pref) := by
  apply Ensures.bind
  refine .require (fun _ => ?_) fun _ => trivial
  apply Ensures.bind
  refine ensures_onFiles (ensures_statOptional.imp ?_)
  rintro package after ⟨same, packageFound⟩
  subst after
  apply Ensures.bind
  refine ensures_onFiles (ensures_statOptional.imp ?_)
  rintro previous after ⟨same, previousFound⟩
  subst after
  apply Ensures.bind
  refine ensures_onFiles (ensures_statOptional.imp ?_)
  rintro temporary after ⟨same, temporaryFound⟩
  subst after
  have missing : ∀ {path : Bytes}, (disk.find path).map Node.stat = none → disk.find path = none :=
    fun none => Option.map_eq_none_iff.mp none
  have looked : Returns Answer.Honest (metadataRead .stage)
      (fun found after => after = pref ∧ (found.2 = true →
        (pref.slot .stage).bind (metadataDecode .stage) = some found.1)) pref := by
    refine ensures_metadataRead (fun _ => ⟨rfl, fun absent => nomatch absent⟩) ?_
      (fun _ => trivial) trivial
    intro blob metadata stored decoded
    refine ⟨rfl, fun _ => ?_⟩
    rw [stored]
    exact decoded
  apply Ensures.bind
  refine ensures_onRecords (looked.imp ?_)
  rintro ⟨stage, present⟩ after ⟨same, recorded⟩
  subst after
  apply Ensures.bind
  refine ensures_onFiles ((ensures_removeFound fun absent => missing (temporaryFound ▸ absent)).imp
    ?_)
  intro _ first temporaryRemoved
  apply Ensures.bind
  refine ensures_onFiles ((ensures_removeFound fun absent => ?_).imp ?_)
  · exact temporaryRemoved.absent (missing (previousFound ▸ absent))
  intro _ second previousRemoved
  have temporaryGone := previousRemoved.absent temporaryRemoved.gone
  apply Ensures.bind
  cases discarded : discardCandidate package previous temporary stage present with
  | true =>
    have packageGone : package = none → second.find packagePath = none := fun absent =>
      previousRemoved.absent (temporaryRemoved.absent (missing (packageFound ▸ absent)))
    refine ensures_onFiles ((ensures_removeFound packageGone).imp ?_)
    intro _ third packageRemoved
    refine ensures_onRecords (ensures_metadataClear (.inr ?_) (fun _ => trivial) (fun _ => trivial)
      trivial trivial)
    exact ⟨packageRemoved.gone, rfl, packageRemoved.absent temporaryGone,
      packageRemoved.absent previousRemoved.gone⟩
  | false =>
    obtain ⟨stored, valid, file⟩ := kept_of_discardCandidate discarded
    have same : second.find packagePath = disk.find packagePath := by
      rw [previousRemoved.others _ distinct, temporaryRemoved.others _
        (by simp [temporaryPath, ascii])]
    refine ensures_onFiles (.pure (.pure (.inl ⟨?_, temporaryGone, previousRemoved.gone⟩)))
    rw [packageFound] at file
    cases named : disk.find packagePath with
    | none =>
      rw [named] at file
      cases file
    | some node =>
      rw [named] at file
      cases node with
      | directory =>
        have isFile := congrArg FsStat.isDir (Option.some.inj file)
        cases isFile
      | file content synced =>
        have size : content.length = stage.packageSize.toNat :=
          congrArg FsStat.size (Option.some.inj file)
        exact ⟨content, synced, stage, same.trans named, recorded stored, valid, size⟩

/-- A recovery that reports success leaves a published package or nothing at all. -/
theorem recover_publish_settles (packagePath previousPath : Bytes)
    (distinct : packagePath ≠ previousPath) (before after : PackageStore)
    (recovered : Yields Answer.Honest (recoverPublish packagePath previousPath) before () after) :
    Published packagePath previousPath after ∨ Vacant packagePath previousPath after :=
  (ensures_recoverPublish distinct before.1 before.2).yielded recovered

/-- An upload that was cut before its package was renamed, next to an older package. -/
def cutUpload : PackageStore :=
  (((Disk.empty.put [112] (.file [1, 2, 3] true)).put (temporaryPath [112]) (.file [4] false)).put
    [113] (.file [1] true), {})

theorem recover_publish_settles_cutUpload : ∃ after,
    Yields Answer.Honest (recoverPublish [112] [113]) cutUpload () after ∧
      (Published [112] [113] after ∨ Vacant [112] [113] after) := by
  have honest : ∀ index : Nat, Answer.Honest ((fun _ => {} : Nat → Answer) index) := fun _ =>
    show (0 : Int) ≠ errNotFound by decide
  have returned : (recoverPublish [112] [113] (fun _ => {}) 0 cutUpload).value = some () := by
    decide +kernel
  have yields := Yields.of_value honest returned
  exact ⟨_, yields, recover_publish_settles _ _ (by decide) _ _ yields⟩

end Gizos.Loader
