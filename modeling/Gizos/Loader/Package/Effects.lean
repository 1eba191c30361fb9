import Gizos.Bundle.Confinement
import Gizos.Loader.Package.Install
import Gizos.Loader.Package.Transfer

/-! # What package operations do

Verifying, inspecting and planning change nothing. An install touches files and its destination
partition only, at every point where it can be cut, and an install that returns has read the
image back. A plan that leaves the image alone has found it in place.
-/
namespace Gizos.Loader

open Fault Pal Gizos.Bundle ImageConfig

variable {admits : Answer → Prop} {onFail : Int → Storage → Prop} {onReset : Storage → Prop}
  {store : Storage}

variable {inspection : Inspection} {plan : InstallPlan} {writer : AppWriter}

/-- Clearing the data changes files only, as the callback documents. -/
def PackageConfig.ClearsFilesOnly (config : PackageConfig) : Prop :=
  ∀ clearData, config.clearData = some clearData →
    Leaves (fun store : Storage => (store.images, store.writing)) clearData

namespace PackageConfig

variable {config : PackageConfig}

theorem leaves_verifyPath (path : Bytes) (size : UInt64) (sha256 : Bytes) :
    Leaves id (config.verifyPath path size sha256) :=
  .bind (.require _ _) fun _ => .bind (leaves_lookup id _) fun _ =>
    .bind (.require _ _) fun _ =>
    .bind (.bind (leaves_lookup id _) fun _ => leaves_closingAfter <|
      .bind (leaves_probe id) fun _ => .pure _) fun _ => .require _ _

theorem leaves_inspectSegmentedPath (path : Bytes) : Leaves id (config.inspectSegmentedPath path) :=
  .bind (leaves_probe id) fun _ => .bind (leaves_lookup id _) fun _ =>
    .bind (leaves_closingAfter <| .bind (leaves_probe id) fun _ =>
      .conclude _) fun _ => .pure _

theorem leaves_inspectPath (path : Bytes) : Leaves id (config.inspectPath path) := by
  refine .bind (leaves_lookup id _) fun content => .bind (leaves_probe id) fun _ => ?_
  split
  · exact .bind (leaves_probe id) fun _ => leaves_inspectSegmentedPath path
  · exact .bind (leaves_closingAfter <| .bind (leaves_probe id) fun _ =>
      .conclude _) fun _ => .conclude _

theorem leaves_installedDataChecksumMatches (checksum : Bytes) :
    Leaves id (config.installedDataChecksumMatches checksum) := by
  refine .bind (.require _ _) fun _ =>
    .bind (leaves_lookup id _).attempt fun found => ?_
  cases found with
  | ok content =>
    exact leaves_closingAfter <| .bind (leaves_probe id) fun _ => .pure _
  | error code =>
    dsimp only
    split
    · exact .pure _
    · exact .fail _

/-- Whether the image has to be written is found out by verifying it. -/
theorem ensures_imageUpdateNeeded {destination : Nat} {onReturn : Bool → Storage → Prop}
    (needed : onReturn true store)
    (spared : HoldsImage config.digest store destination inspection.manifest.imageSize.toNat
      inspection.manifest.imageSha256.string → onReturn false store)
    (fails : ∀ code, onFail code store) (resets : onReset store) :
    Ensures admits (config.imageUpdateNeeded inspection destination) onReturn onFail onReset
      store := by
  unfold imageUpdateNeeded
  split
  · apply Ensures.recovering
    apply Ensures.bind
    refine ensures_imageVerify (fun holds => .pure (spared holds)) (fun code => ?_) resets
    split
    · exact .pure needed
    · exact .fail (fails _)
  · exact .pure needed

/-- A plan changes nothing, and spares an image only where it is in place. -/
theorem ensures_planInstall {destination : Nat} {onReturn : InstallPlan → Storage → Prop}
    (returns : ∀ plan, (plan.updateApp = false → inspection.manifest.role ≠ .h2loader ∧
      HoldsImage config.digest store destination inspection.manifest.imageSize.toNat
      inspection.manifest.imageSha256.string) → onReturn plan store)
    (fails : ∀ code, onFail code store) (resets : onReset store) :
    Ensures admits (config.planInstall inspection destination) onReturn onFail onReset store := by
  apply Ensures.bind
  refine .require (fun _ => ?_) fun _ => fails _
  split
  · exact .pure (returns _ fun spared => nomatch spared)
  · rename_i loader
    have matching : ∀ updateApp : Bool, (updateApp = false → HoldsImage config.digest store
        destination inspection.manifest.imageSize.toNat inspection.manifest.imageSha256.string) →
        Ensures admits (config.installedDataChecksumMatches inspection.dataChecksum >>= fun found =>
          pure ⟨updateApp, !found⟩) onReturn onFail onReset store := fun updateApp spared =>
      .bind (.quiet (leaves_installedDataChecksumMatches _)
        (fun found => .pure (returns _ fun kept => ⟨loader, spared kept⟩)) fails resets)
    apply Ensures.bind
    exact ensures_imageUpdateNeeded (matching true fun spared => nomatch spared)
      (fun holds => matching false fun _ => holds) fails resets

section Installing

variable {invariant : Storage → Prop} {destination : Nat}

theorem keeps_installWriter (spares : Spares destination invariant) (identity : Manifest) :
    (config.installWriter identity destination).Keeps invariant := by
  unfold installWriter
  split
  · exact keeps_writerBridge spares identity
  · exact keeps_diskWriter spares

/-- What an install by a plan may touch. -/
structure Touches (config : PackageConfig) (plan : InstallPlan) (destination : Nat)
    (invariant : Storage → Prop) : Prop where
  spares : plan.updateApp = true → Spares destination invariant
  files : ∀ path content store, invariant store → invariant (Storage.withFile path content store)
  asks : ∀ path store, invariant store → invariant (Storage.ask path store)
  clear : ∀ clearData, config.clearData = some clearData → Keeps invariant clearData
  close : ∀ store, invariant store → invariant { store with writing := none }

theorem touches_confined (clears : config.ClearsFilesOnly) (plan : InstallPlan)
    (destination : Nat) (start : Storage) :
    Touches config plan destination (Confined destination start) where
  spares _ := spares_confined destination start
  files _ _ _ confined := { confined with }
  asks _ _ confined := { confined with }
  close _ confined := ⟨confined.images, .inl (.inl rfl)⟩
  clear clearData configured := by
    refine (clears clearData configured).keeps ?_
    rintro before after same ⟨images, writing⟩
    obtain ⟨sameImages, sameWriting⟩ := Prod.mk.inj same
    refine ⟨fun other different => (congrFun sameImages other).trans (images other different), ?_⟩
    exact writing.imp (NoWriteSince.trans · (.inr sameWriting)) sameWriting.trans

theorem touches_files (clears : config.ClearsFilesOnly) (spared : plan.updateApp = false)
    (destination : Nat) (start : Storage) :
    Touches config plan destination
      (fun store => store.images = start.images ∧ NoWriteSince start store) where
  spares written := by rw [spared] at written; cases written
  files _ _ _ same := same
  asks _ _ same := same
  close _ same := ⟨same.1, .inl rfl⟩
  clear clearData configured := by
    refine (clears clearData configured).keeps ?_
    rintro before after same ⟨images, writing⟩
    obtain ⟨sameImages, sameWriting⟩ := Prod.mk.inj same
    exact ⟨sameImages.trans images, writing.trans (.inr sameWriting)⟩

theorem within_installOptions (touches : Touches config plan destination invariant)
    (keeps : plan.updateApp = true → writer.Keeps invariant) :
    (config.installOptions writer plan).Within invariant where
  files path content store _ := touches.files path content store
  asks path store _ := touches.asks path store
  clear := touches.clear
  writer := by
    intro chosen same
    unfold installOptions at same
    split at same
    · rename_i written
      exact Option.some.inj same ▸ keeps written
    · cases same

theorem keeps_installSegmentApp (keeps : writer.Keeps invariant) (package : Bytes)
    (m : SegmentedManifest) (imagePath : Bytes) :
    Keeps invariant (config.installSegmentApp package m writer imagePath) := by
  have inflated : ∀ entry, Guards invariant (fun _ => True)
      (config.inflateSegmentApp package m writer entry) fun _ _ => True := by
    intro entry
    have written : ∀ piece, Guards invariant (fun _ => True)
        (writeSegmentApp writer entry piece) fun _ _ => True := by
      intro piece
      have hashed : Guards invariant (fun _ => True)
          (Program.update fun state : Bytes × Storage => (state.1 ++ piece, state.2) :
            Routine (Bytes × Storage) Unit) fun _ _ => True :=
        fun _ _ _ holds => .update ⟨trivial, holds⟩
      exact Guards.bind hashed fun _ => Guards.onState (keeps.write entry piece)
    exact Guards.bind (guards_segmentedInflate written _ _ _) fun _ => Guards.bindLocals fun _ _ =>
      Guards.bind guards_call fun _ => Guards.require
  exact .recovering (.bind (keeps.start _) fun _ => .bind (keeps_probe _) fun _ =>
    .bind (Guards.withLocals (inflated _) trivial) fun _ => keeps.finish _) fun _ =>
    .bind keeps.abort fun _ => .fail _

theorem keeps_carryOut (touches : Touches config plan destination invariant)
    (keeps : plan.updateApp = true → writer.Keeps invariant) (fresh : Inspection) :
    Keeps invariant (config.carryOut fresh plan writer) := by
  have within := within_installOptions touches keeps
  unfold carryOut
  split
  · exact .onlyIf fun _ => .bind (leaves_lookup id _).keepsAny fun package =>
      keeps_closingAfter <| .bind (.onlyIf fun _ =>
        keeps_installDataZlib within _ _ _ _) fun _ => .onlyIf fun written =>
          keeps_installSegmentApp (keeps written) _ _ _
  · exact .onlyIf fun _ => InstallOptions.keeps_installOta within _ _

/-- An install touches what its plan says, at every point where it can be cut. -/
theorem keeps_installTo (touches : Touches config plan destination invariant)
    (inspection : Inspection) :
    Keeps invariant (config.installTo inspection destination plan) := by
  refine .withCleanup ?_ (.update touches.close)
  refine .bind (.require _ _) fun _ =>
    .bind (leaves_imageCapacity _).keepsAny fun _ =>
    .bind (.require _ _) fun _ => .bind (leaves_verifyPath _ _ _).keepsAny fun _ =>
    .bind (leaves_inspectPath _).keepsAny fun fresh => .bind (.require _ _) fun _ =>
    .bind (.require _ _) fun _ =>
    .bind (keeps_carryOut touches (fun written => keeps_installWriter (touches.spares written)
      _) _) fun _ => .onlyIf fun checked => .recovering ?_ fun _ => ?_
  · exact .bind (leaves_hashPartition _ _).keepsAny fun _ => .require _ _
  · have written : plan.updateApp = true := by
      cases update : plan.updateApp with
      | true => rfl
      | false => simp [update] at checked
    exact .bind (.onlyIf fun _ => keeps_imageWriterAbort (touches.spares written)) fun _ => .fail _

/-- An install ends with no image write open, and when it returns after writing an image it has
read the image back. -/
theorem ensures_installTo (readable : config.imageReader = true ∨ config.disk = true)
    (current : inspection.legacy = false) :
    Ensures admits (config.installTo inspection destination plan)
      (fun _ after => after.writing = none ∧ (plan.updateApp = true →
        HoldsImage config.digest after destination inspection.manifest.imageSize.toNat
          inspection.manifest.imageSha256.string))
      (fun _ after => after.writing = none) (fun _ => True) store := by
  apply Ensures.withCleanup
  have body : Returns admits (config.install inspection destination plan)
      (fun _ after => plan.updateApp = true → HoldsImage config.digest after destination
        inspection.manifest.imageSize.toNat inspection.manifest.imageSha256.string) store := by
    iterate 8 refine .after fun _ _ => ?_
    refine .onlyIf (fun _ => ?_) fun unchecked written => ?_
    · apply Ensures.recovering
      refine .bind (ensures_hashPartition (fun whole => ?_) ?_ trivial)
      · exact .require (fun same _ => ⟨whole, same⟩) fun _ =>
          .after fun _ _ => .fail trivial
      · exact fun _ => .after fun _ _ => .fail trivial
    · rcases readable with reader | disk
      · simp [written, current, reader] at unchecked
      · simp [written, current, disk] at unchecked
  refine body.mono ?_ ?_ fun _ _ => trivial
  · intro _ after holds
    exact .update ⟨rfl, holds⟩
  · intro _ after _
    exact .update rfl

end Installing

end PackageConfig

end Gizos.Loader
