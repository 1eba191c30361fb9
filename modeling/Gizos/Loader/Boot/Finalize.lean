import Gizos.Loader.Boot.StartupWalk

/-! # Finalizing a running application

`h2_loader_finalize_active_app_with_confirmation`: a running application records itself for
partition 2, is confirmed to the platform, and then consumes the staged package it came from.
-/
namespace Gizos.Loader

open Fault Pal Gizos.Bundle

/-- The arguments of a finalization. -/
structure Finalization where
  /-- Path of the staged package. -/
  packagePath : Bytes
  /-- The image that runs. -/
  activeIdentity : Manifest
  /-- The partition that runs. -/
  runningPartitionId : Nat
  /-- Partition 2. -/
  appPartitionId : Nat
  /-- There is a confirmation callback. -/
  confirms : Bool

namespace Finalization

variable (call : Finalization)

/-- The record of the running image. -/
def partition : Metadata := metadataFromIdentity call.activeIdentity

/-- The record of the running image, with the package another record names. -/
def partitionFrom (stored : Metadata) : Metadata :=
  { call.partition with
    packageChecksum := .copy _ stored.packageChecksum.string
    packageSize := stored.packageSize }

/-- The check of the arguments. -/
def accepts : Bool :=
  call.activeIdentity.role = .app && call.appPartitionId ≠ 0 &&
    call.runningPartitionId = call.appPartitionId && identityValid call.activeIdentity

/-- The stored record names the staged image and the staged package. -/
def stageInstalled (stage stored : Metadata) : Bool :=
  stage.valid && metadataImageEqual stage call.partition &&
    stage.packageSize = stored.packageSize &&
    stage.packageChecksum.string = stored.packageChecksum.string

/-- The record to commit for partition 2, and whether the stage has been installed, from the
records read and whether they were there. -/
def judge (stage stored : Metadata × Bool) : Except Int (Metadata × Bool) :=
  if stored.2 = false ∨ stored.1.valid = false ∨
      metadataImageEqual stored.1 call.partition = false then
    .ok (call.partition, false)
  else if stage.2 && call.stageInstalled stage.1 stored.1 then do
    let partition ← metadataFromStage stage.1
    pure (partition, true)
  else .ok (call.partitionFrom stored.1, false)

/-- The end of a finalization that consumes the stage. -/
def consumeStage : BootRoutine Unit := do
  finishStage call.packagePath
  onPref (transaction probe fun pref => { pref with lastResult := some 0 })

/-- `h2_loader_finalize_active_app_with_confirmation`. -/
def finalize : BootRoutine Unit := do
  Program.require call.accepts errInvalidArg
  let stage ← onPref (metadataRead .stage)
  let stored ← onPref (metadataRead .partition2)
  let (partition, installed) ← Program.conclude (call.judge stage stored)
  onPref (metadataWrite .partition2 partition)
  Program.onlyIf call.confirms confirmImage
  Program.onlyIf installed call.consumeStage

variable {call} {stage stored : Metadata × Bool} {partition : Metadata} {installed : Bool}

/-- How a judgement comes about. -/
inductive Judged (call : Finalization) (stage stored : Metadata × Bool) :
    Metadata → Bool → Prop where
  /-- Nothing usable is stored for the running image. -/
  | seed (unusable : stored.2 = false ∨ stored.1.valid = false ∨
      metadataImageEqual stored.1 call.partition = false) : Judged call stage stored call.partition
      false
  /-- The stored record names the staged image and package. -/
  | installed (present : stage.2 = true) (matching : call.stageInstalled stage.1 stored.1 = true)
    (usable : stored.2 = true ∧ metadataImageEqual stored.1 call.partition = true) :
    Judged call stage stored stage.1 true
  /-- The stored record names the running image with another package. -/
  | kept (other : (stage.2 && call.stageInstalled stage.1 stored.1) = false)
    (usable : stored.2 = true ∧ metadataImageEqual stored.1 call.partition = true) :
    Judged call stage stored (call.partitionFrom stored.1) false

theorem judge_ok (judged : call.judge stage stored = .ok (partition, installed)) :
    Judged call stage stored partition installed := by
  unfold judge at judged
  split_ifs at judged with unusable matching
  · cases judged
    exact .seed unusable
  · obtain ⟨accepted, committed, same⟩ := bind_eq_ok.mp judged
    cases same
    obtain rfl := metadataFromStage_ok committed
    rw [Bool.and_eq_true] at matching
    simp only [not_or, Bool.not_eq_false] at unusable
    exact .installed matching.1 matching.2 ⟨unusable.1, unusable.2.2⟩
  · cases judged
    simp only [not_or, Bool.not_eq_false] at unusable
    exact .kept (Bool.not_eq_true _ ▸ matching) ⟨unusable.1, unusable.2.2⟩

theorem stageInstalled_image {stage stored : Metadata}
    (matching : call.stageInstalled stage stored = true) :
    metadataImageEqual stage call.partition = true := by
  simp only [stageInstalled, Bool.and_eq_true] at matching
  exact matching.1.1.2

/-- Whatever is committed for partition 2 is about the image that runs. -/
theorem Judged.image (judged : Judged call stage stored partition installed) :
    partition.image = call.partition.image := by
  cases judged with
  | seed => rfl
  | installed _ matching => exact image_eq_of_metadataImageEqual (stageInstalled_image matching)
  | kept => rfl

theorem partitionFrom_terminated (call : Finalization) (stored : Metadata) :
    (call.partitionFrom stored).Terminated := by
  have active := metadataFromIdentity_terminated call.activeIdentity
  exact ⟨Text.copy_terminated _ (by decide), active.imageChecksum, active.version, active.board,
    active.target⟩

theorem Judged.terminated (judged : Judged call stage stored partition installed)
    (staged : stage.1.Terminated) : partition.Terminated := by
  cases judged with
  | seed => exact metadataFromIdentity_terminated call.activeIdentity
  | installed => exact staged
  | kept => exact partitionFrom_terminated call stored.1

/-- The caller a finalization is: an application, which arms nothing. -/
def caller (call : Finalization) (device : Device) : Caller where
  device := device
  activeImage := call.partition.image
  gate _ _ := false

end Finalization

variable {start machine : Machine}

/-- Reading a record changes nothing, and what is read has its terminators. -/
theorem walks_metadataRead {caller : Caller} {slot : Slot}
    {onReturn : Metadata × Bool → Machine → Prop}
    (returns : ∀ found : Metadata × Bool, found.1.Terminated → onReturn found machine) :
    Walks caller start (onPref (metadataRead slot)) onReturn machine := by
  refine .on (ensures_metadataRead (fun _ => ⟨.inl rfl, ?_⟩) ?_
    (fun _ => ⟨.inl rfl, trivial⟩) (.inl rfl))
  · exact returns _ Metadata.zero_terminated
  · exact fun blob metadata _ decoded =>
      ⟨.inl rfl, returns _ (metadataDecode_some decoded).2.1⟩

/-- Every change of a finalization is one of the steps, at whatever point it is interrupted. -/
theorem walks_finalize {call : Finalization} {device : Device}
    (named : device.appPartitionId = call.appPartitionId)
    (here : machine.running = call.runningPartitionId) :
    Walks (call.caller device) start call.finalize (fun _ after => after.running = machine.running)
      machine := by
  refine .bind (.require (fun accepted => ?_) fun _ => trivial)
  have running : machine.running = device.appPartitionId := by
    simp only [Finalization.accepts, Bool.and_eq_true, decide_eq_true_eq] at accepted
    rw [here, named]
    exact accepted.1.2
  refine .bind (walks_metadataRead fun stage staged => ?_)
  refine .bind (walks_metadataRead fun stored _ => ?_)
  refine .bind (.conclude fun decision decided => ?_)
  have judged := Finalization.judge_ok (show call.judge stage stored = .ok (decision.1, decision.2)
    from decided)
  have stepped : ∀ data, metadataEncode .partition2 decision.1 = some data →
      BootStep (call.caller device) start machine
        { machine with pref := machine.pref.withSlot .partition2 (some data) } :=
    fun data encoded => .record machine .partition2 device.appPartitionId _ data rfl encoded
      (judged.terminated staged) (.inr (.inl ⟨running, judged.image⟩)) (.inl judged.image)
  have consumes : ∀ after : Machine, after.running = machine.running →
      Walks (call.caller device) start (Program.onlyIf decision.2 call.consumeStage)
        (fun _ final => final.running = machine.running) after := fun after same =>
    .onlyIf (fun _ => .bind (walks_finishStage fun store _ _ =>
      moves_control (fun slot => by cases slot <;> rfl) (.inl rfl) same (fun _ => trivial)
        fun _ => trivial)) fun _ => same
  refine .bind (.on (ensures_metadataWrite
    (fun data encoded => ⟨.inr (stepped data encoded), ?_⟩) (fun _ => ⟨.inl rfl, trivial⟩)
    (fun _ data encoded => ⟨.inr (stepped data encoded), trivial⟩) (.inl rfl)
    fun data encoded => .inr (stepped data encoded)))
  exact .bind (.onlyIf (fun _ => walks_confirmImage (consumes _ rfl)) fun _ => consumes _ rfl)

end Gizos.Loader
