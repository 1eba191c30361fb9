import Gizos.Loader.Boot.State

/-! # Loader startup and reboot commands

`h2_loader_startup`, the reboot commands and the functions they are made of
(`h2_loader_boot.c`). Events for an observer are left out; callbacks are platform calls.
-/
namespace Gizos.Loader

open Fault Pal Gizos.Bundle Fault.Program

/-- A value that need not be there. -/
def orDefault {σ α : Type} (default : α) (body : Routine σ α) : Routine σ α :=
  body.recovering fun code => if code = errNotFound then pure default else fail code

/-- `read_control_fields`: the boot intent and the last result. -/
def readControlFields : Routine Preferences (Nat × Int) := do
  match ← (probe : Routine Preferences Unit).attempt with
  | .error code => if code = errNotFound then pure (intentLoader, 0) else fail code
  | .ok _ => do
    let fields ← closingAfter do
      let intent ← orDefault intentLoader (lookup Preferences.bootIntent)
      let result ← orDefault 0 (lookup Preferences.lastResult)
      pure (intent, result)
    require (fields.1 = intentLoader ∨ fields.1 = intentAuto) errFormat
    pure fields

/-- Reads one record into the status, which keeps what was decoded also when the close fails. -/
def readSlot (slot : Slot) : BootRoutine Unit := do
  let (metadata, result) ← onPref (metadataLoad slot)
  cache fun status => status.withSlot slot metadata
  let _ ← Program.conclude result
  pure ()

/-- `h2_loader_read_pref_status`, into the cached status. -/
def readPrefStatus : BootRoutine Unit := do
  cache fun _ => {}
  let (intent, result) ← onPref readControlFields
  cache fun status => { status with bootIntent := intent, lastResult := result }
  readSlot .stage
  readSlot .partition1
  readSlot .partition2
  let (mfg, present) ← onPref mfgRead
  cache fun status => { status with mfg := if present then mfg else .ofSteps 0 [] }

/-- The configured next boot partition, or the running one where there is no such setting. -/
def refreshNext : BootRoutine Unit := do
  match ← (probe : BootRoutine Unit).attempt with
  | .ok _ => update fun machine =>
      { machine with status := { machine.status with nextPartition := machine.next } }
  | .error code =>
    if code = errUnsupported then
      cache fun status => { status with nextPartition := status.runningPartition }
    else fail code

/-- `refresh_partitions`. -/
def refreshPartitions : BootRoutine Unit := do
  probe
  update fun machine =>
    { machine with status := { machine.status with runningPartition := machine.running } }
  refreshNext

/-- `partition_is_bootable`. -/
def partitionIsBootable (partition : Nat) : BootRoutine Bool := do
  match ← (probe : BootRoutine Unit).attempt with
  | .error code => if code = errUnsupported then pure true else fail code
  | .ok _ => do
    match ← read fun machine : Machine => machine.listed partition with
    | some bootable => pure bootable
    | none => fail errNotFound

/-- Writes a record, and then the status. -/
def writeRecord (slot : Slot) (metadata : Metadata) : BootRoutine Unit := do
  onPref (metadataWrite slot metadata)
  cache fun status => status.withSlot slot metadata

/-- `h2_loader_set_last_result`. -/
def setLastResult (result : Int) : BootRoutine Unit := do
  onPref (transaction probe fun pref => { pref with lastResult := some result })
  cache fun status => { status with lastResult := result }

/-- `fail_recovery`. -/
def failRecovery {α : Type} (result : Int) : BootRoutine α := do
  (setLastResult result).ignoring
  fail result

/-- A part of the startup whose failure ends the startup. -/
def recovered {α : Type} (body : BootRoutine α) : BootRoutine α := body.recovering failRecovery

/-- `remove_optional_file`. -/
def removeOptionalFile (path : Bytes) : Routine Storage Unit :=
  if path = [] then pure () else fsRemoveOptional path

/-- `finish_stage`. -/
def finishStage (packagePath : Bytes) : BootRoutine Unit := do
  onPref (metadataWrite .stage .zero)
  onStorage (removeOptionalFile packagePath)
  onPref (metadataClear .stage)

/-- `pref_set_u32` of the boot intent. -/
def setIntent (intent : Nat) : BootRoutine Unit :=
  onPref (transaction probe fun pref => { pref with bootIntent := some intent })

/-- `h2_pal_power_set_next_boot_partition`. -/
def setNext (partition : Nat) : BootRoutine Unit :=
  act fun machine => { machine with next := partition }

/-- Puts the next boot partition and the intent back after a failure. -/
def restore (next intent : Nat) (code : Int) : BootRoutine Unit := do
  (setNext next).ignoring
  (setIntent intent).ignoring
  fail code

/-- The platform's confirmation of the running image, a callback. -/
def confirmImage : BootRoutine Unit := do
  probe
  update fun machine => { machine with confirmed := true }

/-- `stage_matches_inspection`. -/
def stageMatchesInspection (stage : Metadata) (inspection : Inspection) : Bool :=
  stage.valid && !inspection.legacy && stage.role = inspection.manifest.role &&
    stage.imageSize = inspection.manifest.imageSize &&
    stage.imageChecksum.string = inspection.manifest.imageSha256.string &&
    stage.version.string = inspection.manifest.version.string &&
    stage.board.string = inspection.manifest.board.string &&
    stage.target.string = inspection.manifest.target.string

/-- The identity of the staged package, as an install checks it. -/
def stagedIdentity (stage : Metadata) : StagedIdentity where
  valid := true
  version := .copy _ stage.version.string
  checksum := .copy _ stage.packageChecksum.string
  size := stage.packageSize

/-- `h2_loader_startup_action_t`. -/
inductive StartupAction where
  /-- `H2_LOADER_STARTUP_ACTION_COMMAND_MODE`. -/
  | commandMode
  /-- `H2_LOADER_STARTUP_ACTION_REBOOTING_APP`. -/
  | rebootingApp
  /-- `H2_LOADER_STARTUP_ACTION_REBOOTING_H2LOADER`. -/
  | rebootingH2loader
deriving Repr, DecidableEq

namespace BootConfig

variable (config : BootConfig)

/-- `h2_loader_read_status`, into the cached status. -/
def readStatus : BootRoutine Unit := do
  readPrefStatus
  cache fun status => { status with capabilities := config.hardwareCapabilities }
  refreshPartitions

/-- The record `seed_running_metadata` writes. -/
def seedRecord (stored : Metadata) : Metadata :=
  let active := metadataFromIdentity config.activeIdentity
  if stored.valid && stored.imageSize = active.imageSize &&
      stored.imageChecksum.string = active.imageChecksum.string then
    { active with
      packageChecksum := .copy _ stored.packageChecksum.string
      packageSize := stored.packageSize }
  else active

/-- `seed_running_metadata`. -/
def seedRunningMetadata : BootRoutine Unit := do
  let status ← cached
  match config.slotForPartition status.runningPartition with
  | none => fail errInvalidState
  | some slot => do
    require (identityValid config.activeIdentity) errInvalidState
    onlyIf (!metadataMatchesIdentity (status.slot slot) config.activeIdentity)
      (writeRecord slot (config.seedRecord (status.slot slot)))

/-- The checks of `inspect_current_stage`. -/
def examineStage (stage : Metadata) : Routine Storage Inspection := do
  config.package.verifyPath config.package.packagePath stage.packageSize
    stage.packageChecksum.string
  let inspection ← config.package.inspectPath config.package.packagePath
  require (stageMatchesInspection stage inspection) errFormat
  pure { inspection with staged := stagedIdentity stage }

/-- `inspect_current_stage`. -/
def inspectCurrentStage : BootRoutine Inspection := do
  let status ← cached
  (onStorage (config.examineStage status.stage)).recovering fun code => do
    (onPref (metadataWrite .stage .zero)).ignoring
    cache fun status => { status with stage := .zero }
    fail code

/-- `h2_loader_package_plan_install`, with the loader's own rule for loader packages. -/
def planPartition2 (inspection : Inspection) : Routine Storage InstallPlan := do
  let plan ← config.package.planInstall inspection config.appPartitionId
  pure (if inspection.manifest.role = .h2loader then ⟨true, false⟩ else plan)

/-- `write_partition_2`. -/
def writePartition2 (inspection : Inspection) : BootRoutine Unit := do
  let plan ← onStorage (config.planPartition2 inspection)
  onlyIf plan.updateApp (writeRecord .partition2 .zero)
  onStorage (config.package.installTo inspection config.appPartitionId plan)
  let status ← cached
  let installed ← conclude (metadataFromStage status.stage)
  writeRecord .partition2 installed

/-- `prepare_disruptive`. -/
def prepareDisruptive : BootRoutine Unit := onlyIf config.beforeDisruptive probe

/-- `set_next_and_reboot`; `transition` says whether there is a transition callback. -/
def setNextAndReboot (partition intent : Nat) (transition : Bool) : BootRoutine Unit := do
  let status ← cached
  probe
  let previous ← read Machine.next
  config.prepareDisruptive
  setIntent intent
  (setNext partition).recovering fun code => do
    (setIntent status.bootIntent).ignoring
    fail code
  (onlyIf transition probe).recovering (restore previous status.bootIntent)
  (probe : BootRoutine Unit).recovering (restore previous status.bootIntent)
  cache fun status => { status with bootIntent := intent, nextPartition := partition }

/-- The record of partition 1 after a copy. A staged image that runs is recorded for both
partitions. -/
def recordCopy : BootRoutine Metadata := do
  let status ← cached
  let copied := metadataFromIdentity config.activeIdentity
  if metadataImageEqual status.stage copied then do
    let staged ← conclude (metadataFromStage status.stage)
    writeRecord .partition2 staged
    pure staged
  else pure copied

/-- `copy_partition_2_to_1`. -/
def copyPartition2To1 : BootRoutine Unit := do
  setNext config.appPartitionId
  writeRecord .partition1 .zero
  onStorage (config.package.imageCopyTo config.activeIdentity config.appPartitionId
    config.h2loaderPartitionId)
  let copied ← config.recordCopy
  writeRecord .partition1 copied
  setLastResult 0
  config.setNextAndReboot config.h2loaderPartitionId intentAuto false

/-- A staged loader that is in both partitions. -/
def converged (status : Status) : Bool :=
  status.stage.valid && status.stage.role = .h2loader &&
    metadataImageEqual status.partition1 status.partition2 &&
    metadataImageEqual status.stage status.partition1

/-- The part of `finish_loader_stage_if_converged` for a loader that is in both partitions. -/
def finishLoaderStage : BootRoutine Unit := do
  let status ← cached
  let partition ← conclude (metadataFromStage status.stage)
  writeRecord .partition2 partition
  writeRecord .partition1 partition
  finishStage config.package.packagePath
  cache fun status => { status with stage := .zero }
  setLastResult 0

/-- `finish_loader_stage_if_converged`. -/
def finishLoaderStageIfConverged : BootRoutine Unit := do
  let status ← cached
  onlyIf (converged status) config.finishLoaderStage

/-- What has to hold for a candidate in partition 2 to be looked up with the platform. -/
def candidate (status : Status) : Bool :=
  status.partition2.valid &&
    (status.partition2.role = .app || status.partition2.role = .h2loader) &&
    (!status.stage.valid || metadataImageEqual status.stage status.partition2)

/-- `detect_rolled_back_app`. -/
def detectRolledBackApp : BootRoutine Bool := do
  let status ← cached
  if candidate status then do
    let bootable ← partitionIsBootable config.appPartitionId
    pure (!bootable)
  else pure false

/-- `mount_file_points`. -/
def mountFilePoints : BootRoutine Unit :=
  onlyIf config.mountFilePoint do
    probe
    probe

/-- The confirmation of the running image. -/
def confirm : BootRoutine Unit := onlyIf config.confirmActiveImage confirmImage

/-- Installs a staged package. -/
def installStage : BootRoutine Unit := do
  let status ← cached
  onlyIf status.stage.valid do
    let inspection ← config.inspectCurrentStage
    config.writePartition2 inspection

/-- The end of a startup from partition 1: boots partition 2 if it holds something to boot. -/
def launch : BootRoutine StartupAction := do
  let machine ← read (id : Machine → Machine)
  let status := machine.status
  if status.partition2.valid = false ∨
      metadataImageEqual status.partition1 status.partition2 then do
    recovered config.finishLoaderStageIfConverged
    pure .commandMode
  else if status.partition2.role = .app ∧ config.mfgGateSatisfied machine = false then
    pure .commandMode
  else do
    recovered (config.setNextAndReboot config.appPartitionId intentAuto false)
    pure .rebootingApp

/-- A startup from partition 1 with the intent to go on by itself. -/
def startAutomatically : BootRoutine StartupAction := do
  recovered config.finishLoaderStageIfConverged
  let rolledBack ← recovered config.detectRolledBackApp
  if rolledBack then pure .commandMode else do
    recovered config.installStage
    config.launch

/-- A startup from partition 1. -/
def startFromPartition1 : BootRoutine StartupAction := do
  let machine ← read (id : Machine → Machine)
  if machine.forceCommandMode ∨ machine.status.bootIntent = intentLoader then pure .commandMode
  else if machine.status.bootIntent ≠ intentAuto then failRecovery errFormat
  else config.startAutomatically

/-- A startup of a loader, by the partition it runs from. -/
def startLoader : BootRoutine StartupAction := do
  let status ← cached
  if status.runningPartition = config.appPartitionId then do
    recovered config.copyPartition2To1
    pure .rebootingH2loader
  else if status.runningPartition ≠ config.h2loaderPartitionId then failRecovery errInvalidState
  else config.startFromPartition1

/-- `h2_loader_startup`. -/
def startup : BootRoutine StartupAction := do
  recovered config.mountFilePoints
  recovered config.readStatus
  recovered config.seedRunningMetadata
  recovered config.confirm
  if config.activeIdentity.role ≠ .h2loader then pure .commandMode else config.startLoader

/-- `h2_loader_reboot_h2loader_with_transition`. -/
def rebootH2loader (transition : Bool) : BootRoutine Unit :=
  config.setNextAndReboot config.h2loaderPartitionId intentLoader transition

/-- The guard of `h2_loader_reboot_app_with_transition`. -/
def appGuard (machine : Machine) : Bool :=
  machine.status.partition2.valid && machine.status.partition2.role = .app &&
    config.mfgGateSatisfied machine

/-- `h2_loader_reboot_app_with_transition`. -/
def rebootApp (transition : Bool) : BootRoutine Unit := do
  let machine ← read (id : Machine → Machine)
  require (config.appGuard machine) errInvalidState
  config.setNextAndReboot config.appPartitionId intentAuto transition

/-- `h2_loader_reboot_upgrade_with_transition`. -/
def rebootUpgrade (transition : Bool) : BootRoutine Unit :=
  config.setNextAndReboot config.h2loaderPartitionId intentAuto transition

end BootConfig

end Gizos.Loader
