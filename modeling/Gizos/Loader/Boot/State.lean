import Gizos.Loader.Metadata
import Gizos.Loader.Mfg.Record
import Gizos.Loader.Package.Install

/-! # The machine the loader runs on

What persists over a reset (preferences, storage, the next boot partition), what the platform
says about itself, and what the loader keeps in memory (`h2_loader_t`), with the small functions
of `h2_loader_boot.c` on them.
-/
namespace Gizos.Loader

open Fault Pal Gizos.Bundle

/-- `H2_LOADER_BOOT_INTENT_LOADER`. -/
def intentLoader : Nat := 1
/-- `H2_LOADER_BOOT_INTENT_AUTO`. -/
def intentAuto : Nat := 2

/-- `h2_loader_status_t`, as far as decisions read it. -/
structure Status where
  /-- Stored boot intent. -/
  bootIntent : Nat := intentLoader
  /-- Stored result of the last operation. -/
  lastResult : Int := 0
  /-- Record of the staged package. -/
  stage : Metadata := .zero
  /-- Record of partition 1. -/
  partition1 : Metadata := .zero
  /-- Record of partition 2. -/
  partition2 : Metadata := .zero
  /-- Manufacturing summary. -/
  mfg : MfgSummary := .ofSteps 0 []
  /-- The partition that runs. -/
  runningPartition : Nat := 0
  /-- The partition that boots next. -/
  nextPartition : Nat := 0
  /-- What the hardware can do. -/
  capabilities : UInt32 := 0
deriving DecidableEq

/-- The machine: storage, platform and the loader's memory. -/
structure Machine where
  /-- The preference namespace. -/
  pref : Preferences
  /-- Files and partitions. -/
  store : Storage
  /-- The partition that runs. -/
  running : Nat
  /-- The partition that boots next. -/
  next : Nat
  /-- The confirmation of the running image has returned success. -/
  confirmed : Bool := false
  /-- The partitions the platform lists, and which of them it would boot. -/
  listed : Nat → Option Bool := fun _ => none
  mfgGateBypass : Bool := false
  implementedCommands : UInt32 := 0
  commandAvailability : UInt32 := 0
  forceCommandMode : Bool := false
  /-- The cached status. -/
  status : Status := {}

/-- A routine of the loader. -/
abbrev BootRoutine (α : Type) : Type := Routine Machine α

/-- The preferences of the machine. -/
def Machine.prefPart : Component Machine Preferences where
  get := Machine.pref
  set pref machine := { machine with pref }
  get_set _ _ := rfl
  set_get _ := rfl
  set_set _ _ _ := rfl

/-- The storage of the machine. -/
def Machine.storePart : Component Machine Storage where
  get := Machine.store
  set store machine := { machine with store }
  get_set _ _ := rfl
  set_get _ := rfl
  set_set _ _ _ := rfl

/-- A routine on the preferences. -/
def onPref {α : Type} (body : Routine Preferences α) : BootRoutine α := body.on Machine.prefPart

/-- A routine on files and partitions. -/
def onStorage {α : Type} (body : Routine Storage α) : BootRoutine α := body.on Machine.storePart

/-- The cached status. -/
def cached : BootRoutine Status := Program.read Machine.status

/-- A change of the cached status. -/
def cache (change : Status → Status) : BootRoutine Unit :=
  Program.update fun machine => { machine with status := change machine.status }

/-- `h2_loader_config_t`. -/
structure BootConfig where
  /-- Package handling. -/
  package : PackageConfig
  /-- Partition 1, which holds the loader. -/
  h2loaderPartitionId : Nat
  /-- Partition 2, which holds the application. -/
  appPartitionId : Nat
  /-- The image that runs. -/
  activeIdentity : Manifest
  /-- Steps the manufacturing record has to show as passed. -/
  mfgRequiredTotal : Nat
  /-- What the hardware can do. -/
  hardwareCapabilities : UInt32
  /-- File points have to be mounted. -/
  mountFilePoint : Bool
  /-- The running image has to be confirmed. -/
  confirmActiveImage : Bool
  /-- A callback runs before a disruptive action. -/
  beforeDisruptive : Bool

/-- `metadata_from_identity`. -/
def metadataFromIdentity (identity : Manifest) : Metadata where
  valid := true
  packageChecksum := .zero _
  packageSize := 0
  imageChecksum := .copy _ identity.imageSha256.string
  imageSize := identity.imageSize
  role := identity.role
  version := .copy _ identity.version.string
  board := .copy _ identity.board.string
  target := .copy _ identity.target.string

/-- `identity_valid`. -/
def identityValid (identity : Manifest) : Bool :=
  metadataValidate .partition1 (metadataFromIdentity identity)

/-- `metadata_matches_identity`. -/
def metadataMatchesIdentity (metadata : Metadata) (identity : Manifest) : Bool :=
  identityValid identity && metadataImageEqual metadata (metadataFromIdentity identity)

/-- What `h2_loader_init` requires of a configuration. -/
structure BootConfig.Accepted (config : BootConfig) : Prop where
  h2loader : config.h2loaderPartitionId ≠ 0
  app : config.appPartitionId ≠ 0
  different : config.h2loaderPartitionId ≠ config.appPartitionId
  identity : identityValid config.activeIdentity = true

namespace BootConfig

variable (config : BootConfig)

/-- `slot_for_partition`. -/
def slotForPartition (partition : Nat) : Option Slot :=
  if partition = config.h2loaderPartitionId then some .partition1
  else if partition = config.appPartitionId then some .partition2
  else none

/-- `mfg_gate_satisfied`. -/
def mfgGateSatisfied (machine : Machine) : Bool :=
  machine.mfgGateBypass || config.mfgRequiredTotal = 0 ||
    mfgSummaryIsPassed machine.status.mfg config.mfgRequiredTotal

end BootConfig

/-- The record of a slot in a status. -/
def Status.slot (status : Status) : Slot → Metadata
  | .stage => status.stage
  | .partition1 => status.partition1
  | .partition2 => status.partition2

/-- Replaces the record of a slot in a status. -/
def Status.withSlot (status : Status) : Slot → Metadata → Status
  | .stage, metadata => { status with stage := metadata }
  | .partition1, metadata => { status with partition1 := metadata }
  | .partition2, metadata => { status with partition2 := metadata }

end Gizos.Loader
