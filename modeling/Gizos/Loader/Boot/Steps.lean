import Gizos.Fault.Moves
import Gizos.Loader.Boot.Startup
import Gizos.Loader.Package.Effects

/-! # The durable steps of a startup

Every change a startup makes to the machine is one of a few steps, each with the guard under
which the loader takes it. What the loader keeps in memory is a part of the machine, so that a
guard can speak about what the loader believed at that moment.
-/
namespace Gizos.Loader

open Fault Pal Gizos.Bundle

/-- Size and digest of an image. -/
abbrev ImageId : Type := Nat × Bytes

/-- The image a record is about. -/
def Metadata.image (metadata : Metadata) : ImageId :=
  (metadata.imageSize.toNat, metadata.imageChecksum.string)

/-- The partitions and the digest, which every loader on a device shares. -/
structure Device where
  /-- Partition 1. -/
  h2loaderPartitionId : Nat
  /-- Partition 2. -/
  appPartitionId : Nat
  /-- The digest of images. -/
  digest : DigestApi

/-- The partition a record is about. -/
def Device.partition (device : Device) : Slot → Option Nat
  | .stage => none
  | .partition1 => some device.h2loaderPartitionId
  | .partition2 => some device.appPartitionId

/-- A partition starts with an image. -/
def Device.Holds (device : Device) (store : Storage) (partition : Nat) (image : ImageId) : Prop :=
  HoldsImage device.digest store partition image.1 image.2

/-- The device a loader is configured for. -/
def BootConfig.device (config : BootConfig) : Device :=
  ⟨config.h2loaderPartitionId, config.appPartitionId, config.package.digest⟩

/-- The image that runs, as the loader records it. -/
def BootConfig.activeImage (config : BootConfig) : ImageId :=
  (metadataFromIdentity config.activeIdentity).image

/-- The record that is stored in a slot. -/
def Machine.record (machine : Machine) (slot : Slot) : Option Metadata :=
  (machine.pref.slot slot).bind (metadataDecode slot)

/-- A valid record is stored in a slot. -/
structure Machine.Records (machine : Machine) (slot : Slot) (metadata : Metadata) : Prop where
  stored : machine.record slot = some metadata
  valid : metadata.valid = true

/-- What the steps of a call depend on: the device, the image that makes the call, and its
manufacturing gate on the bypass flag and the summary in memory. -/
structure Caller where
  device : Device
  /-- The image that runs. -/
  activeImage : ImageId
  /-- The manufacturing gate. -/
  gate : Bool → MfgSummary → Bool

/-- The caller a loader is. -/
def BootConfig.caller (config : BootConfig) : Caller where
  device := config.device
  activeImage := config.activeImage
  gate bypass mfg := bypass || config.mfgRequiredTotal = 0 ||
    mfgSummaryIsPassed mfg config.mfgRequiredTotal

/-- What a caller may rest on when it records an image for a partition: it has found the image
there, it runs from there, or the record named the image before. -/
def Caller.Vouches (caller : Caller) (machine : Machine) (slot : Slot) (partition : Nat)
    (image : ImageId) : Prop :=
  caller.device.Holds machine.store partition image ∨
    (machine.running = partition ∧ image = caller.activeImage) ∨
    ∃ metadata, machine.Records slot metadata ∧ metadata.image = image

/-- Where the identity of a recorded image comes from: the running image or a stored record. -/
def Caller.Originates (caller : Caller) (machine : Machine) (image : ImageId) : Prop :=
  image = caller.activeImage ∨
    ∃ slot metadata, machine.Records slot metadata ∧ metadata.image = image

/-- What has to hold for a partition to be armed as the next one: it has a valid record, and an
application in partition 2 has passed the manufacturing gate. -/
def Caller.Arms (caller : Caller) (start machine : Machine) (partition : Nat) : Prop :=
  NoWriteSince start.store machine.store ∧
    ∃ slot metadata, caller.device.partition slot = some partition ∧
    machine.Records slot metadata ∧
    (slot = .partition2 → machine.status.partition2 = metadata ∧
      (metadata.role = .app → caller.gate machine.mfgGateBypass machine.status.mfg = true))

/-- The steps of a call that began in `start`. -/
inductive BootStep (caller : Caller) (start : Machine) : Machine → Machine → Prop where
  /-- The loader's memory changes. -/
  | memory (machine : Machine) (status : Status) :
    BootStep caller start machine { machine with status }
  /-- The running image is confirmed. -/
  | confirm (machine : Machine) :
    BootStep caller start machine { machine with confirmed := true }
  /-- Preferences other than the records change, and the boot intent to a known one. -/
  | control (machine : Machine) (pref : Preferences)
    (slots : ∀ slot, pref.slot slot = machine.pref.slot slot)
    (intent : pref.bootIntent = machine.pref.bootIntent ∨ pref.bootIntent = some intentLoader ∨
      pref.bootIntent = some intentAuto) :
    BootStep caller start machine { machine with pref }
  /-- Files change. -/
  | files (machine : Machine) (store : Storage) (images : store.images = machine.store.images)
    (writing : NoWriteSince machine.store store) :
    BootStep caller start machine { machine with store }
  /-- An image is written to a partition that neither runs nor boots next, and has no record. -/
  | transfer (machine : Machine) (slot : Slot) (partition : Nat) (store : Storage)
    (named : caller.device.partition slot = some partition)
    (elsewhere : machine.running ≠ partition)
    (unrecorded : ∀ metadata, ¬machine.Records slot metadata)
    (next : machine.next = start.next ∨ machine.next = machine.running)
    (confined : Confined partition machine.store store) :
    BootStep caller start machine { machine with store }
  /-- A record is removed or made invalid. -/
  | discard (machine : Machine) (slot : Slot) (value : Option Bytes)
    (empty : value = none ∨ value = metadataEncode slot .zero) :
    BootStep caller start machine { machine with pref := machine.pref.withSlot slot value }
  /-- An image is recorded for a partition. -/
  | record (machine : Machine) (slot : Slot) (partition : Nat) (metadata : Metadata)
    (data : Bytes) (named : caller.device.partition slot = some partition)
    (encoded : metadataEncode slot metadata = some data) (terminated : metadata.Terminated)
    (vouched : caller.Vouches machine slot partition metadata.image)
    (origin : caller.Originates machine metadata.image) :
    BootStep caller start machine { machine with pref := machine.pref.withSlot slot (some data) }
  /-- The next boot partition is armed, or put back to what it was. -/
  | next (machine : Machine) (partition : Nat)
    (armed : partition = start.next ∨ caller.Arms start machine partition) :
    BootStep caller start machine { machine with next := partition }

/-- The loader's memory agrees with what is stored: a record that is valid in memory is the
stored one. -/
def Machine.Synced (machine : Machine) : Prop :=
  ∀ slot, (machine.status.slot slot).valid = true →
    machine.record slot = some (machine.status.slot slot)

theorem Machine.Synced.records {machine : Machine} (synced : machine.Synced) {slot : Slot}
    (valid : (machine.status.slot slot).valid = true) :
    machine.Records slot (machine.status.slot slot) :=
  ⟨synced slot valid, valid⟩

theorem Machine.record_withSlot (machine : Machine) (slot : Slot) (value : Option Bytes) :
    ({ machine with pref := machine.pref.withSlot slot value } : Machine).record slot =
      value.bind (metadataDecode slot) := by
  simp [Machine.record]

theorem Machine.record_withSlot_of_ne (machine : Machine) {slot other : Slot}
    (value : Option Bytes) (different : other ≠ slot) :
    ({ machine with pref := machine.pref.withSlot slot value } : Machine).record other =
      machine.record other := by
  simp only [Machine.record, Preferences.slot_withSlot_of_ne _ _ different]

@[simp] theorem Status.slot_withSlot (status : Status) (slot : Slot) (metadata : Metadata) :
    (status.withSlot slot metadata).slot slot = metadata := by
  cases slot <;> rfl

theorem Status.slot_withSlot_of_ne (status : Status) {slot other : Slot} (metadata : Metadata)
    (different : other ≠ slot) : (status.withSlot slot metadata).slot other =
      status.slot other := by
  cases slot <;> cases other <;> first | rfl | exact absurd rfl different

/-- A record that is gone or has been made invalid is no record. -/
theorem Machine.not_records {machine : Machine} {slot : Slot}
    (empty : machine.pref.slot slot = none ∨ machine.pref.slot slot = metadataEncode slot .zero)
    (metadata : Metadata) : ¬machine.Records slot metadata := by
  rintro ⟨stored, valid⟩
  rw [Machine.record] at stored
  rcases empty with gone | zero
  · rw [gone] at stored
    cases stored
  · have encoded := metadataEncode_zero slot
    rw [zero, encoded, Option.bind_some,
      metadataDecode_encode Metadata.zero_terminated encoded] at stored
    cases stored
    cases valid

theorem not_records_discard (machine : Machine) {slot : Slot} {value : Option Bytes}
    (empty : value = none ∨ value = metadataEncode slot .zero) (metadata : Metadata) :
    ¬({ machine with pref := machine.pref.withSlot slot value } : Machine).Records slot
      metadata :=
  Machine.not_records (by simpa using empty) metadata

/-- Memory stays in agreement when a record and its copy in memory are written together. -/
theorem Machine.Synced.write {machine : Machine} (synced : machine.Synced) {slot : Slot}
    {metadata : Metadata} {data : Bytes} (terminated : metadata.Terminated)
    (encoded : metadataEncode slot metadata = some data) :
    ({ machine with
      pref := machine.pref.withSlot slot (some data)
      status := machine.status.withSlot slot metadata } : Machine).Synced := by
  intro other valid
  by_cases same : other = slot
  · subst same
    change ({ machine with pref := machine.pref.withSlot other (some data) } : Machine).record
      other =
      some ((machine.status.withSlot other metadata).slot other)
    rw [Machine.record_withSlot, Status.slot_withSlot]
    exact metadataDecode_encode terminated encoded
  · change ((machine.status.withSlot slot metadata).slot other).valid = true at valid
    change ({ machine with pref := machine.pref.withSlot slot (some data) } : Machine).record
      other =
      some ((machine.status.withSlot slot metadata).slot other)
    rw [Status.slot_withSlot_of_ne _ _ same] at valid ⊢
    rw [Machine.record_withSlot_of_ne _ _ same]
    exact synced other valid

end Gizos.Loader
