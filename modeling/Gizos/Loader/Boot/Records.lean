import Gizos.Loader.Boot.Finalize
import Gizos.Loader.Package.DataChecksum

/-! # Stored records tell the truth

Over a device's whole life, in which startups and finalizations end or are cut off anywhere, a
valid record of a partition names the image that is in the partition.
-/
namespace Gizos.Loader

open Fault Pal Gizos.Bundle Relation

/-- Every valid record of a partition names the image in it. -/
def Device.RecordsHold (device : Device) (machine : Machine) : Prop :=
  ∀ slot partition metadata, device.partition slot = some partition →
    machine.Records slot metadata → device.Holds machine.store partition metadata.image

/-- The caller runs the image it says it is. -/
def Caller.Truthful (caller : Caller) (machine : Machine) : Prop :=
  caller.device.Holds machine.store machine.running caller.activeImage

/-- What the steps of a truthful caller keep. -/
structure Caller.Sound (caller : Caller) (machine : Machine) : Prop where
  records : caller.device.RecordsHold machine
  truthful : caller.Truthful machine

/-- The two partitions are different ones. -/
def Device.Distinct (device : Device) : Prop :=
  device.h2loaderPartitionId ≠ device.appPartitionId

variable {device : Device} {caller : Caller} {start machine before after : Machine}

theorem BootConfig.Accepted.distinct {config : BootConfig} (accepted : config.Accepted) :
    config.device.Distinct :=
  accepted.different

/-- Whether an image is held depends on the bytes of the partition alone. -/
theorem Device.Holds.of_images {store final : Storage} {partition : Nat} {image : ImageId}
    (holds : device.Holds store partition image)
    (same : final.images partition = store.images partition) :
    device.Holds final partition image := by
  unfold Device.Holds HoldsImage at holds ⊢
  rw [same]
  exact holds

theorem Machine.Records.of_slot {slot : Slot} {metadata : Metadata}
    (records : after.Records slot metadata) (same : after.pref.slot slot = before.pref.slot slot) :
    before.Records slot metadata := by
  refine ⟨?_, records.valid⟩
  rw [Machine.record, ← same]
  exact records.stored

/-- Where records and images do not change, the records keep telling the truth. -/
theorem Device.RecordsHold.of_same (hold : device.RecordsHold before)
    (slots : ∀ slot, slot ≠ .stage → after.pref.slot slot = before.pref.slot slot)
    (images : after.store.images = before.store.images) : device.RecordsHold after := by
  intro slot partition metadata named records
  have listed : slot ≠ .stage := by
    rintro rfl
    cases named
  have recorded := records.of_slot (slots slot listed)
  exact (hold slot partition metadata named recorded).of_images (by rw [images])

theorem Machine.Records.of_withSlot {slot other : Slot} {value : Option Bytes}
    {metadata : Metadata}
    (records : ({ machine with pref := machine.pref.withSlot slot value } : Machine).Records other
      metadata) (different : other ≠ slot) : machine.Records other metadata :=
  ⟨(machine.record_withSlot_of_ne value different).symm.trans records.stored, records.valid⟩

theorem Machine.Records.of_write {slot : Slot} {written found : Metadata} {data : Bytes}
    (encoded : metadataEncode slot written = some data)
    (records : ({ machine with pref := machine.pref.withSlot slot (some data) } : Machine).Records
      slot found) : found = written := by
  have stored := (machine.record_withSlot slot (some data)).symm.trans records.stored
  exact metadataDecode_encode_eq encoded stored

theorem BootStep.sound (distinct : caller.device.Distinct) (kept : caller.Sound before)
    (step : BootStep caller start before after) : caller.Sound after := by
  obtain ⟨hold, truthful⟩ := kept
  cases step with
  | control pref slots intent => exact ⟨hold.of_same (fun slot _ => slots slot) rfl, truthful⟩
  | files store images writing =>
    exact ⟨hold.of_same (fun _ _ => rfl) images, Device.Holds.of_images truthful (by rw [images])⟩
  | transfer slot partition store named elsewhere unrecorded next confined =>
    refine ⟨?_, Device.Holds.of_images truthful (confined.images _ elsewhere)⟩
    intro other otherPartition metadata otherNamed records
    have recorded : before.Records other metadata := { records with }
    have different : otherPartition ≠ partition := by
      rintro rfl
      obtain rfl : slot = other := by
        cases slot <;> cases other <;> simp_all [Device.partition, Device.Distinct]
      exact unrecorded metadata recorded
    exact (hold other _ metadata otherNamed recorded).of_images (confined.images _ different)
  | discard slot value empty =>
    refine ⟨fun other partition metadata named records => ?_, truthful⟩
    by_cases same : other = slot
    · subst same
      exact absurd records (not_records_discard before empty metadata)
    · exact hold other partition metadata named (records.of_withSlot same)
  | record slot partition metadata data named encoded terminated vouched origin =>
    refine ⟨fun other otherPartition found otherNamed records => ?_, truthful⟩
    by_cases same : other = slot
    · subst same
      obtain rfl := records.of_write encoded
      obtain rfl := Option.some.inj (named.symm.trans otherNamed)
      rcases vouched with seen | ⟨here, image⟩ | ⟨earlier, recorded, image⟩
      · exact seen
      · rw [image, ← here]
        exact truthful
      · rw [← image]
        exact hold other _ earlier named recorded
    · exact hold other otherPartition found otherNamed (records.of_withSlot same)
  | _ => exact ⟨hold.of_same (fun _ _ => rfl) rfl, truthful⟩

/-- A truthful call that moves by steps keeps the records true. -/
theorem Caller.Sound.along (distinct : caller.device.Distinct)
    (moved : ReflTransGen (BootStep caller start) before after) (sound : caller.Sound before) :
    caller.Sound after :=
  holds_along (fun _ _ kept step => step.sound distinct kept) moved sound

/-- One turn in the life of a device. Startups and finalizations may fail or be cut off at any
point, and after a reset whichever partition the platform chose runs. -/
inductive Device.Turn (device : Device) : Machine → Machine → Prop where
  /-- A loader starts up. -/
  | startup (config : BootConfig) (before after : Machine) (accepted : config.Accepted)
    (equipped : config.Equipped) (configured : config.device = device)
    (truthful : config.caller.Truthful before)
    (ran : Reaches Answer.Any config.startup before after) : Turn device before after
  /-- An application is finalized. -/
  | finalization (call : Finalization) (before after : Machine)
    (named : device.appPartitionId = call.appPartitionId)
    (here : before.running = call.runningPartitionId)
    (truthful : (call.caller device).Truthful before)
    (ran : Reaches Answer.Any call.finalize before after) : Turn device before after
  /-- The device boots; what was in memory is lost. -/
  | boot (before : Machine) (running : Nat) (status : Status) :
    Turn device before { before with
      running
      status
      store := { before.store with writing := none }
      confirmed := false }
  /-- Others stage packages, change files and settings, and leave the partitions and their
  records alone. -/
  | outside (before after : Machine)
    (slots : ∀ slot, slot ≠ .stage → after.pref.slot slot = before.pref.slot slot)
    (images : after.store.images = before.store.images) : Turn device before after

theorem Device.Turn.recordsHold (distinct : device.Distinct) (hold : device.RecordsHold before)
    (turn : device.Turn before after) : device.RecordsHold after := by
  cases turn with
  | startup config _ _ accepted equipped configured truthful ran =>
    subst configured
    have moved := Moves.reached (walks_startup accepted equipped) ran
    have sound : config.caller.Sound before := ⟨hold, truthful⟩
    exact (sound.along distinct moved).records
  | finalization call _ _ named here truthful ran =>
    have walks : Walks (call.caller device) before call.finalize _ before :=
      walks_finalize named here
    have sound : (call.caller device).Sound before := ⟨hold, truthful⟩
    exact (sound.along distinct (Moves.reached walks ran)).records
  | boot running status => exact hold.of_same (fun _ _ => rfl) rfl
  | outside _ _ slots images => exact hold.of_same slots images

/-- In every state a device can reach, a valid record of a partition names the image that the
partition starts with. -/
theorem records_hold_throughout (distinct : device.Distinct) {first last : Machine}
    (initially : device.RecordsHold first) (life : ReflTransGen device.Turn first last) :
    device.RecordsHold last :=
  holds_along (fun _ _ hold turn => turn.recordsHold distinct hold) life initially

/-- A digest of length and sum, for examples. -/
def benchDigest : DigestApi where
  hash input := UInt8.ofNat input.length :: List.replicate 31 input.sum
  size _ := by simp

/-- The identity of an example image. -/
def benchIdentity (role : ImageRole) (image : Bytes) : Manifest where
  format := 2
  role := role
  board := .copy _ [98]
  target := .copy _ [116]
  version := .copy _ [49]
  imageSize := UInt64.ofNat image.length
  imageSha256 := .copy _ (benchDigest.hex image)

/-- The package backends of an example loader. -/
def benchPackage : PackageConfig where
  digest := benchDigest
  capacity _ := 16
  imageReader := true
  imageWriter := true
  disk := false
  eraseBlockSize := 4
  appEntryPath := [97]
  packagePath := [112]
  dataRoot := [100]
  installedChecksumPath := [99]
  zlib := ⟨fun _ _ => ([], .corrupt)⟩
  pixa := ⟨fun _ _ => ([], false)⟩
  crc32 := summedBytes
  clearData := none

/-- The package backends of an example loader that unpacks; a package has two bytes in front of what
is stored in it. -/
def sampleBackends : PackageConfig :=
  { benchPackage with
    digest := AcceptedPackage.sampleDigest
    appEntryPath := AcceptedPackage.sampleAppPath
    zlib := ⟨fun _ input => ([input.drop 2], .ended 0)⟩ }

/-- An example package. -/
def stagedPackage : Bytes :=
  120 :: 156 :: AcceptedPackage.samplePackage AcceptedPackage.separateFiles [1, 2, 3, 4]

/-- An example loader. -/
def benchConfig : BootConfig where
  package := benchPackage
  h2loaderPartitionId := 1
  appPartitionId := 2
  activeIdentity := benchIdentity .h2loader [1, 2, 3]
  mfgRequiredTotal := 0
  hardwareCapabilities := 0
  mountFilePoint := false
  confirmActiveImage := false
  beforeDisruptive := false

/-- An example device that runs an image from partition 2. -/
def benchMachine (image : Bytes) : Machine where
  pref := {}
  store := {
    files := fun _ => none
    images := fun partition => if partition = 2 then image else [] }
  running := 2
  next := 2

/-- The example loader is configured as `h2_loader_init` requires. -/
theorem benchConfig_accepted : benchConfig.Accepted where
  h2loader := by decide
  app := by decide
  different := by decide
  identity := by decide +kernel

theorem benchConfig_equipped : benchConfig.Equipped :=
  ⟨.inl rfl, fun _ configured => nomatch configured⟩

theorem benchConfig_truthful : benchConfig.caller.Truthful (benchMachine [1, 2, 3]) :=
  ⟨by decide +kernel, by decide +kernel⟩

/-- The loader of the example has copied itself to partition 1 and has recorded that. -/
theorem records_hold_after_copy :
    ∃ last : Machine, (last.record .partition1).map Metadata.valid = some true ∧
      benchConfig.device.RecordsHold last := by
  refine ⟨(benchConfig.startup (fun _ => {}) 0
    (benchMachine [1, 2, 3])).state, by decide +kernel, ?_⟩
  have blank : benchConfig.device.RecordsHold (benchMachine [1, 2, 3]) := by
    intro slot partition metadata _ records
    cases slot <;> cases records.stored
  exact records_hold_throughout benchConfig_accepted.distinct blank (.single (.startup _ _ _
    benchConfig_accepted benchConfig_equipped rfl benchConfig_truthful
    ⟨_, fun _ => trivial, 0, rfl⟩))

end Gizos.Loader
