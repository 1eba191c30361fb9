import Gizos.Loader.Boot.Records

/-! # The next partition can be booted

Whatever happens to a device that boots the partition that is set, that partition holds a
complete image that nobody is writing to, as long as every startup begins with the partition that
runs as the next one. An image is complete when it is one of the known images, from its first byte
to its last. A startup that begins with partition 2 armed can overwrite it.
-/
namespace Gizos.Loader

open Fault Pal Gizos.Bundle Relation

/-- The partition that boots next holds a complete image, and is not being written. -/
structure Device.Bootable (device : Device) (known : ImageId → Prop) (machine : Machine) :
    Prop where
  complete : ∃ image, known image ∧ device.Holds machine.store machine.next image
  untouched : machine.store.writing ≠ some machine.next

/-- The records are about known images. -/
def Machine.Catalogued (known : ImageId → Prop) (machine : Machine) : Prop :=
  ∀ slot metadata, machine.Records slot metadata → known metadata.image

/-- What the steps of a call keep that began with nothing armed. -/
structure Caller.Guarded (caller : Caller) (known : ImageId → Prop) (start machine : Machine) :
    Prop where
  sound : caller.Sound machine
  catalogued : machine.Catalogued known
  running : machine.running = start.running
  intact : machine.store.writing ≠ some machine.running
  bootable : caller.device.Bootable known machine

variable {device : Device} {caller : Caller} {known : ImageId → Prop}
  {start before after : Machine}

/-- Where neither images nor the next partition change, the next partition stays bootable. -/
theorem Device.Bootable.of_same (bootable : device.Bootable known before)
    (images : after.store.images = before.store.images)
    (writing : NoWriteSince before.store after.store) (next : after.next = before.next) :
    device.Bootable known after := by
  obtain ⟨⟨image, listed, holds⟩, untouched⟩ := bootable
  refine ⟨⟨image, listed, ?_⟩, ?_⟩
  · rw [next]
    exact holds.of_images (by rw [images])
  · rw [next]
    rcases writing with none | same
    · rw [none]
      nofun
    · rw [same]
      exact untouched

theorem Caller.Truthful.bootable (truthful : caller.Truthful after)
    (listed : known caller.activeImage) (next : after.next = after.running)
    (intact : after.store.writing ≠ some after.running) :
    caller.device.Bootable known after :=
  ⟨⟨caller.activeImage, listed, by rw [next]; exact truthful⟩, by rw [next]; exact intact⟩

/-- Where the records do not change, they stay catalogued. -/
theorem Machine.Catalogued.of_same (catalogued : before.Catalogued known)
    (slots : ∀ slot, after.pref.slot slot = before.pref.slot slot) : after.Catalogued known :=
  fun slot metadata records => catalogued slot metadata (records.of_slot (slots slot))

/-- Writing a record for an image of known origin keeps the records catalogued. -/
theorem Machine.Catalogued.write {slot : Slot} {metadata : Metadata} {data : Bytes}
    (catalogued : before.Catalogued known)
    (encoded : metadataEncode slot metadata = some data) (listed : known metadata.image) :
    ({ before with pref := before.pref.withSlot slot (some data) } : Machine).Catalogued known := by
  intro other found records
  by_cases same : other = slot
  · subst same
    rw [records.of_write encoded]
    exact listed
  · exact catalogued other found (records.of_withSlot same)

/-- One step of a truthful caller that began with nothing armed keeps the next partition
bootable. -/
theorem BootStep.guarded (distinct : caller.device.Distinct) (listed : known caller.activeImage)
    (fresh : start.next = start.running) (idle : start.store.writing = none)
    (kept : caller.Guarded known start before) (step : BootStep caller start before after) :
    caller.Guarded known start after := by
  have sound := step.sound distinct kept.sound
  obtain ⟨⟨hold, truthful⟩, catalogued, running, intact, bootable⟩ := kept
  have unchanged : ∀ store : Storage, NoWriteSince before.store store →
      store.writing ≠ some before.running := by
    rintro store (none | same)
    · rw [none]
      nofun
    · rw [same]
      exact intact
  cases step with
  | memory status | confirm =>
    exact ⟨sound, catalogued.of_same fun _ => rfl, running, intact,
      bootable.of_same rfl (.refl _) rfl⟩
  | control pref slots intent =>
    exact ⟨sound, catalogued.of_same slots, running, intact, bootable.of_same rfl (.refl _) rfl⟩
  | files store images writing =>
    exact ⟨sound, catalogued.of_same fun _ => rfl, running, unchanged store writing,
      bootable.of_same images writing rfl⟩
  | discard slot value empty =>
    refine ⟨sound, fun other metadata records => ?_, running, intact,
      bootable.of_same rfl (.refl _) rfl⟩
    by_cases same : other = slot
    · subst same
      exact absurd records (not_records_discard before empty metadata)
    · exact catalogued other metadata (records.of_withSlot same)
  | record slot partition metadata data named encoded terminated vouched origin =>
    have origins : known metadata.image := by
      rcases origin with active | ⟨other, earlier, recorded, image⟩
      · rw [active]
        exact listed
      · rw [← image]
        exact catalogued other earlier recorded
    exact ⟨sound, catalogued.write encoded origins, running, intact,
      bootable.of_same rfl (.refl _) rfl⟩
  | transfer slot partition store named elsewhere unrecorded next confined =>
    -- The write goes to a partition that neither runs nor boots next.
    have still : store.writing ≠ some before.running := by
      rcases confined.writing with earlier | here
      · exact unchanged store earlier
      · rw [here]
        exact fun same => elsewhere (Option.some.inj same).symm
    have aimed : before.next = before.running := by
      rcases next with same | same
      · rw [same, fresh, running]
      · exact same
    exact ⟨sound, catalogued.of_same fun _ => rfl, running, still,
      sound.truthful.bootable listed aimed still⟩
  | next partition armed =>
    refine ⟨sound, catalogued.of_same fun _ => rfl, running, intact, ?_⟩
    rcases armed with same | ⟨quiet, slot, metadata, named, records, -⟩
    · exact sound.truthful.bootable listed (by rw [same, fresh, ← running]) intact
    · refine ⟨⟨metadata.image, catalogued slot metadata records,
        hold slot partition metadata named records⟩, ?_⟩
      have closed : before.store.writing = none := quiet.elim id fun same => same.trans idle
      rw [closed]
      nofun

/-- The partition that runs boots next. -/
def Machine.RunsNext (machine : Machine) : Prop := machine.next = machine.running

/-- A boot of the partition that is set. What was in memory is lost. -/
def Machine.booted (machine : Machine) (status : Status) : Machine :=
  { machine with
    running := machine.next
    status
    store := { machine.store with writing := none }
    confirmed := false }

/-- One turn in the life of a device whose platform boots the partition that is set. A startup
may fail or be cut off at any point; `begins` says of which machines one may begin. -/
inductive Device.BootTurn (device : Device) (known : ImageId → Prop) (begins : Machine → Prop) :
    Machine → Machine → Prop where
  | boot (before : Machine) (status : Status) :
    BootTurn device known begins before (before.booted status)
  /-- A loader that is a known image starts up. A startup that ends has closed what it wrote to, and
  one that is cut off is followed by a boot. -/
  | startup (config : BootConfig) (before after : Machine) (accepted : config.Accepted)
    (equipped : config.Equipped) (configured : config.device = device)
    (truthful : config.caller.Truthful before) (listed : known config.activeImage)
    (idle : before.store.writing = none) (begun : begins before)
    (ran : Reaches Answer.Any config.startup before after) :
    BootTurn device known begins before after
  /-- Others stage known images and change files and settings, and leave alone what boots. -/
  | outside (before after : Machine)
    (slots : ∀ slot, slot ≠ .stage → after.pref.slot slot = before.pref.slot slot)
    (staged : ∀ metadata, after.Records .stage metadata → known metadata.image)
    (images : after.store.images = before.store.images)
    (writing : after.store.writing = before.store.writing) (next : after.next = before.next) :
    BootTurn device known begins before after

/-- What holds between the turns of a device. -/
structure Device.Alive (device : Device) (known : ImageId → Prop) (machine : Machine) : Prop where
  records : device.RecordsHold machine
  catalogued : machine.Catalogued known
  bootable : device.Bootable known machine

theorem Device.BootTurn.alive (distinct : device.Distinct) (alive : device.Alive known before)
    (turn : device.BootTurn known Machine.RunsNext before after) : device.Alive known after := by
  obtain ⟨records, catalogued, bootable⟩ := alive
  cases turn with
  | boot _ status =>
    exact ⟨records.of_same (fun _ _ => rfl) rfl, catalogued.of_same fun _ => rfl,
      bootable.of_same rfl (.inl rfl) rfl⟩
  | startup config _ _ accepted equipped configured truthful listed idle fresh ran =>
    subst configured
    have moved := Moves.reached (walks_startup accepted equipped) ran
    have intact : before.store.writing ≠ some before.running := by
      rw [idle]
      nofun
    have guarded : config.caller.Guarded known before before :=
      ⟨⟨records, truthful⟩, catalogued, rfl, intact, bootable⟩
    have final := holds_along
      (fun _ _ kept step => step.guarded distinct listed fresh idle kept) moved guarded
    exact ⟨final.sound.records, final.catalogued, final.bootable⟩
  | outside _ _ slots staged images writing next =>
    refine ⟨records.of_same slots images, fun slot metadata found => ?_,
      bootable.of_same images (.inr writing) next⟩
    by_cases same : slot = .stage
    · subst same
      exact staged metadata found
    · exact catalogued slot metadata (found.of_slot (slots slot same))

/-- A device that once could boot its next partition can do so at every point of its life, if a
startup begins only where the partition that runs boots next. -/
theorem next_always_bootable (distinct : device.Distinct) {first last : Machine}
    (records : device.RecordsHold first) (catalogued : first.Catalogued known)
    (bootable : device.Bootable known first)
    (life : ReflTransGen (device.BootTurn known Machine.RunsNext) first last) :
    device.Bootable known last := by
  have alive : device.Alive known last :=
    holds_along (fun _ _ alive turn => turn.alive distinct alive) life
      ⟨records, catalogued, bootable⟩
  exact alive.bootable

/-- The example loader has copied itself, and its device can boot the copy. -/
theorem bootable_after_copy :
    ∃ last : Machine, last.next = 1 ∧ benchConfig.device.Bootable
      (fun image => image = benchConfig.activeImage) last := by
  refine ⟨(benchConfig.startup (fun _ => {}) 0
    (benchMachine [1, 2, 3])).state, by decide +kernel, ?_⟩
  have blank : ∀ slot metadata, ¬(benchMachine [1, 2, 3]).Records slot metadata := by
    intro slot metadata records
    cases slot <;> cases records.stored
  have complete : benchConfig.device.Bootable
      (fun image => image = benchConfig.activeImage)
      (benchMachine [1, 2, 3]) := benchConfig_truthful.bootable rfl rfl nofun
  exact next_always_bootable benchConfig_accepted.distinct
    (fun slot _ metadata _ records => absurd records (blank slot metadata))
    (fun slot metadata records => absurd records (blank slot metadata)) complete
    (.single (.startup _ _ _ benchConfig_accepted benchConfig_equipped rfl
      benchConfig_truthful rfl rfl rfl ⟨_, fun _ => trivial, 0, rfl⟩))

/-- The machine after a package has been staged. -/
def Machine.staging (machine : Machine) (metadata : Metadata) (files : Bytes → Option Bytes) :
    Machine :=
  { machine with
    pref := machine.pref.withSlot .stage (metadataEncode .stage metadata)
    store := { machine.store with files } }

theorem Device.BootTurn.staging {begins : Machine → Prop} {metadata : Metadata}
    (listed : known metadata.image) (files : Bytes → Option Bytes) :
    device.BootTurn known begins before (before.staging metadata files) := by
  refine .outside _ _ (fun slot other => Preferences.slot_withSlot_of_ne _ _ other)
    (fun found records => ?_) rfl rfl rfl
  have stored : ({ before with
      pref := before.pref.withSlot .stage (metadataEncode .stage metadata) } : Machine).Records
      .stage found := ⟨records.stored, records.valid⟩
  cases encoded : metadataEncode .stage metadata with
  | none =>
    rw [encoded] at stored
    exact absurd stored (not_records_discard before (.inl rfl) found)
  | some data =>
    rw [encoded] at stored
    rw [stored.of_write encoded]
    exact listed

/-- The identity of an image on another example device. -/
def sampleIdentity (role : ImageRole) (image : Bytes) : Manifest :=
  { benchIdentity role image with
    version := .copy _ (ascii "v")
    imageSha256 := .copy _ (sampleBackends.digest.hex image) }

/-- The loader of that device. -/
def sampleConfig : BootConfig :=
  { benchConfig with
    package := sampleBackends
    activeIdentity := sampleIdentity .h2loader [1, 2, 3] }

/-- The images of the device: the loader, an application and the one in the package. -/
def sampleImages : List ImageId :=
  [sampleIdentity .h2loader [1, 2, 3], sampleIdentity .app [5, 6, 7, 8],
    sampleIdentity .app [1, 2, 3, 4]].map fun identity => (metadataFromIdentity identity).image

/-- The device runs its loader, and an application is recorded for partition 2. -/
def sampleMachine : Machine where
  pref := ({ bootIntent := some intentAuto } : Preferences).withSlot .partition2
    (metadataEncode .partition2 (metadataFromIdentity (sampleIdentity .app [5, 6, 7, 8])))
  store := {
    files := fun _ => none
    images := fun partition => if partition = 1 then [1, 2, 3] else [5, 6, 7, 8] }
  running := 1
  next := 1
  listed := fun _ => some true

/-- The reboot into the application fails, and so does putting the next partition back. -/
@[irreducible] def stillRunning : Machine :=
  (sampleConfig.startup (fun index => if index = 29 ∨ index = 30 then { code := Pal.errIo } else {})
    0 sampleMachine).state

/-- The record of a staged package. -/
@[irreducible] def stagedRecord : Metadata :=
  { metadataFromIdentity (sampleIdentity .app [1, 2, 3, 4]) with
    packageSize := UInt64.ofNat stagedPackage.length
    packageChecksum := .copy _ (sampleBackends.digest.hex stagedPackage) }

/-- The package is staged. -/
@[irreducible] def packageStaged : Machine :=
  stillRunning.staging stagedRecord fun path =>
    if path = sampleBackends.packagePath then some stagedPackage else none

/-- Power is lost while the second startup writes the image of the package, and the partition is
left erased. -/
@[irreducible] def cutWhileWriting : Machine :=
  (sampleConfig.startup (fun index => if index = 59 then { reset := true, damage := some [] }
    else {}) 0
    packageStaged).state

theorem sampleConfig_accepted : sampleConfig.Accepted where
  h2loader := by decide
  app := by decide
  different := by decide
  identity := by decide +kernel

/-- The records of the example device are about images in their partitions. -/
theorem sampleMachine_records {slot : Slot} {metadata : Metadata}
    (records : sampleMachine.Records slot metadata) : slot = .partition2 ∧
      metadata = metadataFromIdentity (sampleIdentity .app [5, 6, 7, 8]) := by
  cases slot with
  | stage | partition1 => cases records.stored
  | partition2 =>
    have stored : sampleMachine.record .partition2 =
        some (metadataFromIdentity (sampleIdentity .app [5, 6, 7, 8])) := by decide +kernel
    exact ⟨rfl, Option.some.inj (records.stored.symm.trans stored)⟩

/-- A startup that could neither reboot nor put the next partition back leaves partition 2 armed.
The next startup writes to it all the same, and there is no image in it when that is cut off. -/
theorem armed_partition_overwritten :
    let device := sampleConfig.device
    let known := fun image => image ∈ sampleImages
    device.Distinct ∧ device.RecordsHold sampleMachine ∧ sampleMachine.Catalogued known ∧
      device.Bootable known sampleMachine ∧
      ReflTransGen (device.BootTurn known fun _ => True) sampleMachine cutWhileWriting ∧
      cutWhileWriting.next = 2 ∧ cutWhileWriting.store.images 2 = [] ∧
      ¬device.Bootable known cutWhileWriting := by
  intro device known
  have left : (stillRunning.running, stillRunning.store.images 1, stillRunning.store.writing) =
      (1, [1, 2, 3], none) := by decide +kernel
  have cut : (cutWhileWriting.next, cutWhileWriting.store.images 2, cutWhileWriting.store.writing) =
      (2, [], some 2) := by decide +kernel
  simp only [Prod.mk.injEq] at left cut
  have equipped : sampleConfig.Equipped := ⟨.inl rfl, fun _ configured => nomatch configured⟩
  have holds : device.Holds sampleMachine.store 1 sampleConfig.activeImage :=
    ⟨by decide +kernel, by decide +kernel⟩
  have listed : known sampleConfig.activeImage := List.mem_cons_self
  have staged : packageStaged.store.images = stillRunning.store.images ∧
      packageStaged.running = stillRunning.running ∧
      packageStaged.store.writing = stillRunning.store.writing := by
    unfold packageStaged
    exact ⟨rfl, rfl, rfl⟩
  have first : device.BootTurn known (fun _ => True) sampleMachine stillRunning := by
    refine .startup sampleConfig _ _ sampleConfig_accepted equipped rfl holds listed rfl trivial ?_
    unfold stillRunning
    exact ⟨_, fun _ => trivial, 0, rfl⟩
  have second : device.BootTurn known (fun _ => True) stillRunning packageStaged := by
    unfold packageStaged
    exact .staging (by decide +kernel : stagedRecord.image ∈ sampleImages) _
  have third : device.BootTurn known (fun _ => True) packageStaged cutWhileWriting := by
    refine .startup sampleConfig _ _ sampleConfig_accepted equipped rfl ?_ listed
      (staged.2.2.trans left.2.2) trivial ?_
    · unfold Caller.Truthful
      rw [staged.2.1, left.1]
      exact holds.of_images (by rw [staged.1, left.2.1]; rfl)
    · unfold cutWhileWriting
      exact ⟨_, fun _ => trivial, 0, rfl⟩
  refine ⟨sampleConfig_accepted.distinct, ?_, ?_, ?_, .tail (.tail (.single first) second) third,
    cut.1, cut.2.1, fun bootable => bootable.untouched ?_⟩
  · intro slot partition metadata named records
    obtain ⟨rfl, rfl⟩ := sampleMachine_records records
    obtain rfl := Option.some.inj named
    exact ⟨by decide +kernel, by decide +kernel⟩
  · intro slot metadata records
    obtain ⟨-, rfl⟩ := sampleMachine_records records
    exact List.mem_cons_of_mem _ List.mem_cons_self
  · exact ⟨⟨_, listed, holds⟩, nofun⟩
  · rw [cut.1, cut.2.2]

end Gizos.Loader
