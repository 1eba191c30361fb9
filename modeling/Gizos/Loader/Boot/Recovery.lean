import Gizos.Loader.Boot.Working

/-! # An interrupted copy is completed

A loader that runs from partition 2 copies itself to partition 1. However often that was cut off,
the first startup on working backends completes it.
-/
namespace Gizos.Loader

open Fault Pal Gizos.Bundle Relation

variable {config : BootConfig} {caller : Caller} {start machine before after : Machine}

theorem BootStep.legible (legible : before.Legible) (step : BootStep caller start before after) :
    after.Legible := by
  cases step with
  | control pref slots intent =>
    refine ⟨fun slot blob stored => legible.records slot blob ((slots slot).symm.trans stored),
      fun value stored => ?_⟩
    rcases intent with same | known | known
    · exact legible.intent value (same.symm.trans stored)
    · exact .inl (Option.some.inj (stored.symm.trans known))
    · exact .inr (Option.some.inj (stored.symm.trans known))
  | discard slot value empty =>
    refine legible.withSlot fun blob stored => ?_
    rcases empty with rfl | rfl
    · cases stored
    · exact ⟨.zero, metadataDecode_encode Metadata.zero_terminated stored⟩
  | record slot partition metadata data named encoded terminated vouched origin =>
    refine legible.withSlot fun blob stored => ⟨metadata, ?_⟩
    rw [← Option.some.inj stored]
    exact metadataDecode_encode terminated encoded
  | _ => exact legible.of_pref (fun _ => rfl) rfl

/-- What a copy needs beside a platform that works: the digest of the running image is a string,
images can be written, and the image fits. -/
structure BootConfig.CopiesItself (config : BootConfig) : Prop where
  terminated : config.activeIdentity.imageSha256.Terminated
  readable : config.package.imageReader = true ∨ config.package.disk = true
  writable : config.package.imageWriter = true ∨ config.package.disk = true
  /-- The image fits into both partitions. -/
  fits : ∀ slot partition, config.device.partition slot = some partition →
    config.package.capacity partition = 0 ∨
      config.activeIdentity.imageSize.toNat ≤ config.package.capacity partition

/-- The record a copy leaves for partition 1. -/
def BootConfig.copiedRecord (config : BootConfig) (stage : Metadata) : Metadata :=
  if metadataImageEqual stage (metadataFromIdentity config.activeIdentity) then stage
  else metadataFromIdentity config.activeIdentity

theorem isLowerHex_hexDigit : ∀ value < 16, isLowerHex (hexDigit value) = true := by
  decide

theorem isLowerSha256Hex_hex (digest : DigestApi) (input : Bytes) :
    isLowerSha256Hex (digest.hex input) = true := by
  have size := digest.size input
  unfold isLowerSha256Hex DigestApi.hex digestToHex
  simp only [Bool.and_eq_true, decide_eq_true_eq, List.all_eq_true, List.mem_flatMap]
  refine ⟨by simp [List.length_flatMap, List.map_const', size], ?_⟩
  rintro char ⟨byte, -, mem⟩
  have bound := byte.toNat_lt
  simp only [List.mem_cons, List.not_mem_nil, or_false] at mem
  rcases mem with rfl | rfl
  · exact isLowerHex_hexDigit _ (by omega)
  · exact isLowerHex_hexDigit _ (by omega)

/-- What a completed copy leaves. -/
structure BootConfig.Copied (config : BootConfig) (before after : Machine) : Prop where
  /-- Partition 1 has the bytes of partition 2. -/
  bytes : (after.store.images config.h2loaderPartitionId).take config.activeImage.1 =
    (before.store.images config.appPartitionId).take config.activeImage.1
  holds : config.device.Holds after.store config.h2loaderPartitionId config.activeImage
  /-- The other partitions are as they were. -/
  images : ∀ partition, partition ≠ config.h2loaderPartitionId →
    after.store.images partition = before.store.images partition
  files : after.store.files = before.store.files
  partition1 : after.Records .partition1 (config.copiedRecord before.status.stage)
  /-- A staged image that runs is recorded for partition 2. -/
  partition2 : if metadataImageEqual before.status.stage
    (metadataFromIdentity config.activeIdentity)
    then after.Records .partition2 before.status.stage
    else after.pref.slot .partition2 = before.pref.slot .partition2
  stage : after.pref.slot .stage = before.pref.slot .stage
  next : after.next = config.h2loaderPartitionId
  intent : after.pref.bootIntent = some intentAuto
  listed : after.listed = before.listed

theorem achieves_recordCopied {onReturn : Unit → Machine → Prop} {metadata : Metadata}
    (checked : metadataValidate .partition1 metadata = true)
    (returns : ∀ data status, metadataEncode .partition1 metadata = some data →
      onReturn () { machine with
        pref := { machine.pref.withSlot .partition1 (some data) with
          lastResult := some 0
          bootIntent := some intentAuto }
        next := config.h2loaderPartitionId
        status }) :
    Achieves Answer.Works (do
      writeRecord .partition1 metadata
      setLastResult 0
      config.setNextAndReboot config.h2loaderPartitionId intentAuto false) onReturn machine := by
  refine .bind (achieves_writeRecord checked fun data encoded => ?_)
  refine .bind (.bind (.on (achieves_transaction (achieves_probe rfl) (.update
    (achieves_setNextAndReboot ?_)))))
  exact returns data _ encoded

/-- The digest of a running image that is held is as the copy wants it. -/
theorem BootConfig.CopiesItself.image (able : config.CopiesItself) {store : Storage}
    {partition : Nat} (held : config.device.Holds store partition config.activeImage) :
    isLowerSha256Hex config.activeIdentity.imageSha256.string = true ∧
      config.activeImage =
        (config.activeIdentity.imageSize.toNat, config.activeIdentity.imageSha256.string) := by
  have digest : config.activeImage.2 = config.activeIdentity.imageSha256.string :=
    able.terminated.string_copy
  have lower : isLowerSha256Hex config.activeIdentity.imageSha256.string = true := by
    rw [← digest, ← held.2]
    exact isLowerSha256Hex_hex _ _
  exact ⟨lower, config.activeImage_eq lower⟩

theorem BootConfig.copiedRecord_terminated {stage : Metadata} (terminated : stage.Terminated) :
    (config.copiedRecord stage).Terminated := by
  unfold BootConfig.copiedRecord
  split
  · exact terminated
  · exact metadataFromIdentity_terminated _

theorem BootConfig.copiedRecord_matches (config : BootConfig) (stage : Metadata) :
    metadataImageEqual (config.copiedRecord stage)
      (metadataFromIdentity config.activeIdentity) = true := by
  unfold BootConfig.copiedRecord
  split
  · assumption
  · simp [metadataImageEqual_iff, metadataFromIdentity]

/-- A partition with the bytes of the running image, and its records, make a completed copy. -/
theorem BootConfig.copied (held : config.device.Holds machine.store config.appPartitionId
      config.activeImage) (terminated : machine.status.stage.Terminated) {content data : Bytes}
    (whole : config.activeImage.1 ≤ content.length)
    (bytes : content.take config.activeImage.1 =
      (machine.store.images config.appPartitionId).take config.activeImage.1)
    {pref : Preferences} (first : pref.slot .partition1 = some data)
    (encoded : metadataEncode .partition1 (config.copiedRecord machine.status.stage) = some data)
    (second : if metadataImageEqual machine.status.stage
        (metadataFromIdentity config.activeIdentity)
      then ({ machine with pref } : Machine).Records .partition2 machine.status.stage
      else pref.slot .partition2 = machine.pref.slot .partition2)
    (stage : pref.slot .stage = machine.pref.slot .stage)
    (intent : pref.bootIntent = some intentAuto) (status : Status) (cursor : Nat) :
    config.Copied machine { machine with
      store := { machine.store.withImage config.h2loaderPartitionId content with
        writing := none, cursor }
      pref
      next := config.h2loaderPartitionId
      status } := by
  have written : (Function.update machine.store.images config.h2loaderPartitionId content)
      config.h2loaderPartitionId = content := Function.update_self ..
  refine ⟨?_, ?_, ?_, rfl, ?_, ?_, stage, rfl, intent, rfl⟩
  · exact (congrArg _ written).trans bytes
  · refine ⟨?_, ?_⟩
    · exact whole.trans (Nat.le_of_eq (congrArg List.length written).symm)
    · exact (congrArg config.package.digest.hex ((congrArg _ written).trans bytes)).trans held.2
  · exact fun partition other => Function.update_of_ne other ..
  · refine ⟨?_, (metadataImageEqual_iff.mp (config.copiedRecord_matches _)).1⟩
    refine Option.bind_eq_some_iff.mpr ⟨data, first, ?_⟩
    exact metadataDecode_encode (config.copiedRecord_terminated terminated) encoded
  · split at second
    · rename_i same
      rw [if_pos same]
      exact { second with }
    · rename_i other
      rw [if_neg other]
      exact second

theorem achieves_recordCopy {onReturn : Metadata → Machine → Prop}
    (staged : metadataValidate .stage machine.status.stage = true)
    (runs : metadataImageEqual machine.status.stage
        (metadataFromIdentity config.activeIdentity) = true →
      ∀ data, metadataEncode .partition2 machine.status.stage = some data →
        onReturn machine.status.stage { machine with
          pref := machine.pref.withSlot .partition2 (some data)
          status := machine.status.withSlot .partition2 machine.status.stage })
    (other : ¬metadataImageEqual machine.status.stage
        (metadataFromIdentity config.activeIdentity) = true →
      onReturn (metadataFromIdentity config.activeIdentity) machine) :
    Achieves Answer.Works config.recordCopy onReturn machine := by
  apply Ensures.bind
  apply Ensures.read
  dsimp only
  split
  · rename_i same
    have usable := (metadataImageEqual_iff.mp same).1
    have concluded : metadataFromStage machine.status.stage = .ok machine.status.stage :=
      if_pos ⟨staged, usable⟩
    rw [concluded]
    refine .bind (.pure (.bind (achieves_writeRecord
      (metadataValidate_of_stage (by decide) usable staged) fun data encoded => ?_)))
    exact .pure (runs same data encoded)
  · rename_i different
    exact .pure (other different)

/-- A loader that runs from partition 2 copies itself, if its stage can be read. -/
theorem achieves_copyPartition2To1 (accepted : config.Accepted) (able : config.CopiesItself)
    (terminated : machine.status.stage.Terminated)
    (staged : metadataValidate .stage machine.status.stage = true)
    (held : config.device.Holds machine.store config.appPartitionId config.activeImage) :
    Achieves Answer.Works config.copyPartition2To1 (fun _ after => config.Copied machine after)
      machine := by
  obtain ⟨lower, image⟩ := able.image held
  have source : HoldsImage config.package.digest machine.store config.appPartitionId
      config.activeIdentity.imageSize.toNat config.activeIdentity.imageSha256.string := by
    have here := held
    rw [image] at here
    exact here
  have valid : metadataValidate .partition1 (metadataFromIdentity config.activeIdentity) = true :=
    accepted.identity
  have positive := ((metadataValidate_partition (by decide) rfl).mp valid).2.1
  refine .bind (achieves_setNext ?_)
  refine .bind (achieves_writeRecord (by decide) fun zeroed zeroEncoded => ?_)
  refine .bind (.on (ImageConfig.achieves_imageCopyTo able.readable able.writable
    positive accepted.app accepted.h2loader accepted.different.symm lower
    (able.fits .partition2 _ rfl) (able.fits .partition1 _ rfl) source ?_))
  intro content cursor whole copied
  refine .bind (achieves_recordCopy staged ?_ ?_)
  · intro same second secondEncoded
    have runs : metadataImageEqual machine.status.stage
        (metadataFromIdentity config.activeIdentity) = true := same
    have usable := (metadataImageEqual_iff.mp runs).1
    have record : config.copiedRecord machine.status.stage = machine.status.stage := if_pos runs
    have checked := metadataValidate_of_stage (by decide : Slot.partition1 ≠ .stage) usable staged
    refine achieves_recordCopied checked fun data status encoded => ?_
    refine config.copied held terminated whole copied ?_ (record.symm ▸ encoded)
      ?_ ?_ ?_ status cursor
    · rfl
    · rw [if_pos runs]
      refine ⟨?_, usable⟩
      exact Option.bind_eq_some_iff.mpr ⟨second, rfl, metadataDecode_encode terminated
        secondEncoded⟩
    · rfl
    · rfl
  · intro different
    have record : config.copiedRecord machine.status.stage =
        metadataFromIdentity config.activeIdentity := if_neg different
    refine achieves_recordCopied valid fun data status encoded => ?_
    refine config.copied held terminated whole copied ?_ (record.symm ▸ encoded)
      ?_ ?_ ?_ status cursor
    · rfl
    · exact (if_neg different).mpr rfl
    · rfl
    · rfl

/-- A device from which the loader in partition 2 can copy itself, with its bytes there. -/
structure BootConfig.Resumable (config : BootConfig) (bytes : Bytes) (machine : Machine) :
    Prop where
  running : machine.running = config.appPartitionId
  legible : machine.Legible
  bytes : machine.store.images config.appPartitionId = bytes
  held : config.device.Holds machine.store config.appPartitionId config.activeImage

variable {bytes : Bytes}

/-- A step does not touch the partition the loader runs from. -/
theorem BootStep.resumable (ready : config.Resumable bytes before)
    (step : BootStep config.caller start before after) : config.Resumable bytes after := by
  have kept : after.running = before.running ∧ after.store.images config.appPartitionId =
      before.store.images config.appPartitionId := by
    cases step with
    | files store images writing => exact ⟨rfl, by rw [images]⟩
    | transfer slot partition store named elsewhere unrecorded next confined =>
      rw [ready.running] at elsewhere
      exact ⟨rfl, confined.images _ elsewhere⟩
    | _ => exact ⟨rfl, rfl⟩
  exact ⟨kept.1.trans ready.running, step.legible ready.legible, kept.2.trans ready.bytes,
    ready.held.of_images kept.2⟩

/-- What may happen before the copy is completed: startups that end or are cut off anywhere, and
boots of the same loader. -/
inductive BootConfig.Attempt (config : BootConfig) : Machine → Machine → Prop where
  /-- A startup, whatever the platform answers. -/
  | startup (before after : Machine) (ran : Reaches Answer.Any config.startup before after) :
    Attempt config before after
  /-- A reset; what was in memory is lost. -/
  | boot (before : Machine) (status : Status) (listed : Nat → Option Bool) (forced : Bool) :
    Attempt config before { before with
      status
      listed
      forceCommandMode := forced
      store := { before.store with writing := none }
      confirmed := false }

theorem BootConfig.Attempt.resumable (accepted : config.Accepted) (equipped : config.Equipped)
    (ready : config.Resumable bytes before) (attempt : config.Attempt before after) :
    config.Resumable bytes after := by
  cases attempt with
  | startup _ ran =>
    have moved := Moves.reached (walks_startup accepted equipped) ran
    exact holds_along (fun _ _ kept step => step.resumable kept) moved ready
  | boot status listed forced =>
    exact ⟨ready.running, ready.legible.of_pref (fun _ => rfl) rfl, ready.bytes, ready.held⟩

theorem achieves_startup_copies (accepted : config.Accepted) (able : config.CopiesItself)
    (loader : config.activeIdentity.role = .h2loader) (ready : config.Resumable bytes machine) :
    Achieves Answer.Works config.startup (fun action after => action = .rebootingH2loader ∧
      ∃ prepared, config.Prepared .partition2 machine prepared ∧ config.Copied prepared after)
      machine := by
  have found : config.slotForPartition machine.running = some .partition2 := by
    rw [BootConfig.slotForPartition, ready.running, if_neg accepted.different.symm, if_pos rfl]
  refine achieves_startup accepted ready.legible found fun prepared here => ?_
  rw [if_neg (not_not.mpr loader)]
  refine .bind (.read ?_)
  rw [if_pos (here.runningPartition.trans ready.running)]
  obtain ⟨terminated, checked⟩ := machine.record_checked .stage
  rw [← here.records .stage (by decide)] at terminated checked
  have held : config.device.Holds prepared.store config.appPartitionId config.activeImage := by
    rw [here.store]
    exact ready.held
  refine .bind (Achieves.recovered ((achieves_copyPartition2To1 accepted able terminated
    checked held).imp fun _ after copied => ?_))
  exact .pure ⟨rfl, prepared, here, copied⟩

/-- However often the copy of a loader that runs from partition 2 was attempted and cut off, a
startup on a working platform completes it: partition 1 holds the loader and is recorded so, and
boots next by itself. -/
theorem interrupted_copy_completed (accepted : config.Accepted) (equipped : config.Equipped)
    (able : config.CopiesItself) (loader : config.activeIdentity.role = .h2loader)
    {first last : Machine} (running : first.running = config.appPartitionId)
    (legible : first.Legible) (truthful : config.caller.Truthful first)
    (attempts : ReflTransGen config.Attempt first last) :
    Achieves Answer.Works config.startup (fun action after => action = .rebootingH2loader ∧
      (after.store.images config.h2loaderPartitionId).take config.activeImage.1 =
        (first.store.images config.appPartitionId).take config.activeImage.1 ∧
      config.device.Holds after.store config.h2loaderPartitionId config.activeImage ∧
      (∃ metadata, after.Records .partition1 metadata ∧
        metadataImageEqual metadata (metadataFromIdentity config.activeIdentity) = true) ∧
      after.next = config.h2loaderPartitionId ∧ after.pref.bootIntent = some intentAuto) last := by
  have held : config.device.Holds first.store config.appPartitionId config.activeImage := by
    rw [← running]
    exact truthful
  have ready := holds_along (fun _ _ kept attempt => BootConfig.Attempt.resumable accepted equipped
    kept attempt) attempts ⟨running, legible, rfl, held⟩
  refine (achieves_startup_copies accepted able loader ready).imp ?_
  rintro action after ⟨reboots, prepared, here, copied⟩
  refine ⟨reboots, ?_, copied.holds, ⟨_, copied.partition1, config.copiedRecord_matches _⟩,
    copied.next, copied.intent⟩
  rw [copied.bytes, here.store, ready.bytes]

/-- The example loader is cut off while it copies itself, and then completes the copy. -/
theorem bench_copy_completed :
    ∃ cut : Machine, cut.store.images 1 ≠ [1, 2, 3] ∧ cut.record .partition1 = some .zero ∧
      Achieves Answer.Works benchConfig.startup (fun action after =>
        action = .rebootingH2loader ∧ (after.store.images 1).take 3 = [1, 2, 3] ∧
          after.next = 1) cut := by
  have legible : (benchMachine [1, 2, 3]).Legible := by
    refine ⟨fun slot blob stored => ?_, fun intent stored => ?_⟩
    · cases slot <;> cases stored
    · cases stored
  have able : benchConfig.CopiesItself :=
    ⟨by decide +kernel, .inl rfl, .inl rfl, fun _ _ _ => .inr (by decide : 3 ≤ 16)⟩
  refine ⟨(benchConfig.startup
    (fun index => if index = 31 then { reset := true } else {}) 0 (benchMachine [1, 2, 3])).state,
    by decide +kernel, by decide +kernel, ?_⟩
  refine (interrupted_copy_completed benchConfig_accepted benchConfig_equipped able rfl rfl
    legible benchConfig_truthful (.single (.startup _ _ ⟨_, fun _ => trivial, 0, rfl⟩))).imp ?_
  exact fun action after holds => ⟨holds.1, holds.2.1, holds.2.2.2.2.1⟩

end Gizos.Loader
