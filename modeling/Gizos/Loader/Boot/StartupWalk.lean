import Gizos.Loader.Boot.Walk

/-! # A whole startup moves by its steps

The two directions of a startup: copying the running loader from partition 2 to partition 1, and
installing and booting from partition 1.
-/
namespace Gizos.Loader

open Fault Pal Gizos.Bundle PackageConfig

variable {caller : Caller} {config : BootConfig} {start machine : Machine} {α : Type}

variable {slot : Slot} {onReturn : Unit → Machine → Prop} {inspection : Inspection}

/-- A transfer that stays in its partition is a step at every point. -/
theorem walks_transfer {partition : Nat} {body : Routine Storage α} {post : α → Storage → Prop}
    {onReturn : α → Machine → Prop} (named : config.device.partition slot = some partition)
    (elsewhere : machine.running ≠ partition)
    (unrecorded : ∀ metadata, ¬machine.Records slot metadata)
    (next : machine.next = start.next ∨ machine.next = machine.running)
    (confined : Keeps (Confined partition machine.store) body)
    (ensured : Returns Answer.Any body post machine.store)
    (returns : ∀ value store, post value store → onReturn value { machine with store }) :
    Walks config.caller start (onStorage body) onReturn machine := by
  have stepped : ∀ store, Confined partition machine.store store →
      BootStep config.caller start machine { machine with store } := fun store inside =>
    .transfer machine slot partition store named elsewhere unrecorded next inside
  have both := (confined.ensures (Confined.refl partition machine.store)).and ensured
  exact .on (both.mono
    (fun value store holds => ⟨.inr (stepped store holds.1), returns value store holds.2⟩)
    (fun _ store holds => ⟨.inr (stepped store holds.1), trivial⟩)
    fun store holds => .inr (stepped store holds.1))

/-- A loader that runs from partition 2 and has recorded itself there may boot from there. -/
theorem arms_running (settled : start.Settled machine) (seeded : config.Seeded machine .partition2)
    (loader : config.activeIdentity.role = .h2loader) :
    config.caller.Arms start machine config.appPartitionId := by
  have valid := (metadataImageEqual_iff.mp seeded).1
  refine ⟨settled.idle, .partition2, machine.status.partition2, rfl,
    settled.synced.records valid, fun _ => ⟨rfl, fun app => ?_⟩⟩
  have role : machine.status.partition2.role = config.activeIdentity.role :=
    role_eq_of_metadataImageEqual seeded
  rw [role, loader] at app
  cases app

/-- A digest of the right form is recorded as it is. -/
theorem BootConfig.activeImage_eq
    (lower : isLowerSha256Hex config.activeIdentity.imageSha256.string = true) :
    config.activeImage =
      (config.activeIdentity.imageSize.toNat, config.activeIdentity.imageSha256.string) := by
  have length : config.activeIdentity.imageSha256.string.length = 64 := by
    unfold isLowerSha256Hex at lower
    simp only [Bool.and_eq_true, decide_eq_true_eq] at lower
    exact lower.1
  have copied : (Text.copy sha256HexSize config.activeIdentity.imageSha256.string).string =
      config.activeIdentity.imageSha256.string :=
    Text.string_copy (fun _ mem => Text.cstring_nonzero mem) (by rw [length]; decide)
  exact Prod.ext rfl copied

/-- The machine of a loader that runs from partition 2 and has recorded itself there. -/
structure BootConfig.FromPartition2 (config : BootConfig) (start machine : Machine) : Prop where
  settled : start.Settled machine
  running : machine.running = config.appPartitionId
  seeded : config.Seeded machine .partition2

/-- Recording a copy names the running image for partition 2 again, and returns its record. -/
theorem walks_recordCopy {onReturn : Metadata → Machine → Prop}
    (place : config.FromPartition2 start machine)
    (returns : ∀ metadata after, config.FromPartition2 start after → after.store = machine.store →
      after.next = machine.next → metadata.Terminated → metadata.valid = true →
      metadata.image = config.activeImage → onReturn metadata after) :
    Walks config.caller start config.recordCopy onReturn machine := by
  refine .bind (walks_cached ?_)
  dsimp only
  split
  · rename_i same
    have image := image_eq_of_metadataImageEqual same
    have valid := (metadataImageEqual_iff.mp same).1
    refine .bind (.conclude fun staged accepted => ?_)
    obtain rfl := metadataFromStage_ok accepted
    have records : machine.Records .stage machine.status.stage :=
      place.settled.synced.records valid
    refine .bind (walks_writeRecord (fun data encoded => ?_) fun data encoded => ?_)
    · exact .record machine .partition2 config.appPartitionId _ data rfl encoded records.terminated
        (.inr (.inl ⟨place.running, image⟩)) (.inl image)
    · exact .pure (returns _ _ ⟨place.settled.write records.terminated encoded, place.running,
        same⟩ rfl rfl records.terminated valid image)
  · exact .pure (returns _ _ place rfl rfl (metadataFromIdentity_terminated _) rfl rfl)

/-- The record of partition 1 can be written without losing the place. -/
theorem BootConfig.FromPartition2.write (place : config.FromPartition2 start machine)
    {metadata : Metadata} {data : Bytes} (terminated : metadata.Terminated)
    (encoded : metadataEncode .partition1 metadata = some data) :
    config.FromPartition2 start { machine with
      pref := machine.pref.withSlot .partition1 (some data)
      status := machine.status.withSlot .partition1 metadata } :=
  ⟨place.settled.write terminated encoded, place.running, place.seeded⟩

theorem Machine.records_write (machine : Machine) {metadata : Metadata} {data : Bytes}
    (terminated : metadata.Terminated) (valid : metadata.valid = true)
    (encoded : metadataEncode slot metadata = some data) :
    ({ machine with pref := machine.pref.withSlot slot (some data) } : Machine).Records slot
      metadata :=
  ⟨(machine.record_withSlot slot (some data)).trans (metadataDecode_encode terminated encoded),
    valid⟩

theorem walks_copyPartition2To1 (accepted : config.Accepted)
    (loader : config.activeIdentity.role = .h2loader)
    (place : config.FromPartition2 start machine) :
    Walks config.caller start config.copyPartition2To1
      (fun _ after => NoWriteSince start.store after.store ∧ after.running = machine.running)
        machine := by
  have elsewhere : machine.running ≠ config.h2loaderPartitionId := by
    rw [place.running]
    exact accepted.different.symm
  refine .bind (moves_setNext (.inr (arms_running place.settled place.seeded loader)) ?_
    (fun _ => trivial) fun _ => trivial)
  have aimed : config.FromPartition2 start (machine.withNext config.appPartitionId) :=
    ⟨⟨place.settled.synced, place.settled.running, place.settled.intent, place.settled.idle⟩,
      place.running, place.seeded⟩
  refine .bind (walks_discard fun zeroed zeroEncoded => ?_)
  have cleared := aimed.write Metadata.zero_terminated zeroEncoded
  have named : config.device.partition .partition1 = some config.h2loaderPartitionId := rfl
  have unrecorded := not_records_discard (machine.withNext config.appPartitionId)
    (.inr zeroEncoded.symm)
  refine .bind (walks_transfer named elsewhere
    (fun metadata records => unrecorded metadata { records with })
    (.inr place.running.symm) (ImageConfig.keeps_imageCopyTo (spares_confined _ _))
    ((ImageConfig.ensures_imageCopyTo _ _).mono (fun _ _ => id) (fun _ _ _ => trivial)
      fun _ _ => trivial) ?_)
  intro _ store copied
  have filled : config.FromPartition2 start { machine.withNext config.appPartitionId with
      store
      pref := machine.pref.withSlot .partition1 (some zeroed)
      status := machine.status.withSlot .partition1 .zero } :=
    ⟨⟨cleared.settled.synced, cleared.settled.running, cleared.settled.intent, .inl copied.1⟩,
      cleared.running, cleared.seeded⟩
  refine .bind (walks_recordCopy filled fun metadata after here stored next terminated valid
    image => ?_)
  have holds : config.device.Holds after.store config.h2loaderPartitionId metadata.image := by
    rw [stored, image, config.activeImage_eq copied.2.1]
    exact copied.2.2
  refine .bind (walks_writeRecord (fun data encoded => ?_) fun data encoded => ?_)
  · exact .record after .partition1 _ metadata data rfl encoded terminated (.inl holds) (.inl image)
  have recorded := here.write terminated encoded
  have records := after.records_write terminated valid encoded
  refine .bind (walks_setLastResult ?_)
  have result := Machine.alike_withResult { after with
    pref := after.pref.withSlot .partition1 (some data)
    status := after.status.withSlot .partition1 metadata } 0
  refine walks_setNextAndReboot (.inr rfl) recorded.settled.intent (.inr ?_) (.inr ?_) ?_
  · exact ⟨here.settled.idle, .partition1, metadata, rfl, ⟨records.stored, valid⟩,
      fun second => nomatch second⟩
  · have arms := result.arms (arms_running recorded.settled recorded.seeded loader)
    rw [← show after.next = config.appPartitionId from next] at arms
    exact arms
  · intro final alike _
    have running : after.running = machine.running := here.running.trans place.running.symm
    exact ⟨by rw [alike.store]; exact here.settled.idle, alike.running.trans running⟩

/-- Memory stays in agreement when a record is forgotten in memory. -/
theorem Machine.Synced.forget (synced : machine.Synced) (slot : Slot) (value : Option Bytes) :
    ({ machine with
      pref := machine.pref.withSlot slot value
      status := machine.status.withSlot slot .zero } : Machine).Synced := by
  intro other valid
  by_cases same : other = slot
  · subst same
    rw [Status.slot_withSlot] at valid
    cases valid
  · rw [Status.slot_withSlot_of_ne _ _ same] at valid
    have stored := machine.record_withSlot_of_ne value same
    change ({ machine with pref := machine.pref.withSlot slot value } : Machine).record other =
      some ((machine.status.withSlot slot .zero).slot other)
    rw [stored, Status.slot_withSlot_of_ne _ _ same]
    exact synced other valid

theorem walks_files {body : Routine Storage α} {onReturn : α → Machine → Prop}
    (keeps : Keeps (fun store => store.images = machine.store.images ∧
      NoWriteSince machine.store store) body)
    (returns : ∀ value store, store.images = machine.store.images →
      NoWriteSince machine.store store → onReturn value { machine with store }) :
    Walks caller start (onStorage body) onReturn machine := by
  have stepped : ∀ store : Storage, store.images = machine.store.images ∧
      NoWriteSince machine.store store → BootStep caller start machine { machine with store } :=
    fun store same => .files machine store same.1 same.2
  exact .on ((keeps.ensures ⟨rfl, .refl _⟩).mono
    (fun value store same => ⟨.inr (stepped store same), returns value store same.1 same.2⟩)
    (fun _ store same => ⟨.inr (stepped store same), trivial⟩)
    fun store same => .inr (stepped store same))

/-- Finishing the stage discards its record around the removal of the package. -/
theorem walks_finishStage {path : Bytes}
    (returns : ∀ store : Storage, store.images = machine.store.images →
      NoWriteSince machine.store store →
      onReturn () { machine with store, pref := machine.pref.withSlot .stage none }) :
    Walks caller start (finishStage path) onReturn machine := by
  have discards : ∀ (machine : Machine) (value : Option Bytes),
      value = none ∨ value = metadataEncode .stage .zero → BootStep caller start machine
        { machine with pref := machine.pref.withSlot .stage value } := fun machine =>
    .discard machine .stage
  refine .bind (.on (ensures_metadataWrite
    (fun data encoded => ⟨.inr (discards _ _ (.inr encoded.symm)), ?_⟩)
    (fun _ => ⟨.inl rfl, trivial⟩)
    (fun _ _ encoded => ⟨.inr (discards _ _ (.inr encoded.symm)), trivial⟩) (.inl rfl)
    fun _ encoded => .inr (discards _ _ (.inr encoded.symm))))
  have removed : Keeps (fun store : Storage => store.images = machine.store.images ∧
      NoWriteSince machine.store store) (removeOptionalFile path) := by
    unfold removeOptionalFile
    split
    · exact .pure _
    · exact keeps_fsRemoveOptional fun _ _ same => same
  refine .bind (walks_files removed fun _ store images writing => ?_)
  have gone := returns store images writing
  have final := discards { machine with
    store
    pref := machine.pref.withSlot .stage (some data) } none (.inl rfl)
  exact .on (ensures_metadataClear ⟨.inr final, gone⟩ (fun _ => ⟨.inl rfl, trivial⟩)
    (fun _ => ⟨.inr final, trivial⟩) (.inl rfl) (.inr final))

/-- The machine of a loader that runs from partition 1 and has not touched the next partition. -/
structure BootConfig.FromPartition1 (config : BootConfig) (start machine : Machine) : Prop where
  settled : start.Settled machine
  running : machine.running = config.h2loaderPartitionId
  next : machine.next = start.next

/-- A stage that names the image of a partition's record may take its place. -/
theorem walks_recordStage {partition : Nat} (settled : start.Settled machine)
    (named : config.device.partition slot = some partition)
    (same : metadataImageEqual machine.status.stage (machine.status.slot slot) = true)
    (returns : ∀ after, start.Settled after → machine.SameBoot after →
      after.status = machine.status.withSlot slot machine.status.stage → onReturn () after) :
    Walks config.caller start (writeRecord slot machine.status.stage) onReturn machine := by
  obtain ⟨staged, recorded, -⟩ := metadataImageEqual_iff.mp same
  have records : machine.Records .stage machine.status.stage := settled.synced.records staged
  have named' := settled.synced.records recorded
  refine walks_writeRecord (fun data encoded => ?_) fun data encoded => ?_
  · exact .record machine slot partition _ data named encoded records.terminated
      (.inr (.inr ⟨_, named', (image_eq_of_metadataImageEqual same).symm⟩))
      (.inr ⟨.stage, _, records, rfl⟩)
  · exact returns _ (settled.write records.terminated encoded) ⟨rfl, rfl⟩ rfl

theorem converged_images {status : Status} (both : BootConfig.converged status = true) :
    metadataImageEqual status.stage status.partition1 = true ∧
      metadataImageEqual status.stage status.partition2 = true := by
  simp only [BootConfig.converged, Bool.and_eq_true] at both
  obtain ⟨⟨-, between⟩, first⟩ := both
  refine ⟨first, ?_⟩
  rw [metadataImageEqual_iff] at first between ⊢
  grind

theorem walks_finishLoaderStageIfConverged (place : config.FromPartition1 start machine) :
    Walks config.caller start config.finishLoaderStageIfConverged
      (fun _ after => config.FromPartition1 start after) machine := by
  refine Walks.bind (walks_cached (.onlyIf (fun both => ?_) fun _ => place))
  obtain ⟨first, second⟩ := converged_images both
  refine Walks.bind (walks_cached (Walks.bind (Walks.conclude fun partition accepted => ?_)))
  obtain rfl := metadataFromStage_ok accepted
  refine Walks.bind (walks_recordStage place.settled rfl second fun middle settled same memory =>
    ?_)
  have staged : middle.status.stage = machine.status.stage := by rw [memory]; rfl
  have kept : middle.status.slot .partition1 = machine.status.partition1 := by rw [memory]; rfl
  rw [← staged] at first ⊢
  rw [← kept] at first
  refine Walks.bind (walks_recordStage settled rfl first fun later settled' same' memory' => ?_)
  have whole := same.trans same'
  refine Walks.bind (walks_finishStage fun store images writing => ?_)
  refine Walks.bind (walks_cache (walks_setLastResult ?_))
  have forgotten := settled'.synced.forget .stage none
  refine ⟨⟨forgotten.alike ?_ ?_, settled'.running, settled'.intent, ?_⟩, ?_, ?_⟩
  · intro slot; cases slot <;> rfl
  · intro slot; cases slot <;> rfl
  · exact settled'.idle.trans writing
  · exact whole.running.trans place.running
  · exact whole.next.trans place.next

/-- Looking for a candidate that was rolled back changes nothing. -/
theorem leaves_detectRolledBackApp : Leaves id config.detectRolledBackApp := by
  refine .bind (.read _) fun status => ?_
  split
  · refine .bind (.bind (leaves_probe id).attempt fun listed => ?_) fun _ =>
      .pure _
    cases listed with
    | error code =>
      dsimp only
      split
      · exact .pure _
      · exact .fail _
    | ok _ =>
      refine .bind (.read _) fun found => ?_
      cases found with
      | none => exact .fail _
      | some bootable => exact .pure _
  · exact .pure _

/-- The image of a stage that matches a package is the image of the package's manifest. -/
theorem stageMatchesInspection_image {stage : Metadata}
    (matching : stageMatchesInspection stage inspection = true) :
    stage.valid = true ∧ inspection.legacy = false ∧
      stage.image = (inspection.manifest.imageSize.toNat,
        inspection.manifest.imageSha256.string) := by
  simp only [stageMatchesInspection, Bool.and_eq_true, Bool.not_eq_true', decide_eq_true_eq]
    at matching
  obtain ⟨⟨⟨⟨⟨⟨⟨valid, current⟩, -⟩, size⟩, checksum⟩, -⟩, -⟩, -⟩ := matching
  exact ⟨valid, current, by rw [Metadata.image, size, checksum]⟩

theorem walks_inspectCurrentStage {onReturn : Inspection → Machine → Prop}
    (returns : ∀ inspection, stageMatchesInspection machine.status.stage inspection = true →
      onReturn inspection machine) :
    Walks config.caller start config.inspectCurrentStage onReturn machine := by
  refine .bind (walks_cached (.recovering (.on ?_)))
  have examined : Leaves id (config.examineStage machine.status.stage) :=
    .bind (leaves_verifyPath _ _ _) fun _ =>
      .bind (leaves_inspectPath _) fun _ =>
      .bind (.require _ _) fun _ => .pure _
  have matched : Returns Answer.Any (config.examineStage machine.status.stage)
      (fun inspection _ => stageMatchesInspection machine.status.stage inspection = true)
        machine.store := by
    refine .after fun _ _ => .after fun inspection _ => ?_
    apply Ensures.bind
    exact .require (fun matching => .pure matching) fun _ => trivial
  refine .leaving examined (matched.mono ?_ ?_ ?_)
  · rintro inspection _ matching rfl
    exact ⟨.inl rfl, returns inspection matching⟩
  · rintro code _ - rfl
    have discards : ∀ data, metadataEncode .stage .zero = some data → BootStep config.caller start
        machine { machine with pref := machine.pref.withSlot .stage (some data) } :=
      fun data encoded => .discard machine .stage _ (.inr encoded.symm)
    refine ⟨.inl rfl, Walks.bind (.ignoring (.on (ensures_metadataWrite ?_ ?_ ?_ ?_ ?_)))⟩
    · exact fun data encoded => ⟨.inr (discards data encoded), Walks.bind (walks_cache .fail)⟩
    · exact fun _ => ⟨.inl rfl, Walks.bind (walks_cache .fail)⟩
    · exact fun _ data encoded =>
        ⟨.inr (discards data encoded), Walks.bind (walks_cache .fail)⟩
    · exact .inl rfl
    · exact fun data encoded => .inr (discards data encoded)
  · exact fun _ _ same => .inl same

/-- What a loader needs from its package backends: a way to read partitions back, and a data
clearing that touches files only. -/
structure BootConfig.Equipped (config : BootConfig) : Prop where
  readable : config.package.imageReader = true ∨ config.package.disk = true
  clears : config.package.ClearsFilesOnly

theorem walks_planPartition2 {onReturn : InstallPlan → Machine → Prop}
    (returns : ∀ plan, (plan.updateApp = false → config.device.Holds machine.store
      config.appPartitionId (inspection.manifest.imageSize.toNat,
      inspection.manifest.imageSha256.string)) → onReturn plan machine) :
    Walks config.caller start (onStorage (config.planPartition2 inspection)) onReturn machine := by
  refine .on (.bind (ensures_planInstall (fun plan spared => ?_)
    (fun _ => ⟨.inl rfl, trivial⟩) (.inl rfl)))
  refine .pure ⟨.inl rfl, returns _ fun kept => ?_⟩
  split at kept
  · cases kept
  · exact (spared kept).2

/-- How a startup may end when it returns. -/
structure BootConfig.Ends (start : Machine) (action : StartupAction) (after : Machine) : Prop where
  idle : NoWriteSince start.store after.store
  running : after.running = start.running
  next : action = .commandMode → after.next = start.next

/-- Booting partition 2: its record is valid, and an application has passed the gate. -/
theorem walks_launch (here : start.running = config.h2loaderPartitionId)
    (place : config.FromPartition1 start machine) :
    Walks config.caller start config.launch (BootConfig.Ends start) machine := by
  have stays : ∀ after, config.FromPartition1 start after →
      BootConfig.Ends start .commandMode after := fun after place =>
    ⟨place.settled.idle, place.running.trans here.symm, fun _ => place.next⟩
  refine .bind (.read ?_)
  dsimp only
  split_ifs with nothing gated
  · exact .bind (.recovered (.imp (walks_finishLoaderStageIfConverged place)
      fun _ after place => .pure (stays after place)))
  · exact .pure (stays machine place)
  · have valid : machine.status.partition2.valid = true := by
      rcases not_or.mp nothing with ⟨valid, -⟩
      simpa using valid
    have arms : config.caller.Arms start machine config.appPartitionId := by
      refine ⟨place.settled.idle, .partition2, machine.status.partition2, rfl,
        place.settled.synced.records valid, fun _ => ⟨rfl, fun app => ?_⟩⟩
      by_contra refused
      exact gated ⟨app, Bool.eq_false_iff.mpr refused⟩
    refine .bind (.recovered (walks_setNextAndReboot (.inr rfl) place.settled.intent
      (.inr arms) (.inl place.next) fun after alike _ => .pure ⟨?_, ?_, ?_⟩))
    · rw [alike.store]
      exact place.settled.idle
    · exact (alike.running.trans place.running).trans here.symm
    · exact fun command => nomatch command

/-- Confirming the running image is a step, and changes nothing else. -/
theorem walks_confirmImage (returns : onReturn () { machine with confirmed := true }) :
    Walks caller start confirmImage onReturn machine :=
  .bind (walks_probe (.update (.confirm machine) returns))

variable (accepted : config.Accepted) (equipped : config.Equipped)

include accepted equipped

theorem walks_installPartition2
    (place : config.FromPartition1 start machine)
    (matching : stageMatchesInspection machine.status.stage inspection = true)
    {plan : InstallPlan}
    (planned : plan.updateApp = false → config.device.Holds machine.store config.appPartitionId
      machine.status.stage.image)
    (unrecorded : plan.updateApp = true → ∀ metadata, ¬machine.Records .partition2 metadata) :
    Walks config.caller start
      (onStorage (config.package.installTo inspection config.appPartitionId plan))
      (fun _ after => config.FromPartition1 start after ∧ after.status = machine.status ∧
        config.device.Holds after.store config.appPartitionId machine.status.stage.image)
      machine := by
  obtain ⟨-, current, image⟩ := stageMatchesInspection_image matching
  have moved : ∀ store : Storage, NoWriteSince machine.store store →
      config.FromPartition1 start { machine with store } := fun store idle =>
    ⟨⟨place.settled.synced, place.settled.running, place.settled.intent,
      place.settled.idle.trans idle⟩, place.running, place.next⟩
  cases written : plan.updateApp with
  | true =>
    have named : config.device.partition .partition2 = some config.appPartitionId := rfl
    have elsewhere : machine.running ≠ config.appPartitionId := by
      rw [place.running]
      exact accepted.different
    refine walks_transfer named elsewhere (unrecorded written) (.inl place.next)
      (keeps_installTo (touches_confined equipped.clears _ _ _) _)
      ((ensures_installTo equipped.readable current).mono
        (fun _ _ => id) (fun _ _ _ => trivial) fun _ _ => trivial) ?_
    intro _ store installed
    refine ⟨moved store (.inl installed.1), rfl, ?_⟩
    rw [image]
    exact installed.2 written
  | false =>
    have touches := touches_files equipped.clears written config.appPartitionId machine.store
    have keeps := keeps_installTo touches inspection
    refine walks_files keeps fun _ store images writing => ?_
    refine ⟨moved store writing, rfl, ?_⟩
    have held := planned written
    unfold Device.Holds HoldsImage at held ⊢
    rw [images]
    exact held

/-- The staged package is installed into partition 2 and recorded there. -/
theorem walks_writePartition2 (place : config.FromPartition1 start machine)
    (matching : stageMatchesInspection machine.status.stage inspection = true) :
    Walks config.caller start (config.writePartition2 inspection)
      (fun _ after => config.FromPartition1 start after) machine := by
  obtain ⟨valid, -, image⟩ := stageMatchesInspection_image matching
  refine .bind (walks_planPartition2 fun plan planned => ?_)
  rw [← image] at planned
  have recordIt : ∀ after : Machine, config.FromPartition1 start after →
      after.status.stage = machine.status.stage → config.device.Holds after.store
        config.appPartitionId machine.status.stage.image →
      Walks config.caller start (do
        let status ← cached
        let installed ← Program.conclude (metadataFromStage status.stage)
        writeRecord .partition2 installed)
        (fun _ final => config.FromPartition1 start final) after := by
    intro after here memory held
    refine .bind (walks_cached (.bind (.conclude fun installed agreed => ?_)))
    obtain rfl := metadataFromStage_ok agreed
    rw [← memory] at valid held
    have records : after.Records .stage after.status.stage := here.settled.synced.records valid
    refine walks_writeRecord (fun data encoded => ?_) fun data encoded => ?_
    · exact .record after .partition2 config.appPartitionId _ data rfl encoded records.terminated
        (.inl held) (.inr ⟨.stage, _, records, rfl⟩)
    · exact ⟨here.settled.write records.terminated encoded, here.running, here.next⟩
  refine .bind (.onlyIf (fun written => ?_) fun spared => ?_)
  · refine walks_discard fun data encoded => ?_
    have cleared : config.FromPartition1 start { machine with
        pref := machine.pref.withSlot .partition2 (some data)
        status := machine.status.withSlot .partition2 .zero } :=
      ⟨place.settled.write Metadata.zero_terminated encoded, place.running, place.next⟩
    have unrecorded := not_records_discard machine (.inr encoded.symm)
    refine .bind (.imp (walks_installPartition2 accepted equipped cleared matching
      (fun spared => ?_) fun _ metadata records => unrecorded metadata { records with }) ?_)
    · rw [written] at spared
      cases spared
    · rintro _ after ⟨here, memory, held⟩
      exact recordIt after here (by rw [memory]; rfl) held
  · refine .bind (.imp (walks_installPartition2 accepted equipped place matching planned
      fun written => ?_) ?_)
    · rw [spared] at written
      cases written
    · rintro _ after ⟨here, memory, held⟩
      exact recordIt after here (by rw [memory]) held

theorem walks_installStage (place : config.FromPartition1 start machine) :
    Walks config.caller start config.installStage (fun _ after => config.FromPartition1 start after)
      machine := by
  refine .bind (walks_cached (.onlyIf (fun _ => ?_) fun _ => place))
  exact .bind (walks_inspectCurrentStage fun _ matching =>
    walks_writePartition2 accepted equipped place matching)

theorem walks_startFromPartition1 (here : start.running = config.h2loaderPartitionId)
    (place : config.FromPartition1 start machine) :
    Walks config.caller start config.startFromPartition1 (BootConfig.Ends start) machine := by
  have stays : ∀ after, config.FromPartition1 start after →
      BootConfig.Ends start .commandMode after := fun after place =>
    ⟨place.settled.idle, place.running.trans here.symm, fun _ => place.next⟩
  refine .bind (.read ?_)
  split_ifs
  · exact .pure (stays machine place)
  · exact walks_failRecovery
  · refine .bind (.recovered (.imp (walks_finishLoaderStageIfConverged place)
      fun _ after place => ?_))
    refine .bind (.recovered (walks_quiet leaves_detectRolledBackApp fun rolledBack => ?_))
    split_ifs
    · exact .pure (stays after place)
    · exact .bind (.recovered (.imp (walks_installStage accepted equipped place)
        fun _ final place => walks_launch here place))

theorem walks_startLoader (loader : config.activeIdentity.role = .h2loader)
    (settled : start.Settled machine) (unmoved : start.SameBoot machine)
    (found : config.slotForPartition machine.running = some slot)
    (seeded : config.Seeded machine slot) :
    Walks config.caller start config.startLoader (BootConfig.Ends start) machine := by
  refine .bind (walks_cached ?_)
  rw [settled.running]
  split_ifs with second other
  · have slotted : slot = .partition2 := by
      rw [BootConfig.slotForPartition, second, if_neg accepted.different.symm, if_pos rfl] at found
      exact (Option.some.inj found).symm
    subst slotted
    refine .bind (.recovered (.imp
      (walks_copyPartition2To1 accepted loader ⟨settled, second, seeded⟩) fun _ after ended => ?_))
    exact .pure ⟨ended.1, ended.2.trans unmoved.running, fun command => nomatch command⟩
  · exact walks_failRecovery
  · have first : machine.running = config.h2loaderPartitionId := not_not.mp other
    exact walks_startFromPartition1 accepted equipped (unmoved.running.symm.trans first)
      ⟨settled, first, unmoved.next⟩

/-- Every change of a startup is one of its steps, at whatever point it is interrupted. -/
theorem walks_startup :
    Walks config.caller machine config.startup (BootConfig.Ends machine) machine := by
  refine .bind (.recovered (walks_quiet ?_ fun _ => ?_))
  · exact .of_keeps fun _ => .onlyIf fun _ =>
      .bind (keeps_probe _) fun _ => keeps_probe _
  refine .bind (.recovered (.imp (walks_readStatus (.refl _)) ?_))
  rintro _ read ⟨settled, unmoved⟩
  refine .bind (.recovered (.imp (walks_seedRunningMetadata settled) ?_))
  rintro _ seeded ⟨settled, further, slot, found, matching⟩
  have same := unmoved.trans further
  rw [← further.running] at found
  have goesOn : ∀ after : Machine, machine.Settled after → machine.SameBoot after →
      after.running = seeded.running → config.Seeded after slot →
      Walks config.caller machine
        (if config.activeIdentity.role ≠ .h2loader then pure .commandMode else config.startLoader)
        (BootConfig.Ends machine) after := by
    intro after settled same running matching
    split_ifs with loader
    · exact .pure ⟨settled.idle, same.running, fun _ => same.next⟩
    · exact walks_startLoader accepted equipped (not_not.mp loader) settled same
        (running ▸ found) matching
  refine .bind (.recovered (.onlyIf (fun _ => walks_confirmImage ?_) fun _ => ?_))
  · exact goesOn { seeded with confirmed := true }
      { settled with } { same with } rfl
      matching
  · exact goesOn seeded settled same rfl matching

end Gizos.Loader
