import Gizos.Loader.Boot.Records

/-! # Startups on a working platform

What each part of a startup does when every platform call succeeds: reading the status, recording
the running image, and setting the next partition.
-/
namespace Gizos.Loader

open Fault Pal Gizos.Bundle Relation

variable {slot : Slot} {onReturn : Unit → Machine → Prop} {metadata : Metadata}

/-- The preferences are ones the loader can read: its records decode, and the intent is known. -/
structure Machine.Legible (machine : Machine) : Prop where
  /-- Stored records decode. -/
  records : ∀ slot blob, machine.pref.slot slot = some blob →
    ∃ metadata, metadataDecode slot blob = some metadata
  intent : ∀ intent, machine.pref.bootIntent = some intent → KnownIntent intent

variable {config : BootConfig} {machine before after : Machine} {α : Type}

theorem Machine.Legible.of_pref (legible : before.Legible)
    (slots : ∀ slot, after.pref.slot slot = before.pref.slot slot)
    (intent : after.pref.bootIntent = before.pref.bootIntent) : after.Legible where
  records slot blob stored := legible.records slot blob ((slots slot).symm.trans stored)
  intent value stored := legible.intent value (intent.symm.trans stored)

theorem Machine.Legible.withSlot (legible : before.Legible) {value : Option Bytes}
    (decodes : ∀ blob, value = some blob → ∃ metadata, metadataDecode slot blob = some metadata) :
    ({ before with pref := before.pref.withSlot slot value } : Machine).Legible where
  records other blob stored := by
    by_cases same : other = slot
    · subst same
      exact decodes blob ((before.pref.slot_withSlot other value).symm.trans stored)
    · exact legible.records other blob
        ((before.pref.slot_withSlot_of_ne value same).symm.trans stored)
  intent value stored := by
    refine legible.intent value ?_
    cases slot <;> exact stored

theorem Achieves.recovered {body : BootRoutine α} {onReturn : α → Machine → Prop}
    (achieved : Achieves Answer.Works body onReturn machine) :
    Achieves Answer.Works (recovered body) onReturn machine :=
  .recovering achieved.ensures

section Reading

variable {pref : Preferences}

theorem achieves_orDefault {σ β : Type} {state : σ} {default : β} {look : σ → Option β}
    {onReturn : β → σ → Prop} (returns : onReturn ((look state).getD default) state) :
    Achieves Answer.Works (orDefault default (lookup look)) onReturn state := by
  apply Ensures.recovering
  apply Ensures.bind
  refine (achieves_probe ?_).ensures
  apply Ensures.bind
  apply Ensures.read
  cases found : look state with
  | none =>
    rw [found] at returns
    exact .fail (.pure returns)
  | some value =>
    rw [found] at returns
    exact .pure returns

theorem achieves_readControlFields {onReturn : Nat × Int → Preferences → Prop}
    (known : ∀ intent, pref.bootIntent = some intent → KnownIntent intent)
    (returns : ∀ result, onReturn (pref.bootIntent.getD intentLoader, result) pref) :
    Achieves Answer.Works readControlFields onReturn pref := by
  apply Ensures.bind
  apply Ensures.attempt
  refine (achieves_probe ?_).ensures
  apply Ensures.bind
  apply achieves_closingAfter
  apply Ensures.bind
  refine achieves_orDefault (.bind (achieves_orDefault (.pure ?_)))
  apply Ensures.bind
  refine .require (fun _ => .pure (returns _)) fun refused => refused ?_
  cases stored : pref.bootIntent with
  | none => exact .inl rfl
  | some intent => exact known intent stored

/-- A working read of the manufacturing record succeeds, whatever is stored, and changes nothing
else. -/
theorem achieves_mfgRead_any {onReturn : MfgSummary × Bool → Preferences → Prop}
    (returns : ∀ result after, after.besideMfg = pref.besideMfg → onReturn result after) :
    Achieves Answer.Works mfgRead onReturn pref := by
  refine .leaving leaves_mfgRead ?_
  cases found : pref.mfg with
  | some blob =>
    exact Achieves.ensures ((achieves_mfgRead found).imp fun result after _ => returns result after)
  | none =>
    intro answers works time
    simp only [mfgRead, mfgRecordLoad, Bind.bind, Program.andThen, Program.attempt, lookup,
      Program.read, probe_works works, found, Program.fail]
    exact returns _ _

end Reading

theorem achieves_readSlot (legible : machine.Legible)
    (returns : onReturn () { machine with
      status := machine.status.withSlot slot ((machine.record slot).getD .zero) }) :
    Achieves Answer.Works (readSlot slot) onReturn machine := by
  apply Ensures.bind
  refine .on (works_metadataLoad (fun missing => .bind (.update (.bind (.ret (.pure ?_)))))
    fun blob stored => ?_)
  · have absent : machine.record slot = none := by
      exact Option.bind_eq_none_iff.mpr fun blob stored => by cases missing.symm.trans stored
    rw [absent] at returns
    exact returns
  · obtain ⟨metadata, decoded⟩ := legible.records slot blob stored
    have present : machine.record slot = some metadata :=
      Option.bind_eq_some_iff.mpr ⟨blob, stored, decoded⟩
    rw [present] at returns
    rw [decoded]
    exact .bind (.update (.bind (.ret (.pure returns))))

/-- What reading the status finds, and that it changes nothing else that matters to a startup. -/
structure Machine.ReadBack (before after : Machine) : Prop where
  store : after.store = before.store
  running : after.running = before.running
  next : after.next = before.next
  listed : after.listed = before.listed
  forced : after.forceCommandMode = before.forceCommandMode
  slots : ∀ slot, after.pref.slot slot = before.pref.slot slot
  intent : after.pref.bootIntent = before.pref.bootIntent
  records : ∀ slot, after.status.slot slot = (before.record slot).getD .zero
  bootIntent : after.status.bootIntent = before.pref.bootIntent.getD intentLoader
  runningPartition : after.status.runningPartition = before.running

/-- A working read of a legible status succeeds and finds what is stored. -/
theorem achieves_readStatus (legible : machine.Legible) :
    Achieves Answer.Works config.readStatus (fun _ after => machine.ReadBack after) machine := by
  have remembered : ∀ status, ({ machine with status } : Machine).Legible := fun status =>
    legible.of_pref (fun _ => rfl) rfl
  apply Ensures.bind
  apply Ensures.bind
  refine .update (.bind (.on (achieves_readControlFields legible.intent fun result => ?_)))
  apply Ensures.bind
  refine .update (.bind (achieves_readSlot (remembered _) ?_))
  refine .bind (achieves_readSlot (remembered _) ?_)
  refine .bind (achieves_readSlot (remembered _) ?_)
  refine .bind (.on (achieves_mfgRead_any fun mfg pref beside => .update ?_))
  refine .bind (.update (.bind (achieves_probe ?_)))
  refine .bind (.update (.bind (.attempt ?_)))
  refine (achieves_probe (.update ?_)).ensures
  have slots := Preferences.slot_of_besideMfg beside
  have intent := congrArg Preferences.bootIntent beside
  exact {
    store := rfl
    running := rfl
    next := rfl
    listed := rfl
    forced := rfl
    slots := slots
    intent := intent
    records := fun slot => by cases slot <;> rfl
    bootIntent := rfl
    runningPartition := rfl }

/-- A working write of a record that passes the check succeeds. -/
theorem achieves_writeRecord (valid : metadataValidate slot metadata = true)
    (returns : ∀ data, metadataEncode slot metadata = some data → onReturn () { machine with
      pref := machine.pref.withSlot slot (some data)
      status := machine.status.withSlot slot metadata }) :
    Achieves Answer.Works (writeRecord slot metadata) onReturn machine := by
  have encoded : metadataEncode slot metadata =
      some (blobLayout.encode (metadata.blob slot)) := by rw [metadataEncode, if_pos valid]
  exact .bind (.on (achieves_metadataWrite encoded (.update (returns _ encoded))))

theorem metadataValidate_partition (partition : slot ≠ .stage) (valid : metadata.valid = true) :
    metadataValidate slot metadata = true ↔
      checksumValid metadata.imageChecksum false = true ∧ metadata.imageSize ≠ 0 ∧
      (metadata.role = .app ∨ metadata.role = .h2loader) ∧ textValid metadata.version = true ∧
      textValid metadata.board = true ∧ textValid metadata.target = true ∧
      checksumValid metadata.packageChecksum true = true ∧
      (metadata.packageChecksum.string = [] ↔ metadata.packageSize = 0) := by
  cases slot with
  | stage => exact absurd rfl partition
  | partition1 | partition2 => simp [metadataValidate, valid, and_assoc]

theorem metadataValidate_of_stage (partition : slot ≠ .stage) (valid : metadata.valid = true)
    (staged : metadataValidate .stage metadata = true) :
    metadataValidate slot metadata = true := by
  rw [metadataValidate_partition partition valid]
  simp only [metadataValidate, valid, Bool.not_true, Bool.false_or, Bool.and_eq_true,
    Bool.or_eq_true, decide_eq_true_eq, and_assoc] at staged
  obtain ⟨image, size, role, version, board, target, package, packageSize⟩ := staged
  have named : metadata.packageChecksum.string ≠ [] := by
    intro empty
    rw [checksumValid_eq, if_pos empty] at package
    cases package
  refine ⟨image, size, role, version, board, target, ?_, ?_⟩
  · rw [checksumValid_eq, if_neg named] at package ⊢
    exact package
  · exact ⟨fun empty => absurd empty named, fun zero => absurd zero packageSize⟩

theorem metadataValidate_seedRecord (accepted : config.Accepted) (partition : slot ≠ .stage)
    {stored : Metadata} (terminated : stored.Terminated)
    (checked : metadataValidate slot stored = true) :
    metadataValidate slot (config.seedRecord stored) = true := by
  have identity : metadataValidate slot (metadataFromIdentity config.activeIdentity) = true := by
    have checked : metadataValidate .partition1 (metadataFromIdentity config.activeIdentity) =
      true :=
      accepted.identity
    rw [metadataValidate_partition (by decide) rfl] at checked
    exact (metadataValidate_partition partition rfl).mpr checked
  unfold BootConfig.seedRecord
  dsimp only
  split
  · rename_i same
    simp only [Bool.and_eq_true] at same
    rw [metadataValidate_partition partition same.1.1] at checked
    obtain ⟨-, -, -, -, -, -, package, packageSize⟩ := checked
    rw [metadataValidate_partition partition rfl] at identity ⊢
    obtain ⟨image, size, role, version, board, target, -⟩ := identity
    have copied := terminated.packageChecksum.string_copy
    refine ⟨image, size, role, version, board, target, ?_, ?_⟩
    · rw [checksumValid_eq] at package ⊢
      rw [copied]
      exact package
    · dsimp only
      rw [copied]
      exact packageSize
  · exact identity

/-- A working startup records the running image where it has not been recorded. -/
theorem achieves_seedRunningMetadata (accepted : config.Accepted)
    (found : config.slotForPartition machine.status.runningPartition = some slot)
    (terminated : (machine.status.slot slot).Terminated)
    (checked : metadataValidate slot (machine.status.slot slot) = true)
    (matching : config.Seeded machine slot → onReturn () machine)
    (writes : ¬config.Seeded machine slot → ∀ data,
      metadataEncode slot (config.seedRecord (machine.status.slot slot)) = some data →
      onReturn () { machine with
      pref := machine.pref.withSlot slot (some data)
      status := machine.status.withSlot slot (config.seedRecord (machine.status.slot slot)) }) :
    Achieves Answer.Works config.seedRunningMetadata onReturn machine := by
  have partition : slot ≠ .stage := by
    rintro rfl
    have named := config.slotForPartition_some found
    cases named
  apply Ensures.bind
  apply Ensures.read
  rw [found]
  apply Ensures.bind
  refine .require (fun _ => ?_) fun refused => refused accepted.identity
  refine .onlyIf (fun unseeded => ?_) fun seeded => ?_
  · refine achieves_writeRecord (metadataValidate_seedRecord accepted partition terminated checked)
      (writes fun seeded => ?_)
    have identity := accepted.identity
    rw [BootConfig.Seeded] at seeded
    simp [metadataMatchesIdentity, identity, seeded] at unseeded
  · rw [Bool.not_eq_false', metadataMatchesIdentity, Bool.and_eq_true] at seeded
    exact matching seeded.2

theorem achieves_setNext {partition : Nat} (returns : onReturn () (machine.withNext partition)) :
    Achieves Answer.Works (setNext partition) onReturn machine :=
  achieves_act returns

theorem achieves_optionalProbe {condition : Bool} (returns : onReturn () machine) :
    Achieves Answer.Works (Program.onlyIf condition probe) onReturn machine :=
  .onlyIf (fun _ => achieves_probe returns) fun _ => returns

theorem achieves_setNextAndReboot {partition intent : Nat} {transition : Bool}
    (returns : onReturn () { (machine.withIntent intent).withNext partition with
      status := { machine.status with bootIntent := intent, nextPartition := partition } }) :
    Achieves Answer.Works (config.setNextAndReboot partition intent transition) onReturn
      machine := by
  apply Ensures.bind
  apply Ensures.read
  refine .bind (achieves_probe (.bind (.read ?_)))
  refine .bind (achieves_optionalProbe (.bind (.on (achieves_transaction (achieves_probe rfl) ?_))))
  refine .bind (.recovering (achieves_setNext ?_).ensures)
  refine .bind (.recovering (achieves_optionalProbe ?_).ensures)
  refine .bind (.recovering (achieves_probe ?_).ensures)
  exact .update returns

/-- The record of the running image after seeding. -/
def BootConfig.seededRecord (config : BootConfig) (stored : Metadata) : Metadata :=
  if metadataImageEqual stored (metadataFromIdentity config.activeIdentity) then stored
  else config.seedRecord stored

/-- Before a startup decides what to do, memory has what is stored, with the running image
recorded in its slot. -/
structure BootConfig.Prepared (config : BootConfig) (slot : Slot) (before after : Machine) :
    Prop where
  /-- Files and partitions are as they were. -/
  store : after.store = before.store
  /-- The same partition runs. -/
  running : after.running = before.running
  /-- The same partition boots next. -/
  next : after.next = before.next
  /-- The platform lists the same partitions. -/
  listed : after.listed = before.listed
  forced : after.forceCommandMode = before.forceCommandMode
  /-- The other records are as they were. -/
  slots : ∀ other, other ≠ slot → after.pref.slot other = before.pref.slot other
  /-- The stored intent is unchanged. -/
  intent : after.pref.bootIntent = before.pref.bootIntent
  /-- Memory has the other records. -/
  records : ∀ other, other ≠ slot → after.status.slot other = (before.record other).getD .zero
  /-- The running image is recorded. -/
  seeded : after.Records slot (config.seededRecord ((before.record slot).getD .zero))
  /-- Memory has the record of the running image. -/
  remembered : after.status.slot slot = config.seededRecord ((before.record slot).getD .zero)
  /-- Memory has the intent. -/
  bootIntent : after.status.bootIntent = before.pref.bootIntent.getD intentLoader
  /-- Memory has the partition that runs. -/
  runningPartition : after.status.runningPartition = before.running

theorem Machine.record_checked (machine : Machine) (slot : Slot) :
    ((machine.record slot).getD .zero).Terminated ∧
      metadataValidate slot ((machine.record slot).getD .zero) = true := by
  cases found : machine.record slot with
  | none =>
    refine ⟨Metadata.zero_terminated, ?_⟩
    cases slot <;> rfl
  | some metadata =>
    obtain ⟨blob, -, decoded⟩ := Option.bind_eq_some_iff.mp found
    exact (metadataDecode_some decoded).2

/-- The status that was read and the record that was seeded prepare a startup. -/
theorem Machine.ReadBack.prepared (read : machine.ReadBack before)
    (seeded : config.Seeded before slot) : config.Prepared slot machine before := by
  have found := read.records slot
  have matching : metadataImageEqual ((machine.record slot).getD .zero)
      (metadataFromIdentity config.activeIdentity) = true := found ▸ seeded
  have kept : config.seededRecord ((machine.record slot).getD .zero) =
      (machine.record slot).getD .zero := if_pos matching
  have valid := (metadataImageEqual_iff.mp matching).1
  refine ⟨read.store, read.running, read.next, read.listed, read.forced,
    fun other _ => read.slots other, read.intent, fun other _ => read.records other, ?_,
    found.trans kept.symm, read.bootIntent, read.runningPartition⟩
  rw [kept]
  refine ⟨?_, valid⟩
  cases stored : machine.record slot with
  | none =>
    rw [stored] at valid
    cases valid
  | some metadata =>
    rw [Machine.record, read.slots slot]
    exact stored

/-- So do the status that was read and a record that has been written for the running image. -/
theorem Machine.ReadBack.prepared_writing {data : Bytes} (read : machine.ReadBack before)
    (unseeded : ¬config.Seeded before slot)
    (encoded : metadataEncode slot (config.seedRecord (before.status.slot slot)) = some data) :
    config.Prepared slot machine { before with
      pref := before.pref.withSlot slot (some data)
      status := before.status.withSlot slot (config.seedRecord (before.status.slot slot)) } := by
  have found := read.records slot
  have written : config.seededRecord ((machine.record slot).getD .zero) =
      config.seedRecord (before.status.slot slot) := by
    rw [← found]
    exact if_neg unseeded
  have terminated := seedRecord_terminated config (before.status.slot slot)
  have valid := (metadataImageEqual_iff.mp (seedRecord_matches config (before.status.slot slot))).1
  have recorded := before.records_write terminated valid encoded
  exact {
    store := read.store
    running := read.running
    next := read.next
    listed := read.listed
    forced := read.forced
    slots := fun other different =>
      (before.pref.slot_withSlot_of_ne _ different).trans (read.slots other)
    intent := by cases slot <;> exact read.intent
    records := fun other different =>
      (before.status.slot_withSlot_of_ne _ different).trans (read.records other)
    seeded := by
      rw [written]
      exact { recorded with }
    remembered := by
      rw [written]
      exact before.status.slot_withSlot slot _
    bootIntent := by cases slot <;> exact read.bootIntent
    runningPartition := by cases slot <;> exact read.runningPartition }

theorem achieves_startup {onReturn : StartupAction → Machine → Prop} (accepted : config.Accepted)
    (legible : machine.Legible) (found : config.slotForPartition machine.running = some slot)
    (goesOn : ∀ prepared, config.Prepared slot machine prepared → Achieves Answer.Works
      (if config.activeIdentity.role ≠ .h2loader then pure .commandMode else config.startLoader)
      onReturn prepared) :
    Achieves Answer.Works config.startup onReturn machine := by
  have confirmed : ∀ prepared, config.Prepared slot machine prepared → Achieves Answer.Works
      (recovered config.confirm) (fun _ after => Achieves Answer.Works
        (if config.activeIdentity.role ≠ .h2loader then pure .commandMode else config.startLoader)
        onReturn after) prepared := by
    intro prepared ready
    refine Achieves.recovered (.onlyIf (fun _ => ?_) fun _ => goesOn prepared ready)
    refine .bind (achieves_probe (.update (goesOn _ ?_)))
    exact ⟨ready.store, ready.running, ready.next, ready.listed, ready.forced, ready.slots,
      ready.intent, ready.records, ⟨ready.seeded.stored, ready.seeded.valid⟩, ready.remembered,
      ready.bootIntent, ready.runningPartition⟩
  have mounted : Achieves Answer.Works (recovered config.mountFilePoints)
      (fun _ after => after = machine) machine :=
    Achieves.recovered (.onlyIf (fun _ => .bind (achieves_probe (achieves_probe rfl))) fun _ => rfl)
  refine .bind (mounted.imp ?_)
  rintro _ here unchanged
  subst unchanged
  refine .bind (Achieves.recovered ((achieves_readStatus legible).imp fun _ read back => ?_))
  obtain ⟨terminated, checked⟩ := here.record_checked slot
  rw [← back.records slot] at terminated checked
  rw [← back.runningPartition] at found
  refine .bind (Achieves.recovered (achieves_seedRunningMetadata accepted found terminated
    checked (fun seeded => ?_) fun unseeded data encoded => ?_))
  · exact .bind (confirmed _ (back.prepared seeded))
  · exact .bind (confirmed _ (back.prepared_writing unseeded encoded))

end Gizos.Loader
