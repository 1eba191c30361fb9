import Gizos.Loader.Boot.Records

/-! # A candidate that was rolled back

When the platform says that it would not boot partition 2, and no other image has been staged, a
startup from partition 1 ends in command mode. Up to there it has written no partition and has not
touched the next partition, the boot intent, or the records of the stage and of partition 2.
-/
namespace Gizos.Loader

open Fault Pal Gizos.Bundle BootConfig

variable {machine : Machine} {answers : Nat → Answer} {time : Nat} {slot : Slot} {status : Status}

/-- The next partition, the partitions, and the intent are as they were. -/
structure Machine.Unarmed (start machine : Machine) : Prop where
  next : machine.next = start.next
  images : machine.store.images = start.store.images
  writing : machine.store.writing = start.store.writing
  intent : machine.pref.bootIntent = start.pref.bootIntent
  listed : machine.listed = start.listed
  running : machine.running = start.running

/-- So are the records of the stage and of partition 2. -/
structure Machine.Untouched (start machine : Machine) : Prop where
  unarmed : start.Unarmed machine
  stage : machine.pref.stage = start.pref.stage
  partition2 : machine.pref.partition2 = start.pref.partition2

theorem Machine.Unarmed.refl (machine : Machine) : machine.Unarmed machine :=
  ⟨rfl, rfl, rfl, rfl, rfl, rfl⟩

theorem Machine.Untouched.refl (machine : Machine) : machine.Untouched machine :=
  ⟨.refl machine, rfl, rfl⟩

section Frames

theorem insensitive_unarmed (start : Machine) : Insensitive start.Unarmed where
  remember _ _ unarmed := { unarmed with }
  prefer machine pref same unarmed := by
    have intent : pref.bootIntent = machine.pref.bootIntent := congrArg Prod.fst same
    exact ⟨unarmed.next, unarmed.images, unarmed.writing, intent.trans unarmed.intent,
      unarmed.listed, unarmed.running⟩

theorem insensitive_untouched (start : Machine) : Insensitive start.Untouched where
  remember machine status untouched :=
    ⟨(insensitive_unarmed start).remember machine status untouched.unarmed, untouched.stage,
      untouched.partition2⟩
  prefer machine pref same untouched := by
    have stage : pref.stage = machine.pref.stage := congrArg (fun seen => seen.2.1) same
    have partition2 : pref.partition2 = machine.pref.partition2 :=
      congrArg (fun seen => seen.2.2) same
    exact ⟨(insensitive_unarmed start).prefer machine pref same untouched.unarmed,
      stage.trans untouched.stage, partition2.trans untouched.partition2⟩

variable {invariant : Machine → Prop} {α : Type} (insensitive : Insensitive invariant)

include insensitive

theorem ensures_failRecovery {admits : Answer → Prop} {code : Int} {onReturn : α → Machine → Prop}
    (holds : invariant machine) :
    Ensures admits (failRecovery code) onReturn (fun _ => invariant) invariant machine :=
  .bind (((keeps_setLastResult insensitive code).ignoring.ensures holds).imp
    fun _ _ still => .fail still)

/-- A part of the startup that fails leaves the startup with what it has kept. -/
theorem timed_recovered {body : BootRoutine α} {onReturn : α → Machine → Nat → Prop}
    (met : Timed answers body onReturn (fun _ after _ => invariant after) invariant time machine) :
    Timed answers (recovered body) onReturn (fun _ after _ => invariant after) invariant time
      machine := by
  refine .recovering (met.mono (fun _ _ _ => id) (fun code after ended holds => ?_) fun _ => id)
  have ends : Ensures Answer.Any (failRecovery code : BootRoutine α) (fun _ _ => False)
      (fun _ => invariant) invariant after := ensures_failRecovery insensitive holds
  exact (ends.timed fun _ => trivial).mono (fun _ _ _ impossible => impossible.elim)
    (fun _ _ _ => id) fun _ => id

end Frames

section Memory

variable {config : BootConfig} {start machine : Machine}

/-- Memory has the records of the stage and of partition 2, and the partition that runs. -/
structure Machine.Remembers (start : Machine) (status : Status) : Prop where
  stage : status.stage = (start.record .stage).getD .zero
  partition2 : status.partition2 = (start.record .partition2).getD .zero
  running : status.runningPartition = start.running

/-- A record that is read on a platform that finds what is there is the stored one. -/
theorem ensures_readSlot_honest {onReturn : Unit → Machine → Prop}
    (returns : onReturn () { machine with
      status := machine.status.withSlot slot ((machine.record slot).getD .zero) }) :
    Returns Answer.Honest (readSlot slot) onReturn machine := by
  apply Ensures.bind
  refine .on (ensures_metadataLoad (fun missing => .bind (.update (.bind (.ret (.pure ?_))))) ?_
    (fun _ _ => .bind (.update (.bind (.fail trivial)))) trivial)
  · have absent : machine.record slot = none := by
      have stored : machine.pref.slot slot = none :=
        missing.resolve_right Answer.not_reports_honest
      rw [Machine.record, stored]
      rfl
    rw [absent] at returns
    exact returns
  · intro blob metadata stored decoded
    have present : machine.record slot = some metadata :=
      Option.bind_eq_some_iff.mpr ⟨blob, stored, decoded⟩
    rw [present] at returns
    exact .bind (.update (.bind (.ret (.pure returns))))

theorem ensures_readStatus_honest :
    Returns Answer.Honest config.readStatus (fun _ after => machine.Remembers after.status)
      machine := by
  apply Ensures.bind
  apply Ensures.bind
  refine .update (.bind (.on (.quiet leaves_readControlFields
    (fun fields => ?_) (fun _ => trivial) trivial)))
  apply Ensures.bind
  refine .update (.bind (ensures_readSlot_honest ?_))
  refine .bind (ensures_readSlot_honest ?_)
  refine .bind (ensures_readSlot_honest ?_)
  refine .bind (.on (.trivially (fun result pref => .update ?_)
    (fun _ _ => trivial) fun _ => trivial))
  refine .bind (.update (.bind (ensures_probe ?_ (fun _ _ => trivial) trivial)))
  refine .bind (.update (.bind (.attempt ?_)))
  refine ensures_probe (.update ⟨rfl, rfl, rfl⟩) (fun code _ => ?_) trivial
  dsimp only
  split
  · exact .update ⟨rfl, rfl, rfl⟩
  · exact .fail trivial

theorem Machine.Remembers.records (remembers : start.Remembers status)
    (either : slot = .stage ∨ slot = .partition2) (valid : (status.slot slot).valid = true) :
    start.Records slot (status.slot slot) := by
  have found : ∀ {record : Option Metadata} {metadata : Metadata},
      metadata = record.getD .zero → metadata.valid = true → record = some metadata := by
    intro record metadata same good
    cases record with
    | none =>
      rw [same] at good
      cases good
    | some stored => rw [same, Option.getD_some]
  rcases either with rfl | rfl
  · exact ⟨found remembers.stage valid, valid⟩
  · exact ⟨found remembers.partition2 valid, valid⟩

/-- A record in memory that is not valid is not stored as valid. -/
theorem Machine.Remembers.eq_of_records (remembers : start.Remembers status) {metadata : Metadata}
    (records : start.Records .partition2 metadata) :
    status.partition2 = metadata := by
  rw [remembers.partition2, records.stored]
  rfl

theorem Machine.Records.role {metadata : Metadata} (records : machine.Records slot metadata) :
    metadata.role = .app ∨ metadata.role = .h2loader := by
  obtain ⟨blob, -, decoded⟩ := Option.bind_eq_some_iff.mp records.stored
  have checked := (metadataDecode_some decoded).2.2
  simp only [metadataValidate, records.valid, Bool.not_true, Bool.false_or, Bool.and_eq_true,
    Bool.or_eq_true, decide_eq_true_eq] at checked
  exact checked.1.1.1.1.2

end Memory

/-- No image other than the one of partition 2 is staged. -/
def Machine.StagesNothingElse (machine : Machine) : Prop :=
  ∀ staged, machine.Records .stage staged →
    ∃ other, machine.Records .partition2 other ∧ metadataImageEqual staged other = true

namespace BootConfig

variable (config : BootConfig)

/-- The stage is a loader package that names the running image. -/
def Converges (machine : Machine) : Prop :=
  ∃ staged, machine.Records .stage staged ∧ staged.role = .h2loader ∧
    metadataImageEqual staged (metadataFromIdentity config.activeIdentity) = true

/-- Nothing is armed or written, and the records stay unless the stage had converged. -/
def Spares (start machine : Machine) : Prop :=
  start.Unarmed machine ∧ (config.Converges start ∨ start.Untouched machine)

/-- What a startup from partition 1 has done when it asks whether partition 2 can be booted. -/
def untilLookup : BootRoutine Unit := do
  recovered config.mountFilePoints
  recovered config.readStatus
  recovered config.seedRunningMetadata
  recovered config.confirm
  recovered config.finishLoaderStageIfConverged

/-- A run in which partition 2 is found to be reported as not bootable: the platform lists it so,
and answers the question. -/
structure FindsUnbootable (answers : Nat → Answer) (time : Nat) (machine : Machine) : Prop where
  listed : machine.listed config.appPartitionId = some false
  /-- The platform can be asked about that. -/
  supported : ∀ ready looking,
    config.untilLookup answers time machine = .returned () ready looking →
      (answers looking).code ≠ errUnsupported

end BootConfig

section Parts

variable {config : BootConfig} {start machine : Machine}

theorem insensitive_spares (config : BootConfig) (start : Machine) :
    Insensitive (config.Spares start) where
  remember machine status spares :=
    ⟨(insensitive_unarmed start).remember machine status spares.1,
      spares.2.imp id ((insensitive_untouched start).remember machine status)⟩
  prefer machine pref same spares :=
    ⟨(insensitive_unarmed start).prefer machine pref same spares.1,
      spares.2.imp id ((insensitive_untouched start).prefer machine pref same)⟩

theorem Machine.Untouched.spares (untouched : start.Untouched machine) :
    config.Spares start machine :=
  ⟨untouched.unarmed, .inr untouched⟩

/-- A loader in partition 1 that has read its status and recorded itself. -/
structure BootConfig.Placed (config : BootConfig) (start machine : Machine) : Prop where
  untouched : start.Untouched machine
  remembers : start.Remembers machine.status
  seeded : config.Seeded machine .partition1

theorem leaves_candidates_metadataWrite (metadata : Metadata) :
    Leaves Preferences.candidates (metadataWrite .partition1 metadata) := by
  unfold metadataWrite
  cases metadataEncode .partition1 metadata with
  | none => exact .fail _
  | some data =>
    exact .of_keeps fun _ => keeps_transaction (keeps_probe _) fun _ => id

theorem ensures_seedRunningMetadata_first (first : start.running = config.h2loaderPartitionId)
    (untouched : start.Untouched machine) (remembers : start.Remembers machine.status) :
    Ensures Answer.Any config.seedRunningMetadata (fun _ => config.Placed start)
      (fun _ => start.Untouched) start.Untouched machine := by
  apply Ensures.bind
  apply Ensures.read
  have found : config.slotForPartition machine.status.runningPartition = some .partition1 := by
    rw [remembers.running, first]
    exact if_pos rfl
  rw [found]
  apply Ensures.bind
  refine .require (fun _ => .onlyIf (fun _ => ?_) fun matching => ?_) fun _ => untouched
  · apply Ensures.bind
    have kept := keeps_onPref (insensitive_untouched start)
      (leaves_candidates_metadataWrite (config.seedRecord (machine.status.slot .partition1)))
    have frame : Leaves Machine.status (onPref (metadataWrite .partition1
      (config.seedRecord (machine.status.slot .partition1)))) := .on fun _ _ => rfl
    refine .leaving frame ((kept.ensures untouched).mono ?_ (fun _ _ holds _ => holds)
      fun _ holds _ => holds)
    intro _ after holds same
    refine .update ⟨(insensitive_untouched start).remember _ _ holds, ?_, ?_⟩
    · rw [same]
      exact { remembers with }
    · exact seedRecord_matches config _
  · refine ⟨untouched, remembers, ?_⟩
    rw [Bool.not_eq_false', metadataMatchesIdentity, Bool.and_eq_true] at matching
    exact matching.2

theorem ensures_confirm_placed (placed : config.Placed start machine) :
    Always Answer.Any config.confirm (config.Placed start) machine := by
  refine Keeps.ensures (Keeps.onlyIf fun _ => Keeps.bind (keeps_probe _) fun _ =>
    Keeps.update fun before placed => ?_) placed
  obtain ⟨⟨⟨next, images, writing, intent, listed, running⟩, stage, partition2⟩, remembers,
    seeded⟩ := placed
  exact ⟨⟨⟨next, images, writing, intent, listed, running⟩, stage, partition2⟩, remembers, seeded⟩

/-- A stage in memory that has converged is a stored loader package that names the running
image. -/
theorem BootConfig.Placed.converges (placed : config.Placed start machine)
    (both : converged machine.status = true) : config.Converges start := by
  have images := (converged_images both).1
  have valid := (metadataImageEqual_iff.mp images).1
  have role : machine.status.stage.role = .h2loader := by
    simp only [converged, Bool.and_eq_true, decide_eq_true_eq] at both
    exact both.1.1.2
  have records : start.Records .stage machine.status.stage :=
    placed.remembers.records (.inl rfl) valid
  have seeded := metadataImageEqual_iff.mp placed.seeded
  refine ⟨_, records, role, ?_⟩
  rw [metadataImageEqual_iff] at images ⊢
  simp only [Status.slot] at seeded
  grind

theorem keeps_unarmed_files (path : Bytes) :
    Keeps start.Unarmed (onStorage (removeOptionalFile path)) := by
  refine .onPart fun whole => ?_
  unfold removeOptionalFile
  split
  · exact .pure _
  · refine keeps_fsRemoveOptional fun content store unarmed => ?_
    have unarmed' : start.Unarmed { whole with store } := unarmed
    exact ⟨unarmed'.next, unarmed'.images, unarmed'.writing, unarmed'.intent, unarmed'.listed,
      unarmed'.running⟩

theorem keeps_unarmed_onPref {α : Type} {body : Routine Preferences α}
    (frame : Leaves Preferences.bootIntent body) : Keeps start.Unarmed (onPref body) := by
  refine .onPart fun whole => frame.keeps fun before after same unarmed => ?_
  have unarmed' : start.Unarmed { whole with pref := before } := unarmed
  exact ⟨unarmed'.next, unarmed'.images, unarmed'.writing, same.trans unarmed'.intent,
    unarmed'.listed, unarmed'.running⟩

theorem leaves_bootIntent_withSlot (slot : Slot) (value : Option Bytes) (pref : Preferences) :
    (pref.withSlot slot value).bootIntent = pref.bootIntent := by
  cases slot <;> rfl

theorem leaves_bootIntent_metadataWrite (slot : Slot) (metadata : Metadata) :
    Leaves Preferences.bootIntent (metadataWrite slot metadata) := by
  unfold metadataWrite
  cases metadataEncode slot metadata with
  | none => exact .fail _
  | some data =>
    refine .of_keeps fun _ => keeps_transaction (keeps_probe _) fun pref same => ?_
    rw [leaves_bootIntent_withSlot]
    exact same

theorem leaves_bootIntent_metadataClear (slot : Slot) :
    Leaves Preferences.bootIntent (metadataClear slot) := by
  refine .of_keeps fun _ => keeps_transaction ?_ fun pref same => ?_
  · refine .recovering (keeps_probe _) fun code => ?_
    split
    · exact .pure _
    · exact .fail _
  · rw [leaves_bootIntent_withSlot]
    exact same

theorem keeps_unarmed_finishLoaderStage : Keeps start.Unarmed config.finishLoaderStage := by
  have insensitive := insensitive_unarmed start
  have written : ∀ slot metadata, Keeps start.Unarmed (writeRecord slot metadata) :=
    fun slot metadata => .bind
      (keeps_unarmed_onPref (leaves_bootIntent_metadataWrite slot metadata)) fun _ =>
        keeps_cache insensitive _
  exact .bind (.read _) fun _ => .bind (.conclude _) fun _ =>
    .bind (written _ _) fun _ => .bind (written _ _) fun _ =>
    .bind (.bind (keeps_unarmed_onPref (leaves_bootIntent_metadataWrite _ _)) fun _ =>
      .bind (keeps_unarmed_files _) fun _ =>
      keeps_unarmed_onPref (leaves_bootIntent_metadataClear _)) fun _ =>
    .bind (keeps_cache insensitive _) fun _ => keeps_setLastResult insensitive _

theorem ensures_finishLoaderStage_memory :
    Returns Answer.Any config.finishLoaderStage
      (fun _ after => after.status.partition2 = machine.status.stage ∧ after.status.stage = .zero)
        machine := by
  have prefers : ∀ {α : Type} (body : Routine Preferences α), Leaves Machine.status (onPref body) :=
    fun _ => .on fun _ _ => rfl
  have files : ∀ {α : Type} (body : Routine Storage α), Leaves Machine.status (onStorage body) :=
    fun _ => .on fun _ _ => rfl
  have finished : Leaves Machine.status (finishStage config.package.packagePath) :=
    .bind (prefers _) fun _ => .bind (files _) fun _ => prefers _
  have through : ∀ {α : Type} {body : BootRoutine α} {onReturn : α → Machine → Prop}
      {before : Machine}, Leaves Machine.status body →
      (∀ value after, after.status = before.status → onReturn value after) →
      Returns Answer.Any body onReturn before :=
    fun frame returns => .leaving frame (.trivially returns (fun _ _ _ => trivial)
      fun _ _ => trivial)
  apply Ensures.bind
  apply Ensures.read
  apply Ensures.bind
  cases accepted : metadataFromStage machine.status.stage with
  | error code => exact .fail trivial
  | ok partition =>
    obtain rfl := metadataFromStage_ok accepted
    refine .pure (.bind (.bind (through (prefers _) fun _ first same => ?_)))
    refine .update (.bind (.bind (through (prefers _) fun _ second kept1 => ?_)))
    refine .update (.bind (through finished fun _ third kept2 => ?_))
    refine .bind (.update (.bind (through (prefers _) fun _ last kept3 => ?_)))
    refine .update ?_
    simp only [kept3, kept2, kept1, same, Status.withSlot, and_self]

/-- Either the platform will be asked about partition 2, or there is nothing to install or boot. -/
def Status.Decided (status : Status) : Prop :=
  candidate status = true ∨ (status.partition2.valid = false ∧ status.stage.valid = false)

/-- A stage that names nothing else leaves only these two cases. -/
theorem Machine.Remembers.decided (remembers : start.Remembers status)
    (stages : start.StagesNothingElse) : status.Decided := by
  cases valid : status.partition2.valid with
  | true =>
    have role := (remembers.records (.inr rfl) valid).role
    refine .inl ?_
    cases staged : status.stage.valid with
    | false =>
      simp only [Status.slot] at role
      simp [candidate, valid, staged, role]
    | true =>
      obtain ⟨other, records, same⟩ := stages _ (remembers.records (.inl rfl) staged)
      rw [← remembers.eq_of_records records] at same
      simp only [Status.slot] at role same
      simp [candidate, valid, same, role]
  | false =>
    refine .inr ⟨valid, ?_⟩
    by_contra staged
    have present : status.stage.valid = true := by simpa using staged
    obtain ⟨other, records, -⟩ := stages _ (remembers.records (.inl rfl) present)
    rw [remembers.eq_of_records records, records.valid] at valid
    cases valid

/-- Finishing a converged stage, before partition 2 is asked about. -/
theorem ensures_finishLoaderStageIfConverged (placed : config.Placed start machine)
    (stages : start.StagesNothingElse) :
    Ensures Answer.Any config.finishLoaderStageIfConverged
      (fun _ after => config.Spares start after ∧ after.status.Decided)
      (fun _ => config.Spares start) (config.Spares start) machine := by
  apply Ensures.bind
  refine .read (.onlyIf (fun both => ?_) fun _ => ?_)
  · have converges := placed.converges both
    refine ((keeps_unarmed_finishLoaderStage.ensures placed.untouched.unarmed).and
      ensures_finishLoaderStage_memory).mono ?_
      (fun _ _ holds => ⟨holds.1, .inl converges⟩) fun _ holds => ⟨holds.1, .inl converges⟩
    rintro _ after ⟨unarmed, recorded, forgotten⟩
    have valid := (metadataImageEqual_iff.mp (converged_images both).1).1
    have role : machine.status.stage.role = .h2loader := by
      simp only [converged, Bool.and_eq_true, decide_eq_true_eq] at both
      exact both.1.1.2
    refine ⟨⟨unarmed, .inl converges⟩, .inl ?_⟩
    simp [candidate, recorded, forgotten, valid, role, Metadata.zero]
  · exact ⟨placed.untouched.spares, placed.remembers.decided stages⟩

theorem timed_detectRolledBackApp (asked : candidate machine.status = true)
    (listed : machine.listed config.appPartitionId = some false)
    (supported : (answers time).code ≠ errUnsupported) :
    Timed answers config.detectRolledBackApp
      (fun rolledBack after _ => rolledBack = true ∧ after = machine)
      (fun _ after _ => after = machine) (fun after => after = machine) time machine := by
  apply Timed.bind
  apply Timed.read
  rw [if_pos asked]
  apply Timed.bind
  apply Timed.bind
  apply Timed.attempt
  refine timed_probe (fun _ => ?_) (fun bad => ?_) rfl
  · apply Timed.bind
    apply Timed.read
    rw [listed]
    exact ⟨rfl, rfl⟩
  · dsimp only
    rw [if_neg supported]
    exact .fail rfl

/-- Without a candidate and without a stage there is nothing to do. -/
theorem ensures_goOn (unlisted : machine.status.partition2.valid = false)
    (unstaged : machine.status.stage.valid = false) {invariant : Machine → Prop}
    (holds : invariant machine) :
    Always Answer.Any (do recovered config.installStage; config.launch) invariant machine := by
  have skipped : converged machine.status = false := by
    simp [converged, unstaged]
  apply Ensures.bind
  apply Ensures.recovering
  apply Ensures.bind
  refine .read (.onlyIf (fun staged => ?_) fun _ => ?_)
  · rw [unstaged] at staged
    cases staged
  · apply Ensures.bind
    refine .read ?_
    rw [if_pos (.inl unlisted)]
    apply Ensures.bind
    apply Ensures.recovering
    apply Ensures.bind
    refine .read (.onlyIf (fun both => ?_) fun _ => .pure holds)
    rw [skipped] at both
    cases both

end Parts

/-- The automatic part of a startup, once the loader has read its status and recorded itself. -/
theorem timed_startAutomatically {config : BootConfig} {start : Machine}
    (placed : config.Placed start machine) (stages : start.StagesNothingElse)
    (listed : start.listed config.appPartitionId = some false)
    (supported : ∀ ready looking, recovered config.finishLoaderStageIfConverged answers time
      machine = .returned () ready looking → (answers looking).code ≠ errUnsupported) :
    Timed answers config.startAutomatically (fun _ after _ => config.Spares start after)
      (fun _ after _ => config.Spares start after) (config.Spares start) time machine := by
  have insensitive := insensitive_spares config start
  have any : ∀ index, Answer.Any (answers index) := fun _ => trivial
  apply Timed.bind
  refine (timed_recovered insensitive ((ensures_finishLoaderStageIfConverged placed stages).timed
    any)).known.mono ?_ (fun _ _ _ => id) fun _ holds => holds
  rintro _ ready looking ⟨⟨spares, decided⟩, returned⟩
  have unbootable : ready.listed config.appPartitionId = some false := by
    rw [spares.1.listed]
    exact listed
  apply Timed.bind
  rcases decided with asked | ⟨unlisted, unstaged⟩
  · refine timed_recovered insensitive ((timed_detectRolledBackApp asked unbootable
      (supported ready looking returned)).mono ?_ ?_ ?_)
    · rintro _ after _ ⟨rfl, rfl⟩
      exact spares
    · rintro _ after _ rfl
      exact spares
    · rintro after rfl
      exact spares
  · have unasked : candidate ready.status = false := by
      simp [candidate, unlisted]
    apply Timed.recovering
    apply Timed.bind
    apply Timed.read
    rw [unasked]
    exact (ensures_goOn unlisted unstaged spares).timed any

/-- A startup from partition 1 that finds partition 2 reported as not bootable, while no other
image is staged, arms and writes nothing; and it leaves the records of the stage and of partition
2, unless the stage is a loader package that names the running image. -/
theorem rolled_back_startup_spares (config : BootConfig) (accepted : config.Accepted)
    (machine : Machine) (answers : Nat → Answer) (time : Nat)
    (honest : ∀ index, (answers index).Honest)
    (first : machine.running = config.h2loaderPartitionId) (stages : machine.StagesNothingElse)
    (finds : config.FindsUnbootable answers time machine) :
    machine.Unarmed (config.startup answers time machine).state ∧
      (¬config.Converges machine →
        machine.Untouched (config.startup answers time machine).state) := by
  have insensitive := insensitive_spares config machine
  have any : ∀ index, Answer.Any (answers index) := fun _ => trivial
  have run : Timed answers config.startup (fun _ after _ => config.Spares machine after)
      (fun _ after _ => config.Spares machine after) (config.Spares machine) time machine := by
    have begun : config.Spares machine machine := (Machine.Untouched.refl machine).spares
    apply Timed.bind
    have mounts : Leaves id config.mountFilePoints :=
      .onlyIf (.bind (leaves_probe id) fun _ => leaves_probe id)
    have mounted : Ensures Answer.Any config.mountFilePoints (fun _ after => after = machine)
        (fun _ => config.Spares machine) (config.Spares machine) machine :=
      .quiet mounts (fun _ => rfl) (fun _ => begun) begun
    refine (timed_recovered insensitive (mounted.timed any)).known.mono ?_
      (fun _ _ _ => id) fun _ holds => holds
    rintro _ after mounting ⟨same, mounted⟩
    subst after
    apply Timed.bind
    have remembering : Ensures Answer.Honest config.readStatus
        (fun _ after => machine.Remembers after.status) (fun _ _ => True) (fun _ => True) machine :=
      ensures_readStatus_honest
    have reads := ((keeps_readStatus (insensitive_untouched machine)).ensures
      (.refl machine)).and remembering
    refine (timed_recovered insensitive ((reads.timed honest).mono (fun _ _ _ => id)
      (fun _ _ _ holds => holds.1.spares) fun _ holds => holds.1.spares)).known.mono ?_
      (fun _ _ _ => id) fun _ holds => holds
    rintro _ seen reading ⟨⟨untouched, remembers⟩, read⟩
    apply Timed.bind
    refine (timed_recovered insensitive (((ensures_seedRunningMetadata_first first untouched
      remembers).timed any).mono (fun _ _ _ => id) (fun _ _ _ holds => holds.spares)
      fun _ holds => holds.spares)).known.mono ?_ (fun _ _ _ => id) fun _ holds => holds
    rintro _ seeded seeding ⟨placed, seed⟩
    apply Timed.bind
    refine (timed_recovered insensitive (((ensures_confirm_placed placed).timed any).mono
      (fun _ _ _ => id) (fun _ _ _ holds => holds.untouched.spares)
      fun _ holds => holds.untouched.spares)).known.mono ?_ (fun _ _ _ => id)
      fun _ holds => holds
    rintro _ confirmed confirming ⟨placed, confirm⟩
    have spares : config.Spares machine confirmed := placed.untouched.spares
    have supported : ∀ ready looking, recovered config.finishLoaderStageIfConverged answers
        confirming confirmed = .returned () ready looking →
          (answers looking).code ≠ errUnsupported := by
      intro ready looking finished
      refine finds.supported ready looking ?_
      rw [untilLookup, Program.bind_returned mounted, Program.bind_returned read,
        Program.bind_returned seed, Program.bind_returned confirm, finished]
    split
    · exact .pure spares
    · apply Timed.bind
      apply Timed.read
      have running : confirmed.status.runningPartition = config.h2loaderPartitionId :=
        placed.remembers.running.trans first
      rw [if_neg (by rw [running]; exact accepted.different), if_neg (not_not_intro running)]
      apply Timed.bind
      apply Timed.read
      split
      · exact .pure spares
      · split
        · exact ((ensures_failRecovery insensitive spares).timed any)
        · exact timed_startAutomatically placed stages finds.listed supported
  have spares := Timed.ended.mp run
  exact ⟨spares.1, fun apart => spares.2.resolve_left apart⟩

section Examples

/-- A machine that runs its loader from partition 1, goes on by itself, and would not boot
partition 2. -/
def refusingMachine (stage partition2 : Option Metadata) : Machine :=
  { benchMachine [1, 2, 3] with
    running := 1
    next := 1
    listed := fun partition => if partition = 2 then some false else none
    pref := {
      bootIntent := some intentAuto
      stage := stage.bind (metadataEncode .stage)
      partition2 := partition2.bind (metadataEncode .partition2) } }

/-- Platforms that always work can be asked about partition 2. -/
theorem findsUnbootable_refusingMachine (stage partition2 : Option Metadata) :
    benchConfig.FindsUnbootable (fun _ => {}) 0 (refusingMachine stage partition2) :=
  ⟨rfl, fun _ _ _ => show (0 : Int) ≠ errUnsupported by decide⟩

/-- A record of an example image. -/
def benchRecord (role : ImageRole) (image : Bytes) : Metadata :=
  { metadataFromIdentity (benchIdentity role image) with
    packageChecksum := .copy _ (benchDigest.hex [7])
    packageSize := 1 }

/-- An application that was rolled back is not booted again. -/
theorem rolled_back_startup_spares_app :
    (refusingMachine none (some (benchRecord .app [9]))).StagesNothingElse ∧
    (benchConfig.startup (fun _ => {}) 0
      (refusingMachine none (some (benchRecord .app [9])))).state.next = 1 := by
  have unstaged : (refusingMachine none (some (benchRecord .app [9]))).StagesNothingElse := by
    rintro staged ⟨stored, -⟩
    cases stored
  have spares := rolled_back_startup_spares benchConfig benchConfig_accepted
    (refusingMachine none (some (benchRecord .app [9]))) (fun _ => {}) 0
    (fun _ => show (0 : Int) ≠ errNotFound by decide) rfl unstaged
    (findsUnbootable_refusingMachine _ _)
  exact ⟨unstaged, spares.1.next⟩

/-- A machine whose stage is the loader that runs, which is recorded for partition 2 as well. -/
def convergedMachine : Machine :=
  refusingMachine (some (benchRecord .h2loader [1, 2, 3])) (some (benchRecord .h2loader [1, 2, 3]))

/-- A stage that has converged is finished before partition 2 is asked about. -/
theorem converged_stage_is_finished :
    convergedMachine.StagesNothingElse ∧
    benchConfig.FindsUnbootable (fun _ => {}) 0 convergedMachine ∧
    convergedMachine.pref.stage.isSome ∧
    (benchConfig.startup (fun _ => {}) 0 convergedMachine).state.pref.stage = none := by
  have stored : convergedMachine.record .stage = some (benchRecord .h2loader [1, 2, 3]) := by
    decide +kernel
  have recorded : convergedMachine.Records .partition2 (benchRecord .h2loader [1, 2, 3]) :=
    ⟨by decide +kernel, by decide +kernel⟩
  refine ⟨?_, findsUnbootable_refusingMachine _ _, by decide +kernel⟩
  rintro staged ⟨found, -⟩
  obtain rfl := Option.some.inj (stored.symm.trans found)
  exact ⟨_, recorded, by decide +kernel⟩

end Examples

end Gizos.Loader
