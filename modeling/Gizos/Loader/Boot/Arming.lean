import Gizos.Loader.Boot.Records

/-! # When partition 2 is armed

The reboot commands and the startup arm partition 2 only for an image that the loader's status
lists as valid, and for an application only behind the manufacturing gate. The availability the
loader reports for the command that boots the application is the guard of that command.
-/
namespace Gizos.Loader

open Fault Pal Gizos.Bundle

/-- The mask of one bit. -/
def flag (bit : UInt32) : UInt32 := 1 <<< bit

/-- `H2_LOADER_COMMAND_AVAILABLE_REBOOT_APP`. -/
def commandRebootApp : UInt32 := flag 0
/-- `H2_LOADER_COMMAND_AVAILABILITY_INITIALIZED`. -/
def availabilityInitialized : UInt32 := flag 30
/-- `H2_LOADER_CAPABILITY_WIFI`. -/
def capabilityWifi : UInt32 := flag 1
/-- The commands that need a Wi-Fi: URL staging, scan, connect, disconnect and status. -/
def commandsOfWifi : UInt32 := flag 13 ||| flag 16 ||| flag 17 ||| flag 18 ||| flag 20

/-- `H2_LOADER_COMMAND_AVAILABILITY_ALL`: reboots, help, status, statistics, memory, core dumps,
staging, Wi-Fi and manufacturing. -/
def commandsAll : UInt32 :=
  commandRebootApp ||| flag 1 ||| flag 19 ||| flag 2 ||| flag 3 ||| flag 4 |||
    flag 5 ||| flag 8 ||| flag 9 ||| flag 10 ||| flag 11 ||| flag 12 |||
    commandsOfWifi ||| flag 21

/-- `load_availability`: everything is available until something has been set. -/
def loadAvailability (stored : UInt32) : UInt32 :=
  if stored &&& availabilityInitialized ≠ 0 then stored &&& commandsAll else commandsAll

namespace BootConfig

variable (config : BootConfig)

/-- `h2_loader_get_command_availability`, for a status that need not be the cached one. -/
def commandAvailability (machine : Machine) (status : Status) : UInt32 :=
  let available := loadAvailability machine.implementedCommands &&&
    loadAvailability machine.commandAvailability
  let available := if status.capabilities &&& capabilityWifi = 0 then
    available &&& ~~~commandsOfWifi else available
  if status.partition2.valid = false ∨ status.partition2.role ≠ .app ∨
      config.mfgGateSatisfied machine = false then available &&& ~~~commandRebootApp
  else available

end BootConfig

/-- The calls that may change the next partition. -/
inductive BootCommand where
  /-- `h2_loader_startup`. -/
  | startup
  /-- `h2_loader_reboot_app_with_transition`. -/
  | rebootApp (transition : Bool)
  /-- `h2_loader_reboot_upgrade_with_transition`. -/
  | rebootUpgrade (transition : Bool)
  /-- `h2_loader_reboot_h2loader_with_transition`. -/
  | rebootH2loader (transition : Bool)

/-- What a call does. -/
def BootConfig.perform (config : BootConfig) : BootCommand → BootRoutine Unit
  | .startup => do
    let _ ← config.startup
    pure ()
  | .rebootApp transition => config.rebootApp transition
  | .rebootUpgrade transition => config.rebootUpgrade transition
  | .rebootH2loader transition => config.rebootH2loader transition

/-- The loader's status lets partition 2 be booted: its record is valid, and an application has
passed the manufacturing gate. -/
structure BootConfig.Ready (config : BootConfig) (machine : Machine) : Prop where
  valid : machine.status.partition2.valid = true
  gate : machine.status.partition2.role = .app → config.mfgGateSatisfied machine = true

/-- Partition 2 is the next one only if it was so at the start, or may be by the status. -/
def BootConfig.ArmsProperly (config : BootConfig) (start machine : Machine) : Prop :=
  machine.next = config.appPartitionId → start.next = config.appPartitionId ∨ config.Ready machine

section Frames

/-- What readiness depends on. -/
def Machine.readiness (machine : Machine) : Metadata × MfgSummary × Bool :=
  (machine.status.partition2, machine.status.mfg, machine.mfgGateBypass)

variable {config : BootConfig} {start before after machine : Machine}

theorem BootConfig.Ready.of_readiness (ready : config.Ready before)
    (same : after.readiness = before.readiness) : config.Ready after := by
  obtain ⟨record, mfg, bypass⟩ : after.status.partition2 = before.status.partition2 ∧
      after.status.mfg = before.status.mfg ∧ after.mfgGateBypass = before.mfgGateBypass := by
    simpa [Machine.readiness] using same
  refine ⟨by rw [record]; exact ready.valid, fun app => ?_⟩
  rw [record] at app
  have passed := ready.gate app
  rw [BootConfig.mfgGateSatisfied] at passed ⊢
  rw [mfg, bypass]
  exact passed

variable {α : Type}

theorem leaves_next_onPref (body : Routine Preferences α) : Leaves Machine.next (onPref body) :=
  .on fun _ _ => rfl

theorem leaves_next_onStorage (body : Routine Storage α) : Leaves Machine.next (onStorage body) :=
  .on fun _ _ => rfl

theorem leaves_next_cache (change : Status → Status) : Leaves Machine.next (cache change) :=
  .update fun _ => rfl

theorem leaves_next_writeRecord (slot : Slot) (metadata : Metadata) :
    Leaves Machine.next (writeRecord slot metadata) :=
  .bind (leaves_next_onPref _) fun _ => leaves_next_cache _

theorem leaves_next_finishLoaderStageIfConverged :
    Leaves Machine.next config.finishLoaderStageIfConverged :=
  .bind (.read _) fun _ => .onlyIf <| .bind (.read _) fun _ =>
    .bind (.conclude _) fun _ => .bind (leaves_next_writeRecord _ _) fun _ =>
    .bind (leaves_next_writeRecord _ _) fun _ =>
    .bind (.bind (leaves_next_onPref _) fun _ =>
      .bind (leaves_next_onStorage _) fun _ => leaves_next_onPref _) fun _ =>
    .bind (leaves_next_cache _) fun _ =>
      .bind (leaves_next_onPref _) fun _ => leaves_next_cache _

theorem leaves_next_installStage : Leaves Machine.next config.installStage :=
  .bind (.read _) fun _ => .onlyIf <|
    .bind (.bind (.read _) fun _ =>
      .recovering (leaves_next_onStorage _) fun _ =>
        .bind (leaves_next_onPref _).ignoring fun _ =>
        .bind (leaves_next_cache _) fun _ => .fail _) fun _ =>
    .bind (leaves_next_onStorage _) fun _ =>
    .bind (.onlyIf (leaves_next_writeRecord _ _)) fun _ =>
    .bind (leaves_next_onStorage _) fun _ => .bind (.read _) fun _ =>
    .bind (.conclude _) fun _ => leaves_next_writeRecord _ _

/-- Setting the next partition and rebooting keeps what changes of the intent keep, and changes of
the next partition to the one asked for and back. -/
theorem ensures_setNextAndReboot {invariant : Machine → Prop} {partition intent : Nat}
    {transition : Bool} (intends : ∀ intent, Keeps invariant (setIntent intent))
    (sets : ∀ next, next = machine.next ∨ next = partition → Keeps invariant (setNext next))
    (remembers : Keeps invariant
      (cache fun status => { status with bootIntent := intent, nextPartition := partition }))
    (start : invariant machine) :
    Always Answer.Any (config.setNextAndReboot partition intent transition) invariant machine := by
  have restores : ∀ code, Keeps invariant (restore machine.next machine.status.bootIntent code) :=
    fun code => .bind (sets _ (.inl rfl)).ignoring fun _ => .bind (intends _).ignoring fun _ =>
      .fail _
  have optional : ∀ condition, Keeps invariant
      (Program.onlyIf condition probe : BootRoutine Unit) := fun _ => .onlyIf fun _ => keeps_probe _
  apply Ensures.bind
  refine .read (.bind (ensures_probe ?_ (fun _ _ => start) start))
  apply Ensures.bind
  refine .read (Keeps.ensures ?_ start)
  exact .bind (optional _) fun _ => .bind (intends _) fun _ =>
    .bind (.recovering (sets _ (.inr rfl)) fun _ => .bind (intends _).ignoring fun _ => .fail _)
      fun _ =>
    .bind (.recovering (optional _) restores) fun _ =>
    .bind (.recovering (keeps_probe _) restores) fun _ => remembers

theorem ensures_arming {intent : Nat} {transition : Bool} (ready : config.Ready machine) :
    Always Answer.Any (config.setNextAndReboot config.appPartitionId intent transition)
      (config.ArmsProperly start) machine := by
  have intends : ∀ intent, Leaves Machine.readiness (setIntent intent) := fun _ =>
    .on fun _ _ => rfl
  have still : Always Answer.Any (config.setNextAndReboot config.appPartitionId intent transition)
      config.Ready machine :=
    ensures_setNextAndReboot (fun _ => (intends _).keeps fun _ _ same ready =>
      ready.of_readiness same)
      (fun _ _ => keeps_act fun _ ready => ready.of_readiness rfl)
      (.update fun _ ready => ready.of_readiness rfl) ready
  exact still.weaken fun _ ready _ => .inr ready

theorem ensures_arming_h2loader {intent : Nat} {transition : Bool} (accepted : config.Accepted) :
    Always Answer.Any (config.setNextAndReboot config.h2loaderPartitionId intent transition)
      (config.ArmsProperly machine) machine := by
  have between : Always Answer.Any
      (config.setNextAndReboot config.h2loaderPartitionId intent transition)
      (fun after => after.next = machine.next ∨ after.next = config.h2loaderPartitionId) machine :=
    ensures_setNextAndReboot
      (fun _ => (leaves_next_onPref _).keeps fun _ _ same one => same.symm ▸ one)
      (fun _ one => keeps_act fun _ _ => one) (.update fun _ => id) (.inl rfl)
  refine between.weaken fun after one armed => ?_
  rcases one with same | set
  · exact .inl (same.symm.trans armed)
  · exact absurd (set.symm.trans armed) accepted.different

theorem BootConfig.ArmsProperly.of_next (same : machine.next = start.next) :
    config.ArmsProperly start machine :=
  fun armed => .inl (same.symm.trans armed)

theorem ensures_recovered {body : BootRoutine α} {onReturn : α → Machine → Prop}
    (ensured : Ensures Answer.Any body onReturn (fun _ => config.ArmsProperly start)
      (config.ArmsProperly start) machine) :
    Ensures Answer.Any (recovered body) onReturn (fun _ => config.ArmsProperly start)
      (config.ArmsProperly start) machine := by
  refine .recovering (ensured.mono (fun _ _ => id) (fun code after proper => ?_) fun _ => id)
  have frame : Leaves (fun after : Machine => (after.next, after.readiness)) (setLastResult code) :=
    .bind (.on fun _ _ => rfl) fun _ => .update fun _ => rfl
  have kept : Keeps (config.ArmsProperly start) (setLastResult code) := by
    refine frame.keeps fun before after same proper armed => ?_
    obtain ⟨next, readiness⟩ := Prod.mk.inj same
    exact (proper (next.symm.trans armed)).imp id fun ready => ready.of_readiness readiness
  exact .bind ((kept.ignoring.ensures proper).imp fun _ _ still => .fail still)

/-- A part of the startup that leaves the next partition alone is proper. -/
theorem ensures_before_arming {body : BootRoutine α} (frame : Leaves Machine.next body)
    (same : machine.next = start.next) :
    Ensures Answer.Any (recovered body) (fun _ after => after.next = start.next)
      (fun _ => config.ArmsProperly start) (config.ArmsProperly start) machine := by
  have kept := frame.keepsValue start.next
  exact ensures_recovered ((kept.ensures same).mono (fun _ _ => id)
    (fun _ _ same => .of_next same) fun _ same => .of_next same)

/-- The status lists a loader for partition 2. -/
def Machine.ListsLoader (machine : Machine) : Prop :=
  machine.status.partition2.valid = true ∧ machine.status.partition2.role = .h2loader

theorem Machine.ListsLoader.ready (lists : machine.ListsLoader) : config.Ready machine where
  valid := lists.1
  gate app := by
    rw [lists.2] at app
    cases app

theorem listsLoader_of_matches {metadata : Metadata}
    (loader : config.activeIdentity.role = .h2loader)
    (matching : metadataImageEqual metadata (metadataFromIdentity config.activeIdentity) = true) :
    metadata.valid = true ∧ metadata.role = .h2loader :=
  ⟨(metadataImageEqual_iff.mp matching).1, (role_eq_of_metadataImageEqual matching).trans loader⟩

theorem keeps_copyPartition2To1 (loader : config.activeIdentity.role = .h2loader) :
    Keeps Machine.ListsLoader config.copyPartition2To1 := by
  have status : ∀ {β : Type} {body : BootRoutine β}, Leaves Machine.status body →
      Keeps Machine.ListsLoader body := fun frame =>
    frame.keeps fun before after same lists => by
      unfold Machine.ListsLoader
      rw [same]
      exact lists
  have prefs : ∀ {β : Type} (body : Routine Preferences β),
      Keeps Machine.ListsLoader (onPref body) := fun body => status (.on fun _ _ => rfl)
  have records : ∀ metadata, Keeps Machine.ListsLoader (writeRecord .partition1 metadata) :=
    fun metadata => .bind (prefs _) fun _ => .update fun _ lists => lists
  have aims : ∀ partition, Keeps Machine.ListsLoader (setNext partition) := fun partition =>
    keeps_act fun _ lists => lists
  have copied : Keeps Machine.ListsLoader config.recordCopy := by
    refine .bind (.read _) fun memory => ?_
    dsimp only
    split
    · rename_i same
      have found := listsLoader_of_matches loader same
      refine .bindConclude fun metadata staged => ?_
      obtain rfl := metadataFromStage_ok staged
      exact .bind (.bind (prefs _) fun _ => .update fun _ _ => found) fun _ =>
        .pure _
    · exact .pure _
  have results : Keeps Machine.ListsLoader (setLastResult 0) :=
    .bind (prefs _) fun _ => .update fun _ lists => lists
  have reboots : Keeps Machine.ListsLoader
      (config.setNextAndReboot config.h2loaderPartitionId intentAuto false) :=
    fun answers time machine lists => (ensures_setNextAndReboot (fun _ => prefs _)
      (fun _ _ => aims _) (.update fun _ => id) lists).reached
        ⟨answers, fun _ => trivial, time, rfl⟩
  exact .bind (aims _) fun _ => .bind (records _) fun _ =>
    .bind (status (.on fun _ _ => rfl)) fun _ => .bind copied fun _ =>
    .bind (records _) fun _ => .bind results fun _ => reboots

theorem ensures_launch (same : machine.next = start.next) :
    Always Answer.Any config.launch (config.ArmsProperly start) machine := by
  apply Ensures.bind
  refine .read ?_
  dsimp only
  split_ifs with nothing gated
  · exact .bind ((ensures_before_arming leaves_next_finishLoaderStageIfConverged same).imp
      fun _ _ still => .pure (.of_next still))
  · exact .pure (.of_next same)
  · have ready : config.Ready machine := by
      refine ⟨?_, fun app => ?_⟩
      · rcases not_or.mp nothing with ⟨valid, -⟩
        simpa using valid
      · by_contra refused
        exact gated ⟨app, Bool.eq_false_iff.mpr refused⟩
    exact .bind ((ensures_recovered (ensures_arming ready)).imp fun _ _ proper => .pure proper)

theorem ensures_failRecovery_proper {code : Int} {onReturn : α → Machine → Prop}
    (same : machine.next = start.next) :
    Ensures Answer.Any (failRecovery code) onReturn (fun _ => config.ArmsProperly start)
      (config.ArmsProperly start) machine := by
  exact ensures_recovered (.fail (.of_next same))

theorem ensures_startFromPartition1_proper (same : machine.next = start.next) :
    Always Answer.Any config.startFromPartition1 (config.ArmsProperly start) machine := by
  apply Ensures.bind
  refine .read ?_
  split_ifs
  · exact .pure (.of_next same)
  · exact ensures_failRecovery_proper same
  · apply Ensures.bind
    refine (ensures_before_arming leaves_next_finishLoaderStageIfConverged same).imp
      fun _ finished same => ?_
    apply Ensures.bind
    have detects : Leaves Machine.next config.detectRolledBackApp :=
      .comp leaves_detectRolledBackApp Machine.next
    refine (ensures_before_arming detects same).imp fun rolledBack detected same => ?_
    split_ifs
    · exact .pure (.of_next same)
    · exact .bind ((ensures_before_arming leaves_next_installStage same).imp
        fun _ installed same => ensures_launch same)

theorem ensures_startLoader_proper (accepted : config.Accepted)
    (loader : config.activeIdentity.role = .h2loader) (same : machine.next = start.next)
    {slot : Slot} (found : config.slotForPartition machine.status.runningPartition = some slot)
    (matching : config.Seeded machine slot) :
    Always Answer.Any config.startLoader (config.ArmsProperly start) machine := by
  apply Ensures.bind
  refine .read ?_
  split_ifs with second other
  · have slotted : slot = .partition2 := by
      rw [BootConfig.slotForPartition, second, if_neg accepted.different.symm, if_pos rfl] at found
      exact (Option.some.inj found).symm
    subst slotted
    have lists : machine.ListsLoader := listsLoader_of_matches loader matching
    have proper : ∀ after : Machine, after.ListsLoader → config.ArmsProperly start after :=
      fun _ lists _ => .inr lists.ready
    exact .bind ((ensures_recovered (((keeps_copyPartition2To1 loader).ensures lists).mono
      (fun _ => proper) (fun _ => proper) proper)).imp fun _ _ proper => .pure proper)
  · exact ensures_failRecovery_proper same
  · exact ensures_startFromPartition1_proper same

theorem leaves_next_seedRunningMetadata : Leaves Machine.next config.seedRunningMetadata := by
  refine .bind (.read _) fun status => ?_
  split
  · exact .fail _
  · exact .bind (.require _ _) fun _ => .onlyIf (leaves_next_writeRecord _ _)

theorem ensures_startup_proper (accepted : config.Accepted) :
    Always Answer.Any config.startup (config.ArmsProperly machine) machine := by
  apply Ensures.bind
  refine (ensures_before_arming ?_ rfl).imp fun _ mounted same => ?_
  · exact .onlyIf (.bind (leaves_probe _) fun _ => leaves_probe _)
  apply Ensures.bind
  refine ((ensures_before_arming (.of_keeps fun _ =>
    keeps_readStatus ⟨fun _ _ => id, fun _ _ _ => id⟩) same).also
    (walks_readStatus (.refl mounted.store)).recovered).imp ?_
  rintro _ read ⟨same, -, settled, -⟩
  apply Ensures.bind
  refine ((ensures_before_arming leaves_next_seedRunningMetadata same).also
    (walks_seedRunningMetadata settled).recovered).imp ?_
  rintro _ seed ⟨same, -, settled, boot, slot, found, matching⟩
  apply Ensures.bind
  have confirms : Leaves (fun after : Machine => (after.next, after.status)) config.confirm :=
    .onlyIf <| .bind (leaves_probe _) fun _ => .update fun _ => rfl
  refine ensures_recovered (((confirms.keepsValue _).ensures rfl).mono ?_ ?_ ?_)
  · intro _ after kept
    obtain ⟨next, status⟩ := Prod.mk.inj kept
    split_ifs with loader
    · exact .pure (.of_next (next.trans same))
    · have runs : config.slotForPartition after.status.runningPartition = some slot := by
        rw [status, settled.running, boot.running]
        exact found
      refine ensures_startLoader_proper accepted (not_not.mp loader) (next.trans same) runs ?_
      unfold BootConfig.Seeded
      rw [status]
      exact matching
  · intro _ after kept
    exact .of_next ((Prod.mk.inj kept).1.trans same)
  · intro after kept
    exact .of_next ((Prod.mk.inj kept).1.trans same)

end Frames

variable {config : BootConfig} {before after machine : Machine}

theorem ensures_perform_proper (accepted : config.Accepted) (command : BootCommand) :
    Always Answer.Any (config.perform command) (config.ArmsProperly machine) machine := by
  cases command with
  | startup =>
    exact .bind ((ensures_startup_proper accepted).imp fun _ _ proper =>
      .pure proper)
  | rebootApp transition =>
    apply Ensures.bind
    refine .read (.bind (.require (fun guarded => ?_) fun _ =>
      .of_next rfl))
    simp only [BootConfig.appGuard, Bool.and_eq_true, id] at guarded
    exact ensures_arming ⟨guarded.1.1, fun _ => guarded.2⟩
  | rebootUpgrade transition | rebootH2loader transition => exact ensures_arming_h2loader accepted

/-- Masking a bit out takes it away, whatever the word was. -/
theorem commandRebootApp_masked (word : UInt32) :
    word &&& ~~~commandRebootApp &&& commandRebootApp = 0 := by
  rw [UInt32.and_assoc]
  simp

/-- The command that boots the application is reported only when its guard accepts. -/
theorem appGuard_of_available {status : Status}
    (available : config.commandAvailability machine status &&& commandRebootApp ≠ 0) :
    status.partition2.valid = true ∧ status.partition2.role = .app ∧
      config.mfgGateSatisfied machine = true := by
  by_cases refused : status.partition2.valid = false ∨ status.partition2.role ≠ .app ∨
      config.mfgGateSatisfied machine = false
  · rw [BootConfig.commandAvailability, if_pos refused] at available
    exact absurd (commandRebootApp_masked _) available
  · simp only [not_or, Bool.not_eq_false, not_not] at refused
    exact refused

/-- A turn of a loader's history: a call that ends or is cut off anywhere, or anything else that
leaves the next partition alone. -/
inductive BootConfig.CallTurn (config : BootConfig) : Machine → Machine → Prop where
  | call (command : BootCommand) (before after : Machine)
    (ran : Reaches Answer.Any (config.perform command) before after) : CallTurn config before after
  /-- Memory, records and settings change. -/
  | other (before after : Machine) (next : after.next = before.next) : CallTurn config before after

/-- A call armed partition 2, for a status that is ready for it. -/
structure BootConfig.Arms (config : BootConfig) (before after : Machine) : Prop where
  call : ∃ command, Reaches Answer.Any (config.perform command) before after
  unarmed : before.next ≠ config.appPartitionId
  armed : after.next = config.appPartitionId
  ready : config.Ready after

/-- A turn in which partition 2 becomes the next one is a call that arms it. -/
theorem BootConfig.CallTurn.arms (turn : config.CallTurn before after) (accepted : config.Accepted)
    (unarmed : before.next ≠ config.appPartitionId) (armed : after.next = config.appPartitionId) :
    config.Arms before after := by
  cases turn with
  | other _ _ next => exact absurd (next.symm.trans armed) unarmed
  | call command _ _ ran =>
    have ready := (((ensures_perform_proper accepted command).reached ran) armed).resolve_left
      unarmed
    exact ⟨⟨command, ran⟩, unarmed, armed, ready⟩

/-- Over every history, partition 2 boots next only if it did so all along, or since a turn of the
history that is a call which armed it, when its record was valid and an application had passed the
gate; and where the loader's own status makes the command available that boots the application, the
command's guard accepts. -/
theorem partition2_armed_behind_gate (accepted : config.Accepted) {first : Machine}
    {rest : List Machine} (history : (first :: rest).IsChain config.CallTurn) :
    (((first :: rest).getLast (List.cons_ne_nil _ _)).next = config.appPartitionId →
      (∀ machine ∈ first :: rest, machine.next = config.appPartitionId) ∨
      ∃ earlier before after later, first :: rest = earlier ++ before :: after :: later ∧
        config.Arms before after ∧
        ∀ machine ∈ after :: later, machine.next = config.appPartitionId) ∧
    ∀ machine ∈ first :: rest,
      config.commandAvailability machine machine.status &&& commandRebootApp ≠ 0 →
        config.appGuard machine = true := by
  refine ⟨?_, fun machine _ available => ?_⟩
  · -- The induction takes the first turn off; what follows it is a history of its own.
    induction rest generalizing first with
    | nil => exact fun armed => .inl fun machine member => List.mem_singleton.mp member ▸ armed
    | cons second rest ih =>
      rw [List.isChain_cons_cons] at history
      intro armed
      rcases ih history.2 armed with always | ⟨earlier, before, after, later, same, arms⟩
      · by_cases already : first.next = config.appPartitionId
        · exact .inl (List.forall_mem_cons.mpr ⟨already, always⟩)
        · have arms := history.1.arms accepted already (always second List.mem_cons_self)
          exact .inr ⟨[], first, second, rest, rfl, arms, always⟩
      · exact .inr ⟨first :: earlier, before, after, later, by rw [same]; rfl, arms⟩
  · obtain ⟨valid, app, gate⟩ := appGuard_of_available available
    simp [BootConfig.appGuard, valid, app, gate]

/-- A loader behind a manufacturing gate. -/
def gatedConfig : BootConfig := { benchConfig with mfgRequiredTotal := 22 }

/-- A machine that boots an application next which has not passed the gate. -/
def ungatedMachine : Machine :=
  { benchMachine [1, 2, 3] with
    running := 1
    status := { partition2 := metadataFromIdentity (benchIdentity .app [1, 2, 3]) } }

/-- A machine with a record of an application. -/
def storedMachine : Machine :=
  { benchMachine [1, 2, 3] with
    running := 1
    pref := (benchMachine [1, 2, 3]).pref.withSlot .partition2
      (metadataEncode .partition2 (metadataFromIdentity (benchIdentity .app [1, 2, 3]))) }

/-- The machine after a startup that could not read the record. -/
def unreadMachine : Machine :=
  (benchConfig.perform .startup
    (fun index => if index = 0 then { code := Pal.errIo } else {}) 0 storedMachine).state

/-- A reboot to the loader whose transition fails arms the application again that it had put
aside, although the gate is not satisfied. And a status that is read afresh can offer the command
that boots the application while the guard still goes by the status of a failed startup. -/
theorem rearmed_and_offered_without_guard :
    (gatedConfig.mfgGateSatisfied ungatedMachine = false ∧
      (gatedConfig.perform (.rebootH2loader true)
        (fun index => if index = 6 then { reset := true } else {}) 0 ungatedMachine).state.next =
          1 ∧
      (gatedConfig.perform (.rebootH2loader true)
        (fun index => if index = 6 then { code := Pal.errIo } else {}) 0
        ungatedMachine).state.next = 2) ∧
    (benchConfig.commandAvailability unreadMachine
        (benchConfig.readStatus (fun _ => {}) 0 unreadMachine).state.status &&&
        commandRebootApp ≠ 0 ∧
      benchConfig.appGuard unreadMachine = false) := by
  decide +kernel

/-- A record of an application appears, and the command that boots the application arms it. -/
theorem bench_armed_behind_gate :
    let config := benchConfig
    let before := { ungatedMachine with next := 1 }
    let after := (config.perform (.rebootApp false) (fun _ => {}) 0 before).state
    after.next = 2 ∧ ∃ earlier unarmed armed later,
      [{ before with status := {} }, before, after] = earlier ++ unarmed :: armed :: later ∧
        config.Arms unarmed armed ∧ ∀ machine ∈ armed :: later, machine.next = 2 := by
  intro config before after
  have next : after.next = 2 := by decide +kernel
  have called : config.CallTurn before after :=
    .call (.rebootApp false) _ _ ⟨fun _ => {}, fun _ => trivial, 0, rfl⟩
  have history : [{ before with status := {} }, before, after].IsChain config.CallTurn :=
    .cons_cons (.other _ _ rfl) (.cons_cons called (.singleton _))
  refine ⟨next, ((partition2_armed_behind_gate benchConfig_accepted history).1 next).resolve_left
    ?_⟩
  exact fun always => absurd (always _ List.mem_cons_self) (by decide)

end Gizos.Loader
