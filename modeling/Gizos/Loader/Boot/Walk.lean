import Gizos.Loader.Boot.Steps
import Gizos.Loader.Mfg.Read

/-! # A startup moves by its steps

Every function of a startup is walked through once, under arbitrary failures and resets: each
change it makes is a step, and what the loader has in memory agrees with what is stored where a
later guard needs it.
-/
namespace Gizos.Loader

open Fault Pal Gizos.Bundle Preferences

variable {onReturn : Unit → Machine → Prop} {code : Int} {onFail : Int → Machine → Prop}
  {slot : Slot} {metadata a b : Metadata} {before after : Machine} {partition intent : Nat}

/-- An intent the loader knows. -/
def KnownIntent (intent : Nat) : Prop := intent = intentLoader ∨ intent = intentAuto

/-- The routine moves by the steps of a call, whatever the platform does. -/
def Walks {α : Type} (caller : Caller) (start : Machine) (body : BootRoutine α)
    (onReturn : α → Machine → Prop) (machine : Machine) : Prop :=
  Moves Answer.Any (BootStep caller start) body onReturn (fun _ _ => True) machine

variable {caller : Caller} {config : BootConfig} {start machine : Machine} {α β : Type}

theorem Walks.bind {first : BootRoutine α} {next : α → BootRoutine β}
    {onReturn : β → Machine → Prop}
    (walks : Walks caller start first
      (fun value after => Walks caller start (next value) onReturn after) machine) :
    Walks caller start (first >>= next) onReturn machine :=
  Moves.bind walks

theorem Walks.imp {body : BootRoutine α} {onReturn onReturn' : α → Machine → Prop}
    (walks : Walks caller start body onReturn machine)
    (returns : ∀ value after, onReturn value after → onReturn' value after) :
    Walks caller start body onReturn' machine :=
  .mono walks returns fun _ _ => id

theorem Walks.pure {value : α} {onReturn : α → Machine → Prop} (returns : onReturn value machine) :
    Walks caller start (Pure.pure value) onReturn machine :=
  Moves.pure returns

theorem Walks.fail {onReturn : α → Machine → Prop} :
    Walks caller start (Program.fail code) onReturn machine :=
  Moves.fail trivial

theorem Walks.conclude {result : Except Int α} {onReturn : α → Machine → Prop}
    (returns : ∀ value, result = .ok value → onReturn value machine) :
    Walks caller start (Program.conclude result) onReturn machine := by
  cases result with
  | ok value => exact .ret (returns value rfl)
  | error code => exact .fail

theorem walks_quiet {body : BootRoutine α} {onReturn : α → Machine → Prop} (frame : Leaves id body)
    (returns : ∀ value, onReturn value machine) : Walks caller start body onReturn machine :=
  .quiet frame returns fun _ => trivial

theorem walks_probe (returns : onReturn () machine) : Walks caller start probe onReturn machine :=
  walks_quiet (leaves_probe id) fun _ => returns

theorem walks_cached {onReturn : Status → Machine → Prop}
    (returns : onReturn machine.status machine) : Walks caller start cached onReturn machine :=
  .read returns

theorem walks_cache {change : Status → Status}
    (returns : onReturn () { machine with status := change machine.status }) :
    Walks caller start (cache change) onReturn machine :=
  .update (.memory machine _) returns

theorem moves_control {change : Preferences → Preferences}
    (slots : ∀ slot, (change machine.pref).slot slot = machine.pref.slot slot)
    (intent : (change machine.pref).bootIntent = machine.pref.bootIntent ∨
      ∃ known, KnownIntent known ∧ (change machine.pref).bootIntent = some known)
    (returns : onReturn () { machine with pref := change machine.pref })
    (failsBefore : ∀ code, onFail code machine)
    (failsAfter : ∀ code, onFail code { machine with pref := change machine.pref }) :
    Moves Answer.Any (BootStep caller start) (onPref (transaction probe change)) onReturn onFail
      machine := by
  have stepped : BootStep caller start machine { machine with pref := change machine.pref } := by
    refine .control machine _ slots ?_
    rcases intent with same | ⟨known, rfl | rfl, set⟩
    · exact .inl same
    · exact .inr (.inl set)
    · exact .inr (.inr set)
  exact .on (ensures_transaction (leaves_probe id) ⟨.inr stepped, returns⟩
    (fun code => ⟨.inl rfl, failsBefore code⟩) (fun code => ⟨.inr stepped, failsAfter code⟩)
    (.inl rfl) (.inr stepped))

/-- The machine with another last result, stored and in memory. -/
def Machine.withResult (machine : Machine) (result : Int) : Machine :=
  { machine with
    pref := { machine.pref with lastResult := some result }
    status := { machine.status with lastResult := result } }

theorem walks_setLastResult {result : Int} (returns : onReturn () (machine.withResult result)) :
    Walks caller start (setLastResult result) onReturn machine :=
  .bind (moves_control (fun slot => by cases slot <;> rfl) (.inl rfl) (walks_cache returns)
    (fun _ => trivial) fun _ => trivial)

theorem walks_failRecovery {onReturn : α → Machine → Prop} :
    Walks caller start (failRecovery code) onReturn machine := by
  refine .bind (.ignoring ?_)
  have recorded : Walks caller start (setLastResult code) (fun _ _ => True) machine :=
    walks_setLastResult trivial
  exact .mono recorded (fun _ _ _ => .fail) fun _ _ _ => .fail

theorem Walks.recovered {body : BootRoutine α} {onReturn : α → Machine → Prop}
    (walks : Walks caller start body onReturn machine) :
    Walks caller start (recovered body) onReturn machine :=
  .recovering (.mono walks (fun _ _ => id) fun _ _ _ => walks_failRecovery)

/-- Writing a record is a step, and memory follows when it succeeds. -/
theorem walks_writeRecord
    (stepped : ∀ data, metadataEncode slot metadata = some data →
      BootStep caller start machine { machine with pref := machine.pref.withSlot slot (some data) })
    (returns : ∀ data, metadataEncode slot metadata = some data → onReturn () { machine with
      pref := machine.pref.withSlot slot (some data)
      status := machine.status.withSlot slot metadata }) :
    Walks caller start (writeRecord slot metadata) onReturn machine :=
  .bind (.on (ensures_metadataWrite
    (fun data encoded => ⟨.inr (stepped data encoded), walks_cache (returns data encoded)⟩)
    (fun _ => ⟨.inl rfl, trivial⟩) (fun _ data encoded => ⟨.inr (stepped data encoded), trivial⟩)
    (.inl rfl) fun data encoded => .inr (stepped data encoded)))

/-- Making a record invalid is always a step. -/
theorem walks_discard
    (returns : ∀ data, metadataEncode slot .zero = some data → onReturn () { machine with
      pref := machine.pref.withSlot slot (some data)
      status := machine.status.withSlot slot .zero }) :
    Walks caller start (writeRecord slot .zero) onReturn machine :=
  walks_writeRecord (fun _ encoded => .discard machine slot _ (.inr encoded.symm)) returns

/-- The partitions that run and boot next are the same. -/
structure Machine.SameBoot (before after : Machine) : Prop where
  running : after.running = before.running
  next : after.next = before.next

theorem Machine.SameBoot.trans {first second third : Machine} (one : first.SameBoot second)
    (two : second.SameBoot third) : first.SameBoot third :=
  ⟨two.running.trans one.running, two.next.trans one.next⟩

/-- The loader has read its status: memory agrees with what is stored, and no image write is
open. -/
structure Machine.Settled (start machine : Machine) : Prop where
  synced : machine.Synced
  running : machine.status.runningPartition = machine.running
  intent : KnownIntent machine.status.bootIntent
  idle : NoWriteSince start.store machine.store

theorem leaves_readControlFields : Leaves id readControlFields := by
  have defaulted : ∀ {γ : Type} (default : γ) (look : Preferences → Option γ),
      Leaves id (orDefault default (lookup look)) := by
    intro γ default look
    refine .recovering (leaves_lookup id look) fun code => ?_
    split
    · exact .pure _
    · exact .fail _
  refine .bind (leaves_probe id).attempt fun opened => ?_
  cases opened with
  | error code =>
    dsimp only
    split
    · exact .pure _
    · exact .fail _
  | ok _ =>
    exact .bind (leaves_closingAfter <| .bind (defaulted _ _) fun _ =>
      .bind (defaulted _ _) fun _ => .pure _) fun _ =>
        .bind (.require _ _) fun _ => .pure _

theorem ensures_readControlFields {pref : Preferences} :
    Returns Answer.Any readControlFields (fun fields _ => KnownIntent fields.1) pref := by
  apply Ensures.bind
  apply Ensures.attempt
  refine ensures_probe ?_ (fun code _ => ?_) trivial
  · refine .after fun fields pref => ?_
    apply Ensures.bind
    exact .require (fun known => .pure known) fun _ => trivial
  · dsimp only
    split
    · exact .pure (.inl rfl)
    · exact .fail trivial

/-- Reading a record keeps memory in agreement. -/
theorem walks_readSlot (synced : machine.Synced)
    (returns : ∀ metadata, ({ machine with status := machine.status.withSlot slot metadata } :
      Machine).Synced →
      onReturn () { machine with status := machine.status.withSlot slot metadata }) :
    Walks caller start (readSlot slot) onReturn machine := by
  have agrees : ∀ metadata, (metadata.valid = true → machine.record slot = some metadata) →
      ({ machine with status := machine.status.withSlot slot metadata } : Machine).Synced := by
    intro metadata stored other valid
    by_cases same : other = slot
    · subst same
      rw [Status.slot_withSlot] at valid ⊢
      exact stored valid
    · rw [Status.slot_withSlot_of_ne _ _ same] at valid ⊢
      exact synced other valid
  refine .bind (.on (ensures_metadataLoad (fun _ => ⟨.inl rfl, ?_⟩) ?_
    (fun _ _ => ⟨.inl rfl, .bind (walks_cache (.bind .fail))⟩) (.inl rfl)))
  · exact .bind (walks_cache (.bind (.pure (.pure (returns _ (agrees _ fun invalid =>
      nomatch invalid))))))
  · intro blob metadata found decoded
    refine ⟨.inl rfl, .bind (walks_cache (.bind
      (.pure (.pure (returns _ (agrees _ fun _ => ?_))))))⟩
    rw [Machine.record, show machine.pref.slot slot = some blob from found]
    exact decoded

/-- The records are among what a manufacturing read leaves alone. -/
theorem Preferences.slot_of_besideMfg {left right : Preferences}
    (same : left.besideMfg = right.besideMfg) (slot : Slot) : left.slot slot = right.slot slot := by
  have seen := congrArg (fun pref : Preferences => pref.slot slot) same
  cases slot <;> exact seen

/-- Reading the manufacturing record may rewrite it, and nothing else. -/
theorem walks_mfgRead {onReturn : MfgSummary × Bool → Machine → Prop}
    (returns : ∀ result pref, (∀ slot, pref.slot slot = machine.pref.slot slot) →
      onReturn result { machine with pref }) :
    Walks caller start (onPref mfgRead) onReturn machine := by
  have stepped : ∀ pref : Preferences, pref.besideMfg = machine.pref.besideMfg →
      BootStep caller start machine { machine with pref } := by
    intro pref same
    have intent := congrArg bootIntent same
    exact .control machine pref (slot_of_besideMfg same) (.inl intent)
  refine .on (.leaving leaves_mfgRead (.trivially ?_ ?_ ?_))
  · exact fun result pref same => ⟨.inr (stepped pref same),
      returns result pref (slot_of_besideMfg same)⟩
  · exact fun _ pref same => ⟨.inr (stepped pref same), trivial⟩
  · exact fun pref same => .inr (stepped pref same)

theorem walks_readControlFields {onReturn : Nat × Int → Machine → Prop}
    (returns : ∀ fields, KnownIntent fields.1 → onReturn fields machine) :
    Walks caller start (onPref readControlFields) onReturn machine := by
  refine .on (.leaving leaves_readControlFields (ensures_readControlFields.mono ?_ ?_ ?_))
  · rintro fields _ known rfl
    exact ⟨.inl rfl, returns fields known⟩
  · exact fun _ _ _ same => ⟨.inl same, trivial⟩
  · exact fun _ _ same => .inl same

/-- Memory stays in agreement as long as the records do not change. -/
theorem Machine.Synced.alike (synced : before.Synced)
    (slots : ∀ slot, after.pref.slot slot = before.pref.slot slot)
    (memory : ∀ slot, after.status.slot slot = before.status.slot slot) : after.Synced := by
  intro slot valid
  rw [memory slot] at valid ⊢
  rw [Machine.record, slots slot]
  exact synced slot valid

theorem walks_refreshPartitions
    (returns : ∀ next, onReturn () { machine with status := { machine.status with
      runningPartition := machine.running, nextPartition := next } }) :
    Walks caller start refreshPartitions onReturn machine := by
  refine .bind (walks_probe (.bind (.update (.memory machine _) ?_)))
  refine .bind (.attempt ?_)
  refine .quiet (leaves_probe id) (fun _ => ?_) fun code => ?_
  · exact .update (.memory _ _) (returns _)
  · dsimp only
    split
    · exact walks_cache (returns _)
    · exact .fail

theorem walks_readStatus (idle : NoWriteSince start.store machine.store) :
    Walks config.caller start config.readStatus
      (fun _ after => start.Settled after ∧ machine.SameBoot after) machine := by
  have blank : ∀ intent result, ({ machine with
      status := { bootIntent := intent, lastResult := result } } : Machine).Synced := by
    intro intent result slot valid
    cases slot <;> cases valid
  refine .bind (.bind (walks_cache (.bind (walks_readControlFields ?_))))
  rintro ⟨intent, result⟩ known
  refine .bind (walks_cache (.bind (walks_readSlot (blank intent result) ?_)))
  intro stage staged
  refine .bind (walks_readSlot staged fun partition1 first => ?_)
  refine .bind (walks_readSlot first fun partition2 second => ?_)
  refine .bind (walks_mfgRead fun mfg pref slots => walks_cache ?_)
  refine .bind (walks_cache (walks_refreshPartitions fun next => ?_))
  refine ⟨⟨second.alike slots fun slot => ?_, rfl, known, idle⟩, rfl, rfl⟩
  cases slot <;> rfl

section Frames

/-- What of the preferences must not be touched. -/
def Preferences.candidates (pref : Preferences) : Option Nat × Option Bytes × Option Bytes :=
  (pref.bootIntent, pref.stage, pref.partition2)

/-- A property that does not depend on the loader's memory, nor on other preferences. -/
structure Insensitive (invariant : Machine → Prop) : Prop where
  remember : ∀ machine status, invariant machine → invariant { machine with status }
  /-- Other preferences may change. -/
  prefer : ∀ machine pref, candidates pref = machine.pref.candidates →
    invariant machine → invariant { machine with pref }

variable {invariant : Machine → Prop} (insensitive : Insensitive invariant)

include insensitive

theorem keeps_cache (change : Status → Status) : Keeps invariant (cache change) :=
  .update fun machine => insensitive.remember machine _

theorem keeps_onPref {body : Routine Preferences α} (frame : Leaves candidates body) :
    Keeps invariant (onPref body) := by
  refine .onPart fun whole => frame.keeps fun before after same holds => ?_
  exact insensitive.prefer { whole with pref := before } after same holds

theorem keeps_setLastResult (code : Int) : Keeps invariant (setLastResult code) := by
  have stored : Leaves candidates
      (transaction probe fun pref : Preferences => { pref with lastResult := some code }) :=
    .of_keeps fun _ => keeps_transaction (keeps_probe _) fun _ same => same
  exact .bind (keeps_onPref insensitive stored) fun _ => keeps_cache insensitive _

theorem keeps_readStatus : Keeps invariant config.readStatus := by
  have cached := fun change => keeps_cache insensitive change
  have slot : ∀ slot, Keeps invariant (readSlot slot) := fun slot =>
    .bind (keeps_onPref insensitive (leaves_metadataLoad _ slot)) fun _ =>
      .bind (cached _) fun _ => .bind (.conclude _) fun _ => .pure ()
  have mfg : Leaves candidates mfgRead := leaves_mfgRead.comp candidates
  have fields : Leaves candidates readControlFields :=
    leaves_readControlFields.comp candidates
  have updated : ∀ change : Machine → Status, Keeps invariant
      (Program.update fun machine => { machine with status := change machine } :
        BootRoutine Unit) := fun change =>
    .update fun machine => insensitive.remember machine _
  have refreshed : Keeps invariant refreshPartitions := by
    refine .bind (keeps_probe _) fun _ => .bind (updated _) fun _ =>
      .bind (keeps_probe _).attempt fun found => ?_
    cases found with
    | ok _ => exact updated _
    | error code =>
      dsimp only
      split
      · exact cached _
      · exact .fail _
  exact .bind (.bind (cached _) fun _ =>
    .bind (keeps_onPref insensitive fields) fun _ => .bind (cached _) fun _ =>
    .bind (slot _) fun _ => .bind (slot _) fun _ => .bind (slot _) fun _ =>
    .bind (keeps_onPref insensitive mfg) fun _ => cached _) fun _ =>
      .bind (cached _) fun _ => refreshed

end Frames

/-- A settled machine stays settled when a record is written with its copy in memory. -/
theorem Machine.Settled.write (settled : start.Settled machine) {data : Bytes}
    (terminated : metadata.Terminated) (encoded : metadataEncode slot metadata = some data) :
    start.Settled { machine with
      pref := machine.pref.withSlot slot (some data)
      status := machine.status.withSlot slot metadata } where
  synced := settled.synced.write terminated encoded
  running := by cases slot <;> exact settled.running
  intent := by cases slot <;> exact settled.intent
  idle := settled.idle

theorem Machine.Records.terminated (records : machine.Records slot metadata) :
    metadata.Terminated := by
  obtain ⟨blob, -, decoded⟩ := Option.bind_eq_some_iff.mp records.stored
  exact (metadataDecode_some decoded).2.1

theorem metadataImageEqual_iff : metadataImageEqual a b = true ↔
    a.valid = true ∧ b.valid = true ∧ a.imageSize = b.imageSize ∧ a.role = b.role ∧
      a.imageChecksum.string = b.imageChecksum.string ∧ a.version.string = b.version.string ∧
      a.board.string = b.board.string ∧ a.target.string = b.target.string := by
  simp [metadataImageEqual, and_assoc]

theorem image_eq_of_metadataImageEqual (same : metadataImageEqual a b = true) :
    a.image = b.image := by
  obtain ⟨-, -, size, -, checksum, -⟩ := metadataImageEqual_iff.mp same
  rw [Metadata.image, Metadata.image, size, checksum]

theorem role_eq_of_metadataImageEqual (same : metadataImageEqual a b = true) : a.role = b.role :=
  (metadataImageEqual_iff.mp same).2.2.2.1

theorem metadataFromStage_ok {stage : Metadata}
    (accepted : metadataFromStage stage = .ok metadata) : metadata = stage := by
  unfold metadataFromStage at accepted
  split at accepted
  · exact (Except.ok.inj accepted).symm
  · cases accepted

theorem metadataFromIdentity_terminated (identity : Manifest) :
    (metadataFromIdentity identity).Terminated :=
  ⟨Metadata.zero_terminated.packageChecksum, Text.copy_terminated _ (by decide),
    Text.copy_terminated _ (by decide), Text.copy_terminated _ (by decide),
    Text.copy_terminated _ (by decide)⟩

/-- The record a running image is seeded with is about that image. -/
theorem seedRecord_matches (config : BootConfig) (stored : Metadata) :
    metadataImageEqual (config.seedRecord stored)
      (metadataFromIdentity config.activeIdentity) = true := by
  unfold BootConfig.seedRecord
  dsimp only
  split <;> simp [metadataImageEqual_iff, metadataFromIdentity]

theorem seedRecord_terminated (config : BootConfig) (stored : Metadata) :
    (config.seedRecord stored).Terminated := by
  have active := metadataFromIdentity_terminated config.activeIdentity
  unfold BootConfig.seedRecord
  dsimp only
  split
  · exact ⟨Text.copy_terminated _ (by decide), active.imageChecksum, active.version, active.board,
      active.target⟩
  · exact active

theorem BootConfig.slotForPartition_some (found : config.slotForPartition partition = some slot) :
    config.device.partition slot = some partition := by
  unfold slotForPartition at found
  split_ifs at found with first second
  · cases found
    rw [first]
    rfl
  · cases found
    rw [second]
    rfl

/-- After seeding, memory names the running image for the partition it runs from. -/
def BootConfig.Seeded (config : BootConfig) (machine : Machine) (slot : Slot) : Prop :=
  metadataImageEqual (machine.status.slot slot) (metadataFromIdentity config.activeIdentity) = true

theorem walks_seedRunningMetadata (settled : start.Settled machine) :
    Walks config.caller start config.seedRunningMetadata
      (fun _ after => start.Settled after ∧ machine.SameBoot after ∧
        ∃ slot, config.slotForPartition machine.running = some slot ∧ config.Seeded after slot)
      machine := by
  refine .bind (walks_cached ?_)
  rw [settled.running]
  cases found : config.slotForPartition machine.running with
  | none => exact .fail
  | some slot =>
    refine .bind (.require (fun valid => ?_) fun _ => trivial)
    refine .onlyIf (fun _ => ?_) fun matching => ?_
    · have terminated := seedRecord_terminated config (machine.status.slot slot)
      have same := seedRecord_matches config (machine.status.slot slot)
      refine walks_writeRecord (fun data encoded => ?_) fun data encoded => ?_
      · have image := image_eq_of_metadataImageEqual same
        exact .record machine slot machine.running _ data (config.slotForPartition_some found)
          encoded terminated (.inr (.inl ⟨rfl, image⟩)) (.inl image)
      · refine ⟨settled.write terminated encoded, ⟨rfl, rfl⟩, slot, rfl, ?_⟩
        unfold BootConfig.Seeded
        rw [Status.slot_withSlot]
        exact same
    · refine ⟨settled, ⟨rfl, rfl⟩, slot, rfl, ?_⟩
      rw [Bool.not_eq_false', metadataMatchesIdentity, Bool.and_eq_true] at matching
      exact matching.2

/-- What a change of the next partition and of the intent leaves alone. -/
structure Machine.Alike (before after : Machine) : Prop where
  store : after.store = before.store
  running : after.running = before.running
  slots : ∀ slot, after.pref.slot slot = before.pref.slot slot
  partition2 : after.status.partition2 = before.status.partition2
  mfg : after.status.mfg = before.status.mfg
  bypass : after.mfgGateBypass = before.mfgGateBypass

theorem Machine.Alike.records (alike : before.Alike after)
    (records : before.Records slot metadata) : after.Records slot metadata :=
  ⟨by rw [Machine.record, alike.slots slot]; exact records.stored, records.valid⟩

theorem Machine.Alike.arms (alike : before.Alike after)
    (arms : caller.Arms start before partition) : caller.Arms start after partition := by
  obtain ⟨idle, slot, metadata, named, records, gated⟩ := arms
  refine ⟨by rw [alike.store]; exact idle, slot, metadata, named, alike.records records, ?_⟩
  intro second
  obtain ⟨same, passed⟩ := gated second
  refine ⟨alike.partition2.trans same, fun app => ?_⟩
  rw [alike.bypass, alike.mfg]
  exact passed app

/-- A partition that may become the next one: the one of the start, or an armed one. -/
def Caller.MayBoot (caller : Caller) (start machine : Machine) (partition : Nat) : Prop :=
  partition = start.next ∨ caller.Arms start machine partition

theorem Machine.Alike.mayBoot (alike : before.Alike after)
    (may : caller.MayBoot start before partition) :
    caller.MayBoot start after partition :=
  may.imp id alike.arms

/-- The machine with another boot intent stored. -/
def Machine.withIntent (machine : Machine) (intent : Nat) : Machine :=
  { machine with pref := { machine.pref with bootIntent := some intent } }

/-- The machine with another partition to boot next. -/
def Machine.withNext (machine : Machine) (partition : Nat) : Machine :=
  { machine with next := partition }

theorem Machine.alike_withResult (machine : Machine) (result : Int) :
    machine.Alike (machine.withResult result) :=
  ⟨rfl, rfl, fun slot => by cases slot <;> rfl, rfl, rfl, rfl⟩

theorem Machine.alike_withIntent (machine : Machine) (intent : Nat) :
    machine.Alike (machine.withIntent intent) :=
  ⟨rfl, rfl, fun slot => by cases slot <;> rfl, rfl, rfl, rfl⟩

theorem Machine.alike_withNext (machine : Machine) (partition : Nat) :
    machine.Alike (machine.withNext partition) :=
  ⟨rfl, rfl, fun _ => rfl, rfl, rfl, rfl⟩

theorem moves_setIntent (known : KnownIntent intent)
    (returns : onReturn () (machine.withIntent intent)) (failsBefore : ∀ code, onFail code machine)
    (failsAfter : ∀ code, onFail code (machine.withIntent intent)) :
    Moves Answer.Any (BootStep caller start) (setIntent intent) onReturn onFail machine :=
  moves_control (machine.alike_withIntent intent).slots (.inr ⟨intent, known, rfl⟩) returns
    failsBefore failsAfter

theorem moves_setNext (may : caller.MayBoot start machine partition)
    (returns : onReturn () (machine.withNext partition)) (failsBefore : ∀ code, onFail code machine)
    (failsAfter : ∀ code, onFail code (machine.withNext partition)) :
    Moves Answer.Any (BootStep caller start) (setNext partition) onReturn onFail machine := by
  have stepped : BootStep caller start machine (machine.withNext partition) :=
    .next machine partition may
  exact .single (ensures_act ⟨.inr stepped, returns⟩
    (fun code _ => ⟨.inl rfl, failsBefore code⟩) (fun code _ => ⟨.inr stepped, failsAfter code⟩)
    (.inl rfl) (.inr stepped))

theorem Machine.Alike.trans {first second third : Machine} (one : first.Alike second)
    (two : second.Alike third) : first.Alike third :=
  ⟨two.store.trans one.store, two.running.trans one.running,
    fun slot => (two.slots slot).trans (one.slots slot), two.partition2.trans one.partition2,
    two.mfg.trans one.mfg, two.bypass.trans one.bypass⟩

/-- Putting the next partition back is a step like arming it. -/
theorem walks_restore {next : Nat} (may : caller.MayBoot start machine next)
    (known : KnownIntent intent) :
    Walks caller start (restore next intent code) onReturn machine := by
  have put : ∀ after, Walks caller start (do (setIntent intent).ignoring; Program.fail code)
      onReturn after := fun after =>
    .bind (.ignoring (moves_setIntent known .fail (fun _ => .fail) fun _ => .fail))
  exact .bind (.ignoring (moves_setNext may (put _) (fun _ => put _) fun _ => put _))

theorem leaves_optionalProbe (condition : Bool) :
    Leaves id (Program.onlyIf condition probe : BootRoutine Unit) :=
  .of_keeps fun _ => .onlyIf fun _ => keeps_probe _

theorem walks_setNextAndReboot {transition : Bool} (known : KnownIntent intent)
    (before : KnownIntent machine.status.bootIntent)
    (may : config.caller.MayBoot start machine partition)
    (back : config.caller.MayBoot start machine machine.next)
    (returns : ∀ after, machine.Alike after → after.next = partition → onReturn () after) :
    Walks config.caller start (config.setNextAndReboot partition intent transition)
      onReturn machine := by
  refine .bind (walks_cached (.bind (walks_probe (.bind (.read ?_)))))
  refine .bind (walks_quiet (leaves_optionalProbe _) fun _ => ?_)
  refine .bind (moves_setIntent known ?_ (fun _ => trivial) fun _ => trivial)
  have alike := machine.alike_withIntent intent
  have unset : ∀ (code : Int) (onReturn : Unit → Machine → Prop) (after : Machine),
      Walks config.caller start (do
        (setIntent machine.status.bootIntent).ignoring
        Program.fail code) onReturn after := fun _ _ _ =>
    .bind (.ignoring (moves_setIntent before .fail (fun _ => .fail) fun _ => .fail))
  refine .bind (.recovering (moves_setNext (alike.mayBoot may) ?_
    (fun code => unset code _ _) fun code => unset code _ _))
  have whole := alike.trans (Machine.alike_withNext (machine.withIntent intent) partition)
  have restored : ∀ code onReturn, Walks config.caller start
      (restore machine.next machine.status.bootIntent code) onReturn
      ((machine.withIntent intent).withNext partition) :=
    fun _ _ => walks_restore (whole.mayBoot back) before
  refine .bind (.recovering (.quiet (leaves_optionalProbe _) (fun _ => ?_)
    fun code => restored code _))
  refine .bind (.recovering (.quiet (leaves_probe id) (fun _ => ?_) fun code => restored code _))
  exact walks_cache (returns _ { whole with } rfl)

end Gizos.Loader
