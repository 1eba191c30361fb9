import Gizos.Loader.Boot.Records

/-! # What a finalization consumes, and what a second one makes of the rest

The staged package is given up only for an application that has been installed from it, recorded
and confirmed. A finalization that was cut off before it gave the stage up is completed by the next
one, as if it had not been cut off.
-/
namespace Gizos.Loader

open Fault Pal Gizos.Bundle Preferences Answer

variable {found stage stored : Metadata × Bool} {admits : Answer → Prop} {partition : Metadata}
  {installed : Bool} {data : Bytes} {pref : Preferences} {after cut : Machine}

/-- A record as it is read: what is stored, or that nothing is. There is no answer for a record
that does not decode. -/
def Preferences.look (pref : Preferences) (slot : Slot) : Option (Metadata × Bool) :=
  match pref.slot slot with
  | none => some (.zero, false)
  | some blob => (metadataDecode slot blob).map fun metadata => (metadata, true)

section Reading

variable {pref : Preferences} {slot : Slot} {onReturn : Metadata × Bool → Preferences → Prop}
  {onFail : Int → Preferences → Prop} {onReset : Preferences → Prop}

theorem Preferences.look_terminated (read : pref.look slot = some found) : found.1.Terminated := by
  unfold look at read
  split at read
  · cases read
    exact Metadata.zero_terminated
  · obtain ⟨metadata, decoded, rfl⟩ := Option.map_eq_some_iff.mp read
    exact (metadataDecode_some decoded).2.1

theorem Preferences.look_stored (read : pref.look slot = some found) (present : found.2 = true) :
    (pref.slot slot).bind (metadataDecode slot) = some found.1 := by
  unfold look at read
  split at read
  · cases read
    cases present
  · rename_i blob stored
    obtain ⟨metadata, decoded, rfl⟩ := Option.map_eq_some_iff.mp read
    rw [stored]
    exact decoded

/-- What a read may return: the stored record, or that there is none where there is none or the
platform says so. -/
def Preferences.ReadAs (admits : Answer → Prop) (pref : Preferences) (slot : Slot)
    (found : Metadata × Bool) : Prop :=
  (found = (.zero, false) ∧ (pref.slot slot = none ∨ Answer.Reports admits errNotFound)) ∨
    (found.2 = true ∧ pref.look slot = some found)

theorem Preferences.ReadAs.honest (read : pref.ReadAs Answer.Honest slot found) :
    pref.look slot = some found := by
  rcases read with ⟨rfl, missing | reported⟩ | ⟨-, read⟩
  · rw [look, missing]
  · exact absurd reported not_reports_honest
  · exact read

theorem ensures_metadataRead_as
    (returns : ∀ found, pref.ReadAs admits slot found → onReturn found pref)
    (fails : ∀ code, onFail code pref) (resets : onReset pref) :
    Ensures admits (metadataRead slot) onReturn onFail onReset pref := by
  refine ensures_metadataRead (fun absent => returns _ (.inl ⟨rfl, absent⟩))
    (fun blob metadata stored decoded => returns _ (.inr ⟨rfl, ?_⟩)) fails resets
  rw [Preferences.look, stored]
  dsimp only
  rw [decoded]
  rfl

/-- A working platform reads a record, unless it does not decode. -/
theorem works_metadataRead (returns : ∀ found, pref.look slot = some found → onReturn found pref)
    (malformed : pref.look slot = none → ∀ code, onFail code pref) :
    Ensures Answer.Works (metadataRead slot) onReturn onFail (fun _ => False) pref := by
  refine .bind (works_metadataLoad (fun missing => ?_) fun blob stored => ?_)
  · exact .bind (.ret (.pure (returns _ (by rw [Preferences.look, missing]))))
  cases decoded : metadataDecode slot blob with
  | none =>
    exact .bind (.fail (malformed (by rw [Preferences.look, stored]; dsimp only; rw [decoded]; rfl)
      _))
  | some metadata =>
    refine .bind (.ret (.pure (returns _ ?_)))
    rw [Preferences.look, stored]
    dsimp only
    rw [decoded]
    rfl

end Reading

namespace Finalization

variable (call : Finalization) (machine : Machine)

/-- What a finalization decides for a machine, when it gets that far. -/
def decision : Option (Metadata × Bool) :=
  if call.accepts then
    (machine.pref.look .stage).bind fun stage =>
      (machine.pref.look .partition2).bind fun stored => (call.judge stage stored).toOption
  else none

/-- The machine with a record committed for partition 2. -/
def committed (data : Bytes) : Machine :=
  { machine with pref := machine.pref.withSlot .partition2 (some data) }

/-- The machine after the confirmation, if there is one. -/
def confirmed : Machine :=
  { machine with confirmed := call.confirms || machine.confirmed }

/-- The files after the removal of a package, if a package is named. -/
def removed (store : Storage) : Storage :=
  if call.packagePath = [] then store else store.withFile call.packagePath none

/-- The machine after the stage has been consumed. -/
def consumed : Machine :=
  { machine with
    pref := { machine.pref.withSlot .stage none with lastResult := some 0 }
    store := call.removed machine.store }

/-- Where a finalization ends when nothing goes wrong. -/
def completed : Machine :=
  match call.decision machine with
  | none => machine
  | some (partition, installed) =>
    match metadataEncode .partition2 partition with
    | none => machine
    | some data =>
      let done := call.confirmed (committed machine data)
      if installed then call.consumed done else done

variable {call machine}

theorem works_confirm {onReturn : Unit → Machine → Prop}
    (returns : onReturn () (call.confirmed machine)) :
    Achieves Answer.Works (Program.onlyIf call.confirms confirmImage) onReturn machine := by
  unfold confirmed at returns
  refine .onlyIf (fun confirms => ?_) fun none => ?_
  · rw [confirms] at returns
    exact .bind (achieves_probe (.update returns))
  · rw [none] at returns
    exact returns

theorem works_removeOptionalFile {store : Storage} {onReturn : Unit → Storage → Prop}
    (returns : onReturn () (call.removed store)) :
    Achieves Answer.Works (removeOptionalFile call.packagePath) onReturn store := by
  unfold removed at returns
  unfold removeOptionalFile
  split_ifs at returns ⊢
  · exact .pure returns
  · exact achieves_fsRemoveOptional returns

theorem works_consumeStage {onReturn : Unit → Machine → Prop}
    (returns : onReturn () (call.consumed machine)) :
    Achieves Answer.Works call.consumeStage onReturn machine := by
  apply Ensures.bind
  apply Ensures.bind
  refine .on (achieves_metadataWrite (metadataEncode_zero .stage) ?_)
  apply Ensures.bind
  refine .on (works_removeOptionalFile ?_)
  refine .on (achieves_metadataClear ?_)
  exact .on (achieves_transaction (achieves_probe rfl) returns)

theorem decision_eq (accepted : call.accepts = true)
    (staged : machine.pref.look .stage = some stage)
    (found : machine.pref.look .partition2 = some stored) :
    call.decision machine = (call.judge stage stored).toOption := by
  unfold decision
  rw [if_pos accepted, staged, found]
  rfl

theorem works_commit (decided : call.decision machine = some (partition, installed)) :
    Ensures Answer.Works (do
      onPref (metadataWrite .partition2 partition)
      Program.onlyIf call.confirms confirmImage
      Program.onlyIf installed call.consumeStage)
      (fun _ after => after = call.completed machine)
      (fun _ after => after = call.completed machine) (fun _ => False) machine := by
  unfold completed
  rw [decided]
  apply Ensures.bind
  dsimp only
  cases encoded : metadataEncode .partition2 partition with
  | none =>
    refine .on ?_
    unfold metadataWrite
    rw [encoded]
    exact .fail rfl
  | some data =>
    refine .on (achieves_metadataWrite encoded ?_).ensures
    apply Ensures.bind
    refine (works_confirm ?_).ensures
    cases installed with
    | true => exact (works_consumeStage rfl).ensures
    | false => exact .ret rfl

/-- Nothing going wrong, a finalization completes, and it fails only where it changes nothing. -/
theorem works_finalize (call : Finalization) (machine : Machine) :
    Ensures Answer.Works call.finalize (fun _ after => after = call.completed machine)
      (fun _ after => after = call.completed machine) (fun _ => False) machine := by
  have stays : call.decision machine = none → machine = call.completed machine :=
    fun undecided => by
    rw [completed, undecided]
  apply Ensures.bind
  refine .require (fun accepted => ?_) fun refused => stays (by simp [decision, refused])
  apply Ensures.bind
  refine .on (works_metadataRead (fun stage staged => ?_) fun malformed _ => ?_)
  · apply Ensures.bind
    refine .on (works_metadataRead (fun stored found => ?_) fun malformed _ => ?_)
    · have decided := decision_eq accepted staged found
      apply Ensures.bind
      cases judged : call.judge stage stored with
      | error code =>
        rw [judged] at decided
        exact .fail (stays decided)
      | ok result =>
        rw [judged] at decided
        exact .ret (works_commit decided)
    · exact stays (by
        unfold decision
        rw [if_pos accepted, show machine.pref.look .partition2 = none from malformed]
        cases machine.pref.look .stage <;> rfl)
  · exact stays (by
      unfold decision
      rw [if_pos accepted, show machine.pref.look .stage = none from malformed]
      rfl)

/-- The stage is being consumed: partition 2 is recorded, the running image is confirmed, and the
stage is no longer valid. -/
structure Consuming (call : Finalization) (machine : Machine) (data : Bytes) (after : Machine) :
    Prop where
  /-- Partition 2 is recorded. -/
  record : after.pref.slot .partition2 = some data
  /-- The running image is confirmed. -/
  confirmation : after.confirmed = (call.confirms || machine.confirmed)
  /-- The stage is not valid. -/
  stage : after.pref.slot .stage = none ∨ after.pref.slot .stage = metadataEncode .stage .zero

/-- The points at which a finalization can end, by what it may have decided. -/
inductive Progress (call : Finalization) (machine : Machine) (decided : Metadata → Bool → Prop) :
    Machine → Prop where
  /-- Nothing has been changed. -/
  | untouched : Progress call machine decided machine
  /-- The record of partition 2 has been committed, and the running image confirmed or not yet. -/
  | committed (partition : Metadata) (installed : Bool) (data : Bytes) (confirmation : Bool)
    (chosen : decided partition installed)
    (encoded : metadataEncode .partition2 partition = some data)
    (known : confirmation = machine.confirmed ∨
      confirmation = (call.confirms || machine.confirmed)) :
    Progress call machine decided { committed machine data with confirmed := confirmation }
  /-- The stage is being consumed. -/
  | consuming (partition : Metadata) (data : Bytes) (after : Machine)
    (chosen : decided partition true)
    (encoded : metadataEncode .partition2 partition = some data)
    (underway : Consuming call machine data after) : Progress call machine decided after

theorem keeps_finishing (start : Machine) :
    Keeps (Consuming call start data) (do
      onStorage (removeOptionalFile call.packagePath)
      onPref (metadataClear .stage)) := by
  refine .bind ?_ fun _ => ?_
  · have frame : Leaves (fun machine : Machine => (machine.pref, machine.confirmed))
        (onStorage (removeOptionalFile call.packagePath)) := .on fun _ _ => rfl
    refine frame.keeps fun before after same underway => ?_
    obtain ⟨pref, confirmed⟩ := Prod.mk.inj same
    exact ⟨by rw [pref]; exact underway.record, confirmed.trans underway.confirmation,
      by rw [pref]; exact underway.stage⟩
  · refine .onPart fun whole => keeps_transaction ?_ fun pref underway => ?_
    · refine .recovering (keeps_probe _) fun code => ?_
      split
      · exact .pure _
      · exact .fail _
    · exact ⟨underway.record, underway.confirmation, .inl rfl⟩

theorem ensures_consumeStage {post : Machine → Prop} (record : machine.pref.partition2 = some data)
    (start : Machine) (confirmation : machine.confirmed = (call.confirms || start.confirmed))
    (intact : post machine) (consuming : ∀ after, Consuming call start data after → post after) :
    Always admits call.consumeStage post machine := by
  have invalid : ∀ value, metadataEncode .stage .zero = some value → Consuming call start data
      { machine with pref := machine.pref.withSlot .stage (some value) } := fun value encoded =>
    ⟨record, confirmation, .inr encoded.symm⟩
  have results : Keeps (Consuming call start data)
      (onPref (transaction probe fun pref => { pref with lastResult := some 0 })) :=
    .onPart fun whole => keeps_transaction (keeps_probe _) fun _ underway =>
      { underway with }
  apply Ensures.bind
  apply Ensures.bind
  refine .on (ensures_metadataWrite (fun value encoded => ?_) (fun _ => intact)
    (fun _ value encoded => consuming _ (invalid value encoded)) intact
    fun value encoded => consuming _ (invalid value encoded))
  refine ((keeps_finishing start).ensures (invalid value encoded)).mono
    (fun _ after underway => ?_) (fun _ => consuming) consuming
  exact (results.ensures underway).weaken consuming

theorem ensures_progress {decided : Metadata → Bool → Prop}
    (decides : ∀ stage stored partition installed, call.accepts = true →
      machine.pref.ReadAs admits .stage stage → machine.pref.ReadAs admits .partition2 stored →
      call.judge stage stored = .ok (partition, installed) → decided partition installed) :
    Always admits call.finalize (Progress call machine decided) machine := by
  apply Ensures.bind
  refine .require (fun accepted => ?_) fun _ => .untouched
  apply Ensures.bind
  refine .on (ensures_metadataRead_as (fun stage staged => ?_) (fun _ => .untouched) .untouched)
  apply Ensures.bind
  refine .on (ensures_metadataRead_as (fun stored found => ?_) (fun _ => .untouched) .untouched)
  apply Ensures.bind
  cases judged : call.judge stage stored with
  | error code => exact .fail .untouched
  | ok result =>
    obtain ⟨partition, installed⟩ := result
    have chosen := decides stage stored partition installed accepted staged found judged
    refine .ret (.bind ?_)
    have commits : ∀ data, metadataEncode .partition2 partition = some data →
        Progress call machine decided (committed machine data) := fun data encoded =>
      .committed partition installed data _ chosen encoded (.inl rfl)
    refine .on (ensures_metadataWrite (fun data encoded => ?_) (fun _ => .untouched)
      (fun _ => commits) .untouched commits)
    have consumes : ∀ after, after = call.confirmed (committed machine data) →
        Always admits (Program.onlyIf installed call.consumeStage)
          (Progress call machine decided) after := by
      rintro after rfl
      have done : Progress call machine decided (call.confirmed (committed machine data)) :=
        .committed partition installed data _ chosen encoded (.inr rfl)
      cases installed with
      | false => exact .ret done
      | true =>
        exact ensures_consumeStage rfl machine rfl done fun after underway =>
          .consuming partition data after chosen encoded underway
    apply Ensures.bind
    refine .onlyIf (fun confirms => ?_) fun none => consumes _ ?_
    · refine .bind (ensures_probe ?_ (fun _ _ => commits data encoded) (commits data encoded))
      exact .update (consumes _ (by rw [Finalization.confirmed, confirms]; rfl))
    · rw [Finalization.confirmed, none]
      rfl

theorem stageInstalled_iff {stage stored : Metadata} :
    call.stageInstalled stage stored = true ↔ stage.valid = true ∧
      metadataImageEqual stage call.partition = true ∧ stage.packageSize = stored.packageSize ∧
      stage.packageChecksum.string = stored.packageChecksum.string := by
  simp [stageInstalled, and_assoc]

/-- The record of the running image names its own image. -/
theorem partitionFrom_matches (call : Finalization) (stored : Metadata) :
    metadataImageEqual (call.partitionFrom stored) call.partition = true := by
  simp [metadataImageEqual_iff, partitionFrom, partition, metadataFromIdentity]

/-- A record with the package of another one is judged like that one. -/
theorem judge_kept {stored : Metadata} (terminated : stored.packageChecksum.Terminated)
    (other : (stage.2 && call.stageInstalled stage.1 stored) = false) :
    call.judge stage (call.partitionFrom stored, true) =
      .ok (call.partitionFrom stored, false) := by
  have copied : (call.partitionFrom stored).packageChecksum.string =
      stored.packageChecksum.string := terminated.string_copy
  have same : ∀ metadata : Metadata, call.stageInstalled metadata (call.partitionFrom stored) =
      call.stageInstalled metadata stored := by
    intro metadata
    unfold stageInstalled
    rw [copied]
    rfl
  have matching := partitionFrom_matches call stored
  have valid := (metadataImageEqual_iff.mp matching).1
  have again : call.partitionFrom (call.partitionFrom stored) = call.partitionFrom stored := by
    rw [partitionFrom, copied]
    rfl
  unfold judge
  rw [if_neg (by simp [valid, matching]), same, other, if_neg (by simp), again]

/-- Judged again with the record it has committed, a finalization comes to the same judgement. -/
theorem judge_again (packaged : stage.2 = true → stage.1.valid = true → stage.1.packageSize ≠ 0)
    (terminated : stored.1.Terminated)
    (judged : call.judge stage stored = .ok (partition, installed)) :
    call.judge stage (partition, true) = .ok (partition, installed) := by
  cases judge_ok judged with
  | seed unusable =>
    -- The fresh record names no package, so no valid stage can match it.
    have other : (stage.2 && call.stageInstalled stage.1 call.partition) = false := by
      by_contra found
      rw [Bool.not_eq_false, Bool.and_eq_true, stageInstalled_iff] at found
      obtain ⟨present, valid, -, size, -⟩ := found
      exact packaged present valid size
    exact judge_kept Metadata.zero_terminated.packageChecksum other
  | installed present matching usable =>
    obtain ⟨valid, image, -⟩ := stageInstalled_iff.mp matching
    have again : call.stageInstalled stage.1 stage.1 = true :=
      stageInstalled_iff.mpr ⟨valid, image, rfl, rfl⟩
    unfold judge at judged ⊢
    rw [if_neg (by simp [usable.1, usable.2, (metadataImageEqual_iff.mp usable.2).1]),
      if_pos (by simp [present, matching])] at judged
    rw [if_neg (by simp [valid, image]), if_pos (by simp [present, again])]
    exact judged
  | kept other usable => exact judge_kept terminated.packageChecksum other

/-- A decision comes from the records as they are read. -/
theorem decision_some (decided : call.decision machine = some (partition, installed)) :
    ∃ stage stored, call.accepts = true ∧ machine.pref.look .stage = some stage ∧
      machine.pref.look .partition2 = some stored ∧
      call.judge stage stored = .ok (partition, installed) := by
  unfold decision at decided
  split_ifs at decided with accepted
  obtain ⟨stage, staged, decided⟩ := Option.bind_eq_some_iff.mp decided
  obtain ⟨stored, found, decided⟩ := Option.bind_eq_some_iff.mp decided
  refine ⟨stage, stored, accepted, staged, found, ?_⟩
  cases judged : call.judge stage stored with
  | error code => rw [judged] at decided; cases decided
  | ok result => rw [judged] at decided; exact congrArg _ (Option.some.inj decided)

/-- The stage that is consumed is the record that becomes the one of partition 2. -/
theorem decision_consumes (decided : call.decision machine = some (partition, true)) :
    call.accepts = true ∧ partition.Terminated ∧ machine.Records .stage partition ∧
      metadataImageEqual partition call.partition = true := by
  obtain ⟨stage, stored, accepted, seen, -, judged⟩ := decision_some decided
  cases judge_ok judged with
  | installed present matching usable =>
    obtain ⟨valid, image, -⟩ := stageInstalled_iff.mp matching
    exact ⟨accepted, look_terminated seen, ⟨look_stored seen present, valid⟩, image⟩

theorem packageSize_ne_zero (staged : pref.look .stage = some stage) (present : stage.2 = true)
    (valid : stage.1.valid = true) : stage.1.packageSize ≠ 0 := by
  have stored := look_stored staged present
  obtain ⟨blob, -, decoded⟩ := Option.bind_eq_some_iff.mp stored
  have validated := (metadataDecode_some decoded).2.2
  simp only [metadataValidate, valid, Bool.not_true, Bool.false_or, Bool.and_eq_true,
    decide_eq_true_eq] at validated
  exact validated.2.2

theorem look_encoded {slot : Slot} {metadata : Metadata} (stored : pref.slot slot = some data)
    (terminated : metadata.Terminated) (encoded : metadataEncode slot metadata = some data) :
    pref.look slot = some (metadata, true) := by
  rw [Preferences.look, stored]
  dsimp only
  rw [metadataDecode_encode terminated encoded]
  rfl

/-- With its record committed, a finalization decides as it did before. -/
theorem decision_again (decided : call.decision machine = some (partition, installed))
    (encoded : metadataEncode .partition2 partition = some data)
    (stage : after.pref.stage = machine.pref.stage) (record : after.pref.partition2 = some data) :
    call.decision after = some (partition, installed) := by
  obtain ⟨staged, stored, accepted, seen, found, judged⟩ := decision_some decided
  have terminated := (judge_ok judged).terminated (look_terminated seen)
  have again := judge_again (packageSize_ne_zero seen) (look_terminated found) judged
  have same : after.pref.slot .stage = machine.pref.slot .stage := stage
  rw [Preferences.look, ← same] at seen
  have written : after.pref.slot .partition2 = some data := record
  rw [decision_eq accepted seen (look_encoded written terminated encoded), again]
  rfl

/-- From the committed record on, a finalization completes as it would have without the cut. -/
theorem completed_again (decided : call.decision machine = some (partition, installed))
    (encoded : metadataEncode .partition2 partition = some data) (confirmation : Bool)
    (known : confirmation = machine.confirmed ∨ confirmation =
      (call.confirms || machine.confirmed)) :
    call.completed { committed machine data with confirmed := confirmation } =
      call.completed machine := by
  have again : call.decision { committed machine data with confirmed := confirmation } =
      some (partition, installed) := decision_again decided encoded rfl rfl
  have same : (call.confirms || confirmation) = (call.confirms || machine.confirmed) := by
    rcases known with rfl | rfl
    · rfl
    · rw [← Bool.or_assoc, Bool.or_self]
  unfold completed
  rw [again, decided]
  dsimp only
  rw [encoded]
  dsimp only
  have equal : call.confirmed (committed { committed machine data with confirmed := confirmation }
      data) = call.confirmed (committed machine data) := by
    unfold confirmed committed
    rw [same]
    rfl
  rw [equal]

/-- A record names the image and the package of a stage. -/
structure Names (metadata stage : Metadata) : Prop where
  image : metadataImageEqual metadata stage = true
  packageSize : metadata.packageSize = stage.packageSize
  packageChecksum : metadata.packageChecksum.string = stage.packageChecksum.string

/-- What has to hold before the stage is given up, and has been done by then. -/
structure Earned (call : Finalization) (machine after : Machine) (stage : Metadata) : Prop where
  staged : machine.Records .stage stage
  named : ∃ stored, machine.Records .partition2 stored ∧ Names stored stage
  active : metadataImageEqual stage call.partition = true
  recorded : after.Records .partition2 stage
  confirmed : call.confirms = true → after.confirmed = true

theorem metadataImageEqual_trans {first second third : Metadata}
    (one : metadataImageEqual first second = true) (two : metadataImageEqual second third = true) :
    metadataImageEqual first third = true := by
  rw [metadataImageEqual_iff] at one two ⊢
  grind

theorem metadataImageEqual_symm {first second : Metadata}
    (same : metadataImageEqual first second = true) : metadataImageEqual second first = true := by
  rw [metadataImageEqual_iff] at same ⊢
  grind

theorem Consuming.earned (staged : machine.pref.ReadAs admits .stage stage)
    (found : machine.pref.ReadAs admits .partition2 stored)
    (judged : Judged call stage stored partition true)
    (encoded : metadataEncode .partition2 partition = some data)
    (underway : Consuming call machine data after) : call.Earned machine after partition := by
  cases judged with
  | installed present matching usable =>
    have seen : machine.pref.look .stage = some stage := by
      rcases staged with ⟨rfl, -⟩ | ⟨-, seen⟩
      · cases present
      · exact seen
    have known : machine.pref.look .partition2 = some stored := by
      rcases found with ⟨rfl, -⟩ | ⟨-, known⟩
      · cases usable.1
      · exact known
    obtain ⟨valid, image, size, checksum⟩ := stageInstalled_iff.mp matching
    have terminated := look_terminated seen
    refine ⟨⟨look_stored seen present, valid⟩, ⟨stored.1,
      ⟨look_stored known usable.1, (metadataImageEqual_iff.mp usable.2).1⟩,
      metadataImageEqual_trans usable.2 (metadataImageEqual_symm image), size.symm,
      checksum.symm⟩, image, ⟨?_, valid⟩, fun confirms => ?_⟩
    · rw [Machine.record, underway.record]
      exact metadataDecode_encode terminated encoded
    · rw [underway.confirmation, confirms]
      rfl

/-- What a finalization decided on, from what it may have read. -/
def DecidedOn (call : Finalization) (admits : Answer → Prop) (machine : Machine)
    (partition : Metadata) (installed : Bool) : Prop :=
  ∃ stage stored, machine.pref.ReadAs admits .stage stage ∧
    machine.pref.ReadAs admits .partition2 stored ∧ Judged call stage stored partition installed

/-- The stage is given up only once that has been earned. -/
theorem intact_or_earned (ran : Reaches Answer.Any call.finalize machine after) :
    (after.pref.stage = machine.pref.stage ∧ after.store = machine.store) ∨
      ∃ stage, call.Earned machine after stage := by
  have progress : Progress call machine (call.DecidedOn Answer.Any machine) after :=
    (ensures_progress fun stage stored _ _ _ staged found judged =>
      ⟨stage, stored, staged, found, judge_ok judged⟩).reached ran
  cases progress with
  | consuming partition data _ chosen encoded underway =>
    obtain ⟨stage, stored, staged, found, judged⟩ := chosen
    exact .inr ⟨partition, underway.earned staged found judged encoded⟩
  | _ => exact .inl ⟨rfl, rfl⟩

/-- On an honest platform, a finalization gets as far as its decision. -/
theorem progress_of_honest (ran : Reaches Answer.Honest call.finalize machine cut) :
    Progress call machine (fun partition installed =>
      call.decision machine = some (partition, installed)) cut := by
  refine (ensures_progress fun stage stored partition installed accepted staged found judged =>
    ?_).reached ran
  rw [decision_eq accepted staged.honest found.honest, judged]
  rfl

theorem eq_completed (ran : Reaches Answer.Works call.finalize machine after) :
    after = call.completed machine :=
  ((works_finalize call machine).mono (fun _ _ => id) (fun _ _ => id)
    fun _ impossible => impossible.elim).reached ran

/-- A finalization that was cut off before the stage was made invalid is completed by the next
one as if it had not been cut off. -/
theorem completed_of_intact (ran : Reaches Answer.Honest call.finalize machine cut)
    (intact : cut.pref.stage = machine.pref.stage) :
    call.completed cut = call.completed machine := by
  cases progress_of_honest ran with
  | untouched => rfl
  | committed partition installed data confirmation decided encoded known =>
    exact completed_again decided encoded confirmation known
  | consuming partition data _ decided encoded underway =>
    -- The stage was valid when the finalization decided to consume it.
    obtain ⟨-, -, recorded, -⟩ := decision_consumes decided
    exact absurd (recorded.of_slot intact.symm) (Machine.not_records underway.stage _)

/-- A stage that has been made invalid or removed reads as one that is not valid. -/
theorem look_discarded
    (discarded : pref.slot .stage = none ∨ pref.slot .stage = metadataEncode .stage .zero) :
    ∃ present, pref.look .stage = some (.zero, present) := by
  rcases discarded with gone | zero
  · exact ⟨false, by rw [Preferences.look, gone]⟩
  · exact ⟨true, look_encoded zero Metadata.zero_terminated (metadataEncode_zero .stage)⟩

/-- After the stage has been made invalid, the next finalization leaves partition 2 recorded with
the staged image and package, and the stage not valid. -/
theorem completed_of_consuming (decided : call.decision machine = some (partition, true))
    (encoded : metadataEncode .partition2 partition = some data)
    (underway : Consuming call machine data cut) :
    (∃ metadata, (call.completed cut).Records .partition2 metadata ∧ Names metadata partition) ∧
      ∀ metadata, ¬(call.completed cut).Records .stage metadata := by
  obtain ⟨accepted, terminated, ⟨-, valid⟩, image⟩ := decision_consumes decided
  obtain ⟨there, invalid⟩ := look_discarded underway.stage
  have other : (there && call.stageInstalled .zero partition) = false := by
    have unmatched : call.stageInstalled .zero partition = false := rfl
    rw [unmatched, Bool.and_false]
  have again : call.decision cut = some (call.partitionFrom partition, false) := by
    rw [decision_eq accepted invalid (look_encoded underway.record terminated encoded)]
    unfold judge
    rw [if_neg (by simp [valid, image]), other]
    rfl
  unfold completed
  rw [again]
  dsimp only
  cases final : metadataEncode .partition2 (call.partitionFrom partition) with
  | none =>
    refine ⟨⟨partition, ⟨?_, valid⟩, metadataImageEqual_trans image
      (metadataImageEqual_symm image), rfl, rfl⟩, Machine.not_records underway.stage⟩
    rw [Machine.record, underway.record]
    exact metadataDecode_encode terminated encoded
  | some bytes =>
    have matching := partitionFrom_matches call partition
    have kept := partitionFrom_terminated call partition
    refine ⟨⟨call.partitionFrom partition, ⟨?_, (metadataImageEqual_iff.mp matching).1⟩,
      metadataImageEqual_trans matching (metadataImageEqual_symm image), rfl,
      terminated.packageChecksum.string_copy⟩, Machine.not_records underway.stage⟩
    exact (cut.record_withSlot .partition2 (some bytes)).trans (metadataDecode_encode kept final)

/-- A finalization gives the stage up only for an application that the stored record already
named with its package, that runs, is recorded again and is confirmed; everything else leaves the
stage and all files alone. Cut off before the stage is made invalid, on a platform that reports
nothing missing that is there, it is completed by the next working run exactly as by an
uninterrupted one; cut off later, the next run leaves partition 2 recorded with the staged image
and package, and the stage not valid. -/
theorem stage_survives_until_earned (call : Finalization) (machine : Machine) :
    (∀ after, Reaches Answer.Any call.finalize machine after →
      (after.pref.stage = machine.pref.stage ∧ after.store = machine.store) ∨
        ∃ stage, call.Earned machine after stage) ∧
    ∀ cut, Reaches Answer.Honest call.finalize machine cut →
      ∀ rerun, Reaches Answer.Works call.finalize cut rerun →
        (cut.pref.stage = machine.pref.stage → ∀ whole,
          Reaches Answer.Works call.finalize machine whole → rerun = whole) ∧
        (cut.pref.stage ≠ machine.pref.stage →
          (∃ stage metadata, machine.Records .stage stage ∧ rerun.Records .partition2 metadata ∧
            Names metadata stage) ∧
          ∀ metadata, ¬rerun.Records .stage metadata) := by
  refine ⟨fun after ran => intact_or_earned ran, fun cut ran rerun again => ⟨?_, ?_⟩⟩
  · intro intact whole uninterrupted
    rw [eq_completed again, eq_completed uninterrupted]
    exact completed_of_intact ran intact
  · intro changed
    rw [eq_completed again]
    cases progress_of_honest ran with
    | consuming partition data _ decided encoded underway =>
      obtain ⟨⟨metadata, recorded, names⟩, unstaged⟩ :=
        completed_of_consuming decided encoded underway
      exact ⟨⟨partition, metadata, (decision_consumes decided).2.2.1, recorded, names⟩, unstaged⟩
    | _ => exact absurd rfl changed

end Finalization

/-- The staged record of an example application. -/
def benchStage : Metadata :=
  { metadataFromIdentity (benchIdentity .app [1, 2, 3]) with
    packageChecksum := .copy _ (benchDigest.hex [7])
    packageSize := 1 }

/-- An example device that runs an application it has installed from its stage. -/
def installedMachine : Machine :=
  { benchMachine [1, 2, 3] with
    pref := ((benchMachine [1, 2, 3]).pref.withSlot .stage
      (metadataEncode .stage benchStage)).withSlot .partition2
        (metadataEncode .partition2 benchStage)
    store := (benchMachine [1, 2, 3]).store.withFile [112] (some [7]) }

/-- The finalization of the example application. -/
def benchFinalization : Finalization where
  packagePath := [112]
  activeIdentity := benchIdentity .app [1, 2, 3]
  runningPartitionId := 2
  appPartitionId := 2
  confirms := true

/-- Cut off when the stage has been made invalid and its package is still there, the next
finalization leaves the package behind that an uninterrupted one removes. -/
theorem package_left_after_late_cut :
    ∃ cut rerun whole, Reaches Answer.Honest benchFinalization.finalize installedMachine cut ∧
      Reaches Answer.Works benchFinalization.finalize cut rerun ∧
      Reaches Answer.Works benchFinalization.finalize installedMachine whole ∧
      rerun.store.files [112] = some [7] ∧ whole.store.files [112] = none := by
  refine ⟨(benchFinalization.finalize (resetAt 15) 0 installedMachine).state,
    (benchFinalization.finalize (fun _ => {}) 0
      (benchFinalization.finalize (resetAt 15) 0 installedMachine).state).state,
    (benchFinalization.finalize (fun _ => {}) 0 installedMachine).state,
    ⟨_, resetAt_honest 15, 0, rfl⟩, ⟨_, fun _ => default_works, 0, rfl⟩,
    ⟨_, fun _ => default_works, 0, rfl⟩, ?_, ?_⟩
  · decide +kernel
  · decide +kernel

/-- Cut off in its confirmation, the finalization of the example is completed by the next one. -/
theorem bench_completed_after_cut :
    ∃ cut rerun whole : Machine, cut.confirmed = false ∧ whole.pref.stage = none ∧
      rerun = whole := by
  refine ⟨(benchFinalization.finalize (resetAt 10) 0 installedMachine).state,
    (benchFinalization.finalize (fun _ => {}) 0
      (benchFinalization.finalize (resetAt 10) 0 installedMachine).state).state,
    (benchFinalization.finalize (fun _ => {}) 0 installedMachine).state, by decide +kernel,
    by decide +kernel, ?_⟩
  have survives := (Finalization.stage_survives_until_earned benchFinalization installedMachine).2 _
    ⟨_, resetAt_honest 10, 0, rfl⟩ _ ⟨_, fun _ => default_works, 0, rfl⟩
  exact survives.1 (by decide +kernel) _ ⟨_, fun _ => default_works, 0, rfl⟩

end Gizos.Loader
