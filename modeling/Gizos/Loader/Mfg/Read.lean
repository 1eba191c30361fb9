import Gizos.Loader.Mfg.Gate

/-! # Reading and migrating the manufacturing record

Specifications of loading, storing and reading the record, and the soundness of the gate
over whole reads: what a read returns, and what a second read of the migrated record does.
-/
namespace Gizos.Loader

open Fault Pal Codec

variable {admits : Answer → Prop} {onFail : Int → Preferences → Prop}
  {onReset : Preferences → Prop} {pref : Preferences}

variable {summary : MfgSummary} {answers : Nat → Answer} {blob : Bytes}

theorem leaves_mfgRecordLoad (limit : Option Nat) : Leaves id (mfgRecordLoad limit) := by
  refine .bind (leaves_probe id).attempt fun opened => ?_
  cases opened with
  | error code =>
    dsimp only
    split
    · exact .pure _
    · exact .fail _
  | ok _ =>
    refine .bind (leaves_lookup id _).attempt fun found =>
      .bind (leaves_probe id).attempt fun closed => ?_
    cases found with
    | error code =>
      dsimp only
      split
      · exact .conclude _
      · exact .fail _
    | ok blob =>
      dsimp only
      split
      · exact .pure _
      cases closed with
      | error code => exact .fail _
      | ok _ => cases mfgRecordDecode blob <;> exact .pure _

theorem ensures_mfgRecordLoad {limit : Option Nat} {onReturn : MfgLoad → Preferences → Prop}
    (absent : onReturn .absent pref) (malformed : onReturn .malformed pref)
    (decoded : ∀ blob summary, pref.mfg = some blob → mfgRecordDecode blob = some summary →
      onReturn (.decoded summary (wordAt blob 0 ≠ 4)) pref)
    (fails : ∀ code, onFail code pref) (resets : onReset pref) :
    Ensures admits (mfgRecordLoad limit) onReturn onFail onReset pref := by
  apply Ensures.bind
  apply Ensures.attempt
  refine ensures_probe ?_ (fun code _ => ?_) resets
  · apply Ensures.bind
    apply Ensures.attempt
    refine ensures_lookup (fun blob found => ?_) (fun code _ => ?_) resets
    · apply Ensures.bind
      apply Ensures.attempt
      refine ensures_probe ?_ (fun code _ => ?_) resets
      · dsimp only
        split
        · exact .pure malformed
        cases read : mfgRecordDecode blob with
        | none => exact .pure malformed
        | some summary => exact .pure (decoded blob summary found read)
      · dsimp only
        split
        · exact .pure malformed
        · exact .fail (fails code)
    · apply Ensures.bind
      apply Ensures.attempt
      refine ensures_probe ?_ (fun closed _ => ?_) resets
      · dsimp only
        split
        · exact .ret absent
        · exact .fail (fails code)
      · dsimp only
        split
        · exact .fail (fails closed)
        · exact .fail (fails code)
  · dsimp only
    split
    · exact .pure absent
    · exact .fail (fails code)

/-- The staged sets of a store change nothing until the commit. -/
theorem leaves_mfgStaging (revision : Option Nat) :
    Leaves id (do
      probe
      match revision with
      | none => pure ()
      | some _ => probe : Routine Preferences Unit) := by
  refine .bind (leaves_probe id) fun _ => ?_
  cases revision with
  | none => exact .pure _
  | some _ => exact leaves_probe id

/-- A store replaces the record and its revision together, or leaves both. -/
theorem ensures_mfgRecordStore {revision : Option Nat} {onReturn : Unit → Preferences → Prop}
    (returns : mfgSummaryValidate summary = true → summary.total ≠ 0 →
      onReturn () (pref.withMfg summary revision)) (failsBefore : ∀ code, onFail code pref)
    (failsAfter : ∀ code, mfgSummaryValidate summary = true → summary.total ≠ 0 →
      onFail code (pref.withMfg summary revision)) (resetsBefore : onReset pref)
    (resetsAfter : mfgSummaryValidate summary = true → summary.total ≠ 0 →
      onReset (pref.withMfg summary revision)) :
    Ensures admits (mfgRecordStore summary revision) onReturn onFail onReset pref := by
  apply Ensures.bind
  refine .require (fun accepted => ?_) fun _ => failsBefore _
  obtain ⟨valid, positive, -⟩ := accepted
  exact ensures_transaction (leaves_mfgStaging revision) (returns valid positive) failsBefore
    (fun code => failsAfter code valid positive) resetsBefore (resetsAfter valid positive)

theorem achieves_mfgWrite {onReturn : Unit → Preferences → Prop}
    (valid : mfgSummaryValidate summary = true) (positive : summary.total ≠ 0)
    (returns : onReturn () (pref.withMfg summary none)) :
    Achieves Answer.Works (mfgWrite summary) onReturn pref := by
  have bound := ((MfgSummary.validate_iff summary).mp valid).1
  apply Ensures.bind
  refine .require (fun _ => ?_) fun refused => refused ⟨valid, positive, bound⟩
  refine achieves_transaction ?_ returns
  apply Ensures.bind
  exact achieves_probe (.pure rfl)

/-- Whatever the platform does, a read returns the decoding of the stored blob or a summary
with nothing tested. -/
theorem ensures_mfgRead :
    Returns Answer.Any mfgRead
      (fun result _ => (∃ blob, pref.mfg = some blob ∧ mfgRecordDecode blob = some result.1) ∨
        ∃ total, result.1 = mfgUntested total) pref := by
  have replaced : ∀ (summary : MfgSummary) (present : Bool) (start : Preferences)
      (post : MfgSummary × Bool → Preferences → Prop), (∀ after, post (summary, present) after) →
      Returns Answer.Any (mfgWrite summary >>= fun _ => pure (summary, present)) post start := by
    intro summary present start post holds
    apply Ensures.bind
    exact ensures_mfgRecordStore (fun _ _ => .pure (holds _)) (fun _ => trivial)
      (fun _ _ _ => trivial) trivial fun _ _ => trivial
  apply Ensures.bind
  apply Ensures.attempt
  refine ensures_mfgRecordLoad ?_ ?_ (fun blob summary found decoded => ?_) (fun code => ?_) trivial
  · exact .pure (.inr ⟨0, rfl⟩)
  · exact replaced _ _ _ _ fun _ => .inr ⟨_, rfl⟩
  · dsimp only
    split
    · exact replaced _ _ _ _ fun _ => .inl ⟨blob, found, decoded⟩
    · exact .pure (.inl ⟨blob, found, decoded⟩)
  · dsimp only
    split
    · exact replaced _ _ _ _ fun _ => .inr ⟨_, rfl⟩
    · exact .fail trivial

/-- The preferences other than the manufacturing record. -/
def Preferences.besideMfg (pref : Preferences) : Preferences :=
  { pref with mfg := none, mfgAcceptanceRevision := none }

/-- A read touches nothing but the manufacturing record. -/
theorem leaves_mfgRead : Leaves Preferences.besideMfg mfgRead := by
  have stored : ∀ summary, Leaves Preferences.besideMfg (mfgWrite summary) := by
    intro summary
    refine .of_keeps fun seen => .bind (.require _ _) fun _ => ?_
    exact keeps_transaction (leaves_mfgStaging none).keepsAny fun _ same => same
  refine Leaves.bind (Leaves.of_keeps fun _ =>
    (leaves_mfgRecordLoad none).keepsAny).attempt fun loaded => ?_
  match loaded with
  | .error code =>
    dsimp only
    split
    · exact .bind (stored _) fun _ => .pure _
    · exact .fail _
  | .ok .absent => exact .pure _
  | .ok .malformed => exact .bind (stored _) fun _ => .pure _
  | .ok (.decoded summary true) => exact .bind (stored _) fun _ => .pure _
  | .ok (.decoded summary false) => exact .pure _

/-- A working load takes three answers and returns the decoding of the stored blob. -/
theorem mfgRecordLoad_works (works : ∀ index, (answers index).Works)
    (found : pref.mfg = some blob) (time : Nat) :
    mfgRecordLoad none answers time pref =
      .returned
        (match mfgRecordDecode blob with
          | none => .malformed
          | some summary => .decoded summary (wordAt blob 0 ≠ 4)) pref (time + 3) := by
  simp only [mfgRecordLoad, Bind.bind, Program.andThen, Program.attempt, lookup, Program.read,
    probe_works works, found, Pure.pure, Program.ret, Option.any_none]
  cases mfgRecordDecode blob <;> rfl

/-- The stored record is in the current layout and decodes as the summary. -/
def Migrated (pref : Preferences) (summary : MfgSummary) : Prop :=
  ∃ blob, pref.mfg = some blob ∧ mfgRecordDecode blob = some summary ∧ wordAt blob 0 = 4

theorem withMfg_migrated {revision : Option Nat} (valid : mfgSummaryValidate summary = true)
    (positive : summary.total ≠ 0) :
    Migrated (pref.withMfg summary revision) summary :=
  ⟨_, rfl, mfgRecordDecode_encode valid positive, mfgRecordEncode_format summary⟩

/-- A working read returns what the stored blob decodes to, if it does, and leaves the
summary it returns migrated. -/
theorem achieves_mfgRead (found : pref.mfg = some blob) :
    Achieves Answer.Works mfgRead
      (fun result after => result.2 = true ∧ Migrated after result.1 ∧
        ∀ summary, mfgRecordDecode blob = some summary → result.1 = summary) pref := by
  apply Ensures.bind
  apply Ensures.attempt
  intro answers works time
  rw [mfgRecordLoad_works works found]
  cases decoded : mfgRecordDecode blob with
  | none =>
    have valid := MfgSummary.untested_valid (show mfgLegacyStepTotal ≤ mfgStepMax by decide)
    exact .bind (achieves_mfgWrite valid (by decide)
      (.pure ⟨rfl, withMfg_migrated valid (by decide), fun _ other => nomatch other⟩))
  | some summary =>
    obtain ⟨valid, positive⟩ := mfgRecordDecode_valid decoded
    by_cases current : wordAt blob 0 = 4
    · simp only [current, ne_eq, not_true_eq_false, decide_false, Outcome.Satisfies]
      exact .pure ⟨rfl, ⟨blob, found, decoded, current⟩, fun _ => Option.some.inj⟩
    · simp only [current, ne_eq, not_false_eq_true, decide_true, Outcome.Satisfies]
      exact .bind (achieves_mfgWrite valid positive
        (.pure ⟨rfl, withMfg_migrated valid positive, fun _ => Option.some.inj⟩))

/-- A working read of a migrated record makes the three calls of a load and no other. -/
theorem mfgRead_migrated (works : ∀ index, (answers index).Works)
    (migrated : Migrated pref summary) (time : Nat) :
    mfgRead answers time pref = .returned (summary, true) pref (time + 3) := by
  obtain ⟨blob, found, decoded, current⟩ := migrated
  simp [mfgRead, Bind.bind, Program.andThen, Program.attempt, mfgRecordLoad_works works found,
    decoded, current, Pure.pure, Program.ret]

/-- The stored blob may be trusted at the gate. A read lets the gate for `required` steps
pass only if the blob records them all as passed, whatever the platform does; and after a
working read, another one returns the same summary without writing. -/
structure GateSound (blob : Bytes) (required : Nat) : Prop where
  /-- Only a record of passed steps reads as passed. -/
  recorded : ∀ pref : Preferences, pref.mfg = some blob →
    ∀ answers time summary present after time',
      mfgRead answers time pref = .returned (summary, present) after time' →
      mfgSummaryIsPassed summary required = true → RecordsPassed blob required
  /-- A second read makes three read-only calls and returns the same summary. -/
  settled : ∀ pref : Preferences, pref.mfg = some blob →
    ∀ answers time, (∀ index, (answers index).Works) →
      ∃ summary after time', mfgRead answers time pref = .returned (summary, true) after time' ∧
        ∀ answers' time'', (∀ index, (answers' index).Works) →
          mfgRead answers' time'' after = .returned (summary, true) after (time'' + 3)

/-- A working read returns and a second one finds the same summary. -/
theorem mfgRead_settled (found : pref.mfg = some blob) (works : ∀ index, (answers index).Works)
    (time : Nat) :
    ∃ summary after time', mfgRead answers time pref = .returned (summary, true) after time' ∧
      (∀ decoded, mfgRecordDecode blob = some decoded → summary = decoded) ∧
      ∀ answers' time'', (∀ index, (answers' index).Works) →
        mfgRead answers' time'' after = .returned (summary, true) after (time'' + 3) := by
  have ending := achieves_mfgRead found answers works time
  cases outcome : mfgRead answers time pref with
  | failed code after time' | stopped after => rw [outcome] at ending; exact ending.elim
  | returned result after time' =>
    rw [outcome] at ending
    obtain ⟨summary, present⟩ := result
    obtain ⟨rfl, migrated, same⟩ := ending
    exact ⟨summary, after, time', rfl, same,
      fun _ time'' works' => mfgRead_migrated works' migrated time''⟩

/-- An unfinished full set opens the gate of a legacy-sized product without recording its
steps as passed. -/
theorem UnfinishedFullSet.not_gateSound (unfinished : UnfinishedFullSet blob) :
    ¬GateSound blob mfgLegacyStepTotal := by
  intro sound
  have opens := unfinished.opens
  cases decoded : mfgRecordDecode blob with
  | none => rw [decoded] at opens; cases opens
  | some stored =>
    rw [decoded] at opens
    obtain ⟨summary, after, time', returned, same, -⟩ :=
      mfgRead_settled (show ({ mfg := some blob } : Preferences).mfg = some blob from rfl)
        (fun _ => Answer.default_works) 0
    rw [same stored decoded] at returned
    exact unfinished.not_recordsPassed (sound.recorded _ rfl _ _ _ _ _ _ returned opens)

/-- The gate may trust exactly the blobs that are no unfinished full set of a legacy-sized
product. -/
theorem gateSound_iff (blob : Bytes) (required : Nat) :
    GateSound blob required ↔ ¬(required = mfgLegacyStepTotal ∧ UnfinishedFullSet blob) := by
  constructor
  · rintro sound ⟨rfl, unfinished⟩
    exact unfinished.not_gateSound sound
  · intro finished
    constructor
    · intro pref found answers time summary present after time' returned opened
      have ending := (ensures_mfgRead : Ensures _ mfgRead _ _ _ pref) answers
        (fun _ => trivial) time
      rw [returned] at ending
      obtain ⟨stored, same, decoded⟩ | ⟨total, rfl⟩ := ending
      · cases found.symm.trans same
        exact (decode_passed decoded opened).resolve_right finished
      · rw [MfgSummary.untested_not_passed] at opened
        cases opened
    · intro pref found answers time works
      obtain ⟨summary, after, time', returned, -, again⟩ := mfgRead_settled found works time
      exact ⟨summary, after, time', returned, again⟩

/-- A layout-one record of a run that failed after counting every step opens the gate. -/
theorem failed_run_not_gateSound :
    ¬GateSound [1, 0, 0, 0, 3, 0, 0, 0, 22, 0, 0, 0, 22, 0, 0, 0] 22 :=
  UnfinishedFullSet.not_gateSound (.counters 3 (.inr rfl))

end Gizos.Loader
