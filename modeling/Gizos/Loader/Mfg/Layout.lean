import Gizos.Loader.Mfg.Record

/-! # Layouts of the manufacturing record

What the stored layouts say about the steps they record: a written summary decodes as
itself, and a blob whose summary is passed is one of a few explicit byte strings.
-/
namespace Gizos.Loader

open Fault Pal Codec

variable {blob : Bytes} {summary : MfgSummary}

/-- A word in range is read back from the front of a blob. -/
theorem wordAt_append {value : Nat} (bound : value < 2 ^ 32) (front rest : Bytes) :
    wordAt (front ++ (leBytes 4 value ++ rest)) front.length = value := by
  have whole : (leBytes 4 value ++ rest).take 4 = leBytes 4 value := by
    rw [List.take_append_of_le_length (by simp)]
    exact List.take_of_length_le (by simp)
  rw [wordAt, List.drop_left, whole, leValue_leBytes]
  omega

theorem drop_eq_word {offset : Nat} (room : offset + 4 ≤ blob.length) :
    blob.drop offset = leBytes 4 (wordAt blob offset) ++ blob.drop (offset + 4) := by
  have size : ((blob.drop offset).take 4).length = 4 := by simp; omega
  have word := leBytes_leValue ((blob.drop offset).take 4)
  rw [size] at word
  rw [wordAt, word, ← List.drop_drop, List.take_append_drop]

theorem wordAt_lt (blob : Bytes) (offset : Nat) : wordAt blob offset < 2 ^ 32 := by
  have bound := leValue_lt ((blob.drop offset).take 4)
  have size : ((blob.drop offset).take 4).length ≤ 4 := List.length_take_le _ _
  have power := Nat.pow_le_pow_right (show 0 < 256 by decide) size
  rw [wordAt]
  omega

namespace MfgSummary

theorem ofSteps_step {total : Nat} {steps : Bytes} {index : Nat} (bound : index < mfgStepMax) :
    (ofSteps total steps).step index = steps.getD index mfgStepUntested := by
  simp only [step, ofSteps, List.getD_eq_getElem?_getD, List.getElem?_take, bound, if_true,
    List.getElem?_append, List.getElem?_replicate, mfgStepUntested]
  split
  · rfl
  · rename_i beyond
    rw [if_pos (by omega), List.getElem?_eq_none (by omega)]
    rfl

/-- Two summaries with the same total and the same steps are equal. -/
theorem ext_step {left right : MfgSummary} (totals : left.total = right.total)
    (steps : ∀ index < mfgStepMax, left.step index = right.step index) : left = right := by
  cases left with
  | mk leftTotal leftSteps leftSize =>
  cases right with
  | mk rightTotal rightSteps rightSize =>
    have same : leftSteps = rightSteps := by
      apply List.ext_getElem (leftSize.trans rightSize.symm)
      intro index leftBound rightBound
      have step := steps index (by omega)
      simpa [MfgSummary.step, leftBound, rightBound] using step
    simp_all

theorem validate_iff (summary : MfgSummary) :
    mfgSummaryValidate summary = true ↔ summary.total ≤ mfgStepMax ∧
      ∀ index < mfgStepMax, summary.step index ≤ mfgStepFailed ∧
        (summary.total ≤ index → summary.step index = mfgStepUntested) := by
  simp only [mfgSummaryValidate, Bool.and_eq_true, decide_eq_true_eq, List.all_eq_true,
    List.mem_range, Bool.or_eq_true]
  refine and_congr_right fun _ => forall₂_congr fun index _ => and_congr_right fun _ => ?_
  rw [← not_lt]
  tauto

theorem passedCount_eq_total (summary : MfgSummary) :
    mfgPassedCount summary = summary.total ↔
      ∀ index < summary.total, summary.step index = mfgStepPassed := by
  have whole := List.countP_eq_length (l := List.range summary.total)
    (p := fun index => decide (summary.step index = mfgStepPassed))
  simp only [List.length_range, List.mem_range, decide_eq_true_eq] at whole
  exact whole

/-- The gate opens exactly for a valid summary with the required number of steps, all
passed. -/
theorem isPassed_iff (summary : MfgSummary) (required : Nat) :
    mfgSummaryIsPassed summary required = true ↔
      0 < required ∧ mfgSummaryValidate summary = true ∧ summary.total = required ∧
        ∀ index < required, summary.step index = mfgStepPassed := by
  simp only [mfgSummaryIsPassed, Bool.and_eq_true, decide_eq_true_eq, and_assoc]
  refine and_congr_right fun _ => and_congr_right fun _ => and_congr_right fun same => ?_
  subst same
  exact passedCount_eq_total summary

/-- A summary with nothing tested never opens the gate. -/
theorem untested_not_passed (total required : Nat) :
    mfgSummaryIsPassed (mfgUntested total) required = false := by
  rw [Bool.eq_false_iff, Ne, isPassed_iff]
  rintro ⟨positive, valid, same, passed⟩
  have first := passed 0 positive
  rw [mfgUntested, ofSteps_step (by decide)] at first
  simp [mfgStepUntested, mfgStepPassed] at first

theorem untested_valid {total : Nat} (bound : total ≤ mfgStepMax) :
    mfgSummaryValidate (mfgUntested total) = true := by
  rw [validate_iff]
  refine ⟨bound, fun index inside => ?_⟩
  rw [mfgUntested, ofSteps_step inside]
  simp [mfgStepUntested, mfgStepFailed]

end MfgSummary

/-- A written record starts with layout four. -/
theorem mfgRecordEncode_format (summary : MfgSummary) : wordAt (mfgRecordEncode summary) 0 = 4 :=
  wordAt_append (by decide) [] _

theorem mfgRecordDecode_encode (valid : mfgSummaryValidate summary = true)
    (positive : summary.total ≠ 0) : mfgRecordDecode (mfgRecordEncode summary) = some summary := by
  obtain ⟨bound, slots⟩ := (MfgSummary.validate_iff summary).mp valid
  have fixed : summary.stepStatus.length = mfgStepMax := summary.length_eq
  have small : mfgStepMax = 32 := rfl
  have size : (mfgRecordEncode summary).length = 5 + summary.total := by
    simp [mfgRecordEncode]; omega
  have byte : (UInt8.ofNat summary.total).toNat = summary.total := by
    simp only [UInt8.toNat_ofNat']; omega
  have count : ((mfgRecordEncode summary).getD 4 0).toNat = summary.total := by
    simpa [mfgRecordEncode, leBytes] using byte
  have tail : (mfgRecordEncode summary).drop 5 = summary.stepStatus.take summary.total := by
    simp [mfgRecordEncode, leBytes]
  have same : MfgSummary.ofSteps summary.total (summary.stepStatus.take summary.total) =
      summary := by
    refine MfgSummary.ext_step rfl fun index inside => ?_
    rw [MfgSummary.ofSteps_step inside]
    by_cases used : index < summary.total
    · simp [MfgSummary.step, used]
    · rw [(slots index inside).2 (by omega)]
      simp [used]
  have layout : mfgRecordLayout (mfgRecordEncode summary) = some summary := by
    have wide : 5 ≤ (mfgRecordEncode summary).length := by omega
    simp only [mfgRecordLayout, mfgRecordEncode_format, if_true, wide, count]
    rw [if_pos ⟨positive, bound, size⟩, tail, same]
  rw [mfgRecordDecode, if_neg (by omega), layout]
  simp [valid]

theorem legacyCounters_total {format : Nat}
    (decoded : mfgRecordDecodeLegacyCounters format blob = some summary) :
    summary.total = mfgLegacyStepTotal := by
  unfold mfgRecordDecodeLegacyCounters at decoded
  simp only at decoded
  split at decoded
  · cases decoded
  split at decoded
  · cases decoded
  split at decoded
  · cases decoded
  split at decoded
  all_goals cases decoded; rfl

/-- Every decoded summary is valid and has steps, so it can be written back. -/
theorem mfgRecordDecode_valid (decoded : mfgRecordDecode blob = some summary) :
    mfgSummaryValidate summary = true ∧ summary.total ≠ 0 := by
  unfold mfgRecordDecode at decoded
  split at decoded
  · cases decoded
  obtain ⟨layout, valid⟩ := Option.filter_eq_some_iff.mp decoded
  refine ⟨valid, ?_⟩
  unfold mfgRecordLayout at layout
  simp only at layout
  split at layout
  · by_cases wide : 5 ≤ blob.length
    · simp only [wide, if_true] at layout
      split at layout
      · rename_i fits
        cases layout
        exact fits.1
      · cases layout
    · simp [wide] at layout
  · split at layout
    · cases layout
      exact (by decide : mfgLegacyStepTotal ≠ 0)
    · split at layout
      · rw [legacyCounters_total layout]
        decide
      · cases layout

end Gizos.Loader
