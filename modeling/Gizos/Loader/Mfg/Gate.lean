import Gizos.Loader.Mfg.Layout

/-! # Which records open the manufacturing gate

`RecordsPassed` spells out the byte strings that record every step as passed: the two
step-array layouts with all steps passed, and the two counter layouts with the full passed
set and the overall state `passed`. The decoder accepts exactly these and one family more:
counter records with the full passed set whose overall state says running or failed.
-/
namespace Gizos.Loader

open Fault Pal Codec MfgSummary

variable {blob : Bytes} {summary : MfgSummary} {total : Nat}

/-- The counter record of layout one. -/
def mfgCounterBlob (state passed : Nat) : Bytes :=
  leBytes 4 1 ++ (leBytes 4 state ++ (leBytes 4 passed ++ (leBytes 4 mfgLegacyStepTotal ++ [])))

/-- The counter record of layout two, with its masks. -/
def mfgMaskBlob (state passed passedMask skippedMask : Nat) : Bytes :=
  leBytes 4 2 ++ (leBytes 4 state ++ (leBytes 4 passed ++ (leBytes 4 mfgLegacyStepTotal ++
    (leBytes 4 passedMask ++ (leBytes 4 skippedMask ++ [])))))

/-- Overall state `passed` of the counter layouts. -/
def mfgStatePassed : Nat := 2

/-- The blob is well formed and records each of `total` steps as passed. -/
inductive RecordsPassed : Bytes → Nat → Prop where
  /-- Layout four with every step byte passed. -/
  | steps (total : Nat) (positive : 0 < total) (bound : total ≤ mfgStepMax) :
    RecordsPassed (leBytes 4 4 ++ UInt8.ofNat total :: List.replicate total mfgStepPassed) total
  /-- Layout three with every step byte passed. -/
  | legacySteps :
    RecordsPassed (leBytes 4 3 ++ List.replicate mfgLegacyStepTotal mfgStepPassed)
      mfgLegacyStepTotal
  /-- Layout two with the full passed set and the passed state. -/
  | masks :
    RecordsPassed (mfgMaskBlob mfgStatePassed mfgLegacyStepTotal mfgValidMask 0) mfgLegacyStepTotal
  /-- Layout one with every step counted and the passed state. -/
  | counters :
    RecordsPassed (mfgCounterBlob mfgStatePassed mfgLegacyStepTotal) mfgLegacyStepTotal

/-- A counter record with the full passed set whose overall state is running or failed. -/
inductive UnfinishedFullSet : Bytes → Prop where
  /-- Layout one. -/
  | counters (state : Nat) (unfinished : state = 1 ∨ state = 3) :
    UnfinishedFullSet (mfgCounterBlob state mfgLegacyStepTotal)
  /-- Layout two; its counter is not tied to its masks. -/
  | masks (state passed : Nat) (unfinished : state = 1 ∨ state = 3)
    (counted : passed ≤ mfgLegacyStepTotal) :
    UnfinishedFullSet (mfgMaskBlob state passed mfgValidMask 0)

theorem mfgMaskSteps_passed {passedMask skippedMask index : Nat}
    (inside : index < mfgLegacyStepTotal) :
    (mfgMaskSteps passedMask skippedMask).getD index mfgStepUntested = mfgStepPassed ↔
      passedMask.testBit index = true := by
  simp only [mfgMaskSteps, List.getD_eq_getElem?_getD, List.getElem?_map, List.getElem?_range,
    inside, Option.map_some, Option.getD_some]
  split
  · simp_all
  · split <;> simp_all [mfgStepSkipped, mfgStepPassed, mfgStepUntested]

theorem eq_mfgValidMask {mask : Nat} (full : ∀ index < mfgLegacyStepTotal, mask.testBit index =
    true)
    (inside : ∀ index, mfgLegacyStepTotal ≤ index → mask.testBit index = false) :
    mask = mfgValidMask := by
  apply Nat.eq_of_testBit_eq
  intro index
  rw [mfgValidMask]
  by_cases low : index < mfgLegacyStepTotal
  · simp [full index low, low]
  · simp [inside index (by omega), low]

theorem masks_inside {mask other index : Nat} (bound : mask < 2 ^ 32)
    (checked : (mask ||| other) &&& ((2 ^ 32 - 1) ^^^ mfgValidMask) = 0)
    (beyond : mfgLegacyStepTotal ≤ index) : mask.testBit index = false := by
  by_cases wide : index < 32
  · have bit := congrArg (Nat.testBit · index) checked
    have low : ¬index < mfgLegacyStepTotal := by omega
    simp only [Nat.testBit_and, Nat.testBit_or, Nat.testBit_xor, mfgValidMask,
      Nat.testBit_two_pow_sub_one, wide, low, Nat.zero_testBit] at bit
    simp_all
  · exact Nat.testBit_lt_two_pow (lt_of_lt_of_le bound
      (Nat.pow_le_pow_right (by decide) (by omega)))

theorem legacyCounters_passed {format : Nat}
    (decoded : mfgRecordDecodeLegacyCounters format blob = some summary)
    (passed : ∀ index < mfgLegacyStepTotal, summary.step index = mfgStepPassed) :
    wordAt blob 12 = mfgLegacyStepTotal ∧ wordAt blob 8 ≤ mfgLegacyStepTotal ∧
      (wordAt blob 4 = 1 ∨ wordAt blob 4 = 2 ∨ wordAt blob 4 = 3) ∧
      (∀ index < mfgLegacyStepTotal, (mfgPassedMask format blob).testBit index = true) ∧
      (format = 2 → mfgPassedMask format blob &&& mfgSkippedMask format blob = 0 ∧
        (mfgPassedMask format blob ||| mfgSkippedMask format blob) &&&
          ((2 ^ 32 - 1) ^^^ mfgValidMask) = 0) ∧
      (wordAt blob 4 = 2 → wordAt blob 8 = mfgLegacyStepTotal) := by
  unfold mfgRecordDecodeLegacyCounters at decoded
  simp only at decoded
  split at decoded
  · cases decoded
  split at decoded
  · cases decoded
  rename_i masks
  split at decoded
  · cases decoded
  rename_i finished
  have legacy : mfgLegacyStepTotal = 22 := rfl
  have slots : mfgStepMax = 32 := rfl
  refine ⟨by omega, by omega, by omega, ?_, ?_, ?_⟩
  · split at decoded
    · -- The step marked as failed cannot be passed.
      rename_i marked
      cases decoded
      have failed := passed (wordAt blob 8) marked.2.1
      have size : (mfgMaskSteps (mfgPassedMask format blob) (mfgSkippedMask format blob)).length =
          mfgLegacyStepTotal := by simp [mfgMaskSteps]
      rw [ofSteps_step (by omega), List.getD_eq_getElem?_getD,
        List.getElem?_set_self (by omega)] at failed
      cases failed
    · cases decoded
      intro index inside
      have step := passed index inside
      rw [ofSteps_step (by omega)] at step
      exact (mfgMaskSteps_passed inside).mp step
  · intro second
    simp only [second, true_and, not_or, ne_eq, not_not] at masks ⊢
    exact masks
  · intro state
    by_contra short
    exact finished ⟨state, .inl short⟩

theorem eq_counterWords (size : blob.length = 16) :
    blob = leBytes 4 (wordAt blob 0) ++ (leBytes 4 (wordAt blob 4) ++
      (leBytes 4 (wordAt blob 8) ++ (leBytes 4 (wordAt blob 12) ++ []))) := by
  have last : blob.drop 16 = [] := List.drop_eq_nil_of_le (by omega)
  rw [← last, ← drop_eq_word (show 12 + 4 ≤ _ by omega), ← drop_eq_word (show 8 + 4 ≤ _ by omega),
    ← drop_eq_word (show 4 + 4 ≤ _ by omega), ← drop_eq_word (show 0 + 4 ≤ _ by omega),
    List.drop_zero]

theorem eq_maskWords (size : blob.length = 24) :
    blob = leBytes 4 (wordAt blob 0) ++ (leBytes 4 (wordAt blob 4) ++
      (leBytes 4 (wordAt blob 8) ++ (leBytes 4 (wordAt blob 12) ++
        (leBytes 4 (wordAt blob 16) ++ (leBytes 4 (wordAt blob 20) ++ []))))) := by
  have last : blob.drop 24 = [] := List.drop_eq_nil_of_le (by omega)
  rw [← last, ← drop_eq_word (show 20 + 4 ≤ _ by omega), ← drop_eq_word (show 16 + 4 ≤ _ by omega),
    ← drop_eq_word (show 12 + 4 ≤ _ by omega), ← drop_eq_word (show 8 + 4 ≤ _ by omega),
    ← drop_eq_word (show 4 + 4 ≤ _ by omega), ← drop_eq_word (show 0 + 4 ≤ _ by omega),
    List.drop_zero]

theorem counters_passed (size : blob.length = 16) (format : wordAt blob 0 = 1)
    (decoded : mfgRecordDecodeLegacyCounters 1 blob = some summary)
    (passed : ∀ index < mfgLegacyStepTotal, summary.step index = mfgStepPassed) :
    RecordsPassed blob mfgLegacyStepTotal ∨ UnfinishedFullSet blob := by
  obtain ⟨total, counted, state, full, -, -⟩ := legacyCounters_passed decoded passed
  have top := full 21 (by decide)
  have every : wordAt blob 8 = mfgLegacyStepTotal := by
    have legacy : mfgLegacyStepTotal = 22 := rfl
    by_contra fewer
    simp only [mfgPassedMask, OfNat.one_ne_ofNat, if_false] at top
    split at top
    · rw [Nat.testBit_two_pow_sub_one, decide_eq_true_eq] at top
      omega
    · simp at top
  have words := eq_counterWords size
  rw [format, every, total] at words
  rw [words]
  obtain first | second | third := state
  · rw [first]; exact .inr (.counters 1 (.inl rfl))
  · rw [second]; exact .inl .counters
  · rw [third]; exact .inr (.counters 3 (.inr rfl))

/-- Layout two with every step passed has the full passed mask and nothing skipped. -/
theorem masks_passed (size : blob.length = 24) (format : wordAt blob 0 = 2)
    (decoded : mfgRecordDecodeLegacyCounters 2 blob = some summary)
    (passed : ∀ index < mfgLegacyStepTotal, summary.step index = mfgStepPassed) :
    RecordsPassed blob mfgLegacyStepTotal ∨ UnfinishedFullSet blob := by
  obtain ⟨total, counted, state, full, checked, finished⟩ := legacyCounters_passed decoded passed
  obtain ⟨disjoint, inside⟩ := checked rfl
  change (∀ index < mfgLegacyStepTotal, (wordAt blob 16).testBit index = true) at full
  change wordAt blob 16 &&& wordAt blob 20 = 0 at disjoint
  have mask : wordAt blob 16 = mfgValidMask :=
    eq_mfgValidMask full fun index => masks_inside (wordAt_lt _ _) inside
  have skipped : wordAt blob 20 = 0 := by
    apply Nat.eq_of_testBit_eq
    intro index
    rw [Nat.zero_testBit]
    by_cases low : index < mfgLegacyStepTotal
    · have bit := congrArg (Nat.testBit · index) disjoint
      simpa [Nat.testBit_and, full index low] using bit
    · rw [Nat.lor_comm] at inside
      exact masks_inside (wordAt_lt _ _) inside (by omega)
  have words := eq_maskWords size
  rw [format, total, mask, skipped] at words
  rw [words]
  obtain first | second | third := state
  · rw [first]; exact .inr (.masks 1 _ (.inl rfl) counted)
  · rw [second, finished second]; exact .inl .masks
  · rw [third]; exact .inr (.masks 3 _ (.inr rfl) counted)

theorem steps_passed {steps : Bytes} (size : steps.length = total) (bound : total ≤ mfgStepMax)
    (passed : ∀ index < total, (MfgSummary.ofSteps total steps).step index = mfgStepPassed) :
    steps = List.replicate total mfgStepPassed := by
  apply List.ext_getElem (by simp [size])
  intro index inside _
  have step := passed index (by omega)
  rw [ofSteps_step (by omega)] at step
  simpa [inside] using step

/-- A blob whose summary opens the gate records every step as passed, or is a counter record
with the full passed set that was never finished as passed. -/
theorem decode_passed {required : Nat} (decoded : mfgRecordDecode blob = some summary)
    (opened : mfgSummaryIsPassed summary required = true) :
    RecordsPassed blob required ∨ required = mfgLegacyStepTotal ∧ UnfinishedFullSet blob := by
  obtain ⟨positive, -, same, passed⟩ := (isPassed_iff _ _).mp opened
  unfold mfgRecordDecode at decoded
  split at decoded
  · cases decoded
  obtain ⟨layout, -⟩ := Option.filter_eq_some_iff.mp decoded
  have start : blob = leBytes 4 (wordAt blob 0) ++ blob.drop 4 :=
    drop_eq_word (show 0 + 4 ≤ blob.length by omega)
  unfold mfgRecordLayout at layout
  simp only at layout
  split at layout
  · rename_i format
    left
    by_cases wide : 5 ≤ blob.length
    · simp only [wide, if_true] at layout
      split at layout
      · rename_i fits
        cases layout
        change (blob.getD 4 0).toNat = required at same
        obtain ⟨-, bound, size⟩ := fits
        rw [same] at bound size passed
        have inside : 4 < blob.length := wide
        have byte : blob[4] = UInt8.ofNat required := by rw [← same]; simp [inside]
        have tail : blob.drop 4 = UInt8.ofNat required :: blob.drop 5 := by
          rw [← List.getElem_cons_drop inside, byte]
        have steps := steps_passed (show (blob.drop 5).length = required by simp [size]) bound
          passed
        rw [start, format, tail, steps]
        exact .steps required positive bound
      · cases layout
    · simp [wide] at layout
  · split at layout
    · rename_i third
      cases layout
      left
      obtain ⟨format, size⟩ := third
      rw [← same] at passed ⊢
      have steps := steps_passed (show (blob.drop 4).length = mfgLegacyStepTotal by simp [size])
        (by decide) passed
      rw [start, format, steps]
      exact .legacySteps
    · split at layout
      · rename_i counter
        have legacy := legacyCounters_total layout
        rw [← same, legacy] at passed ⊢
        obtain ⟨format, size⟩ | ⟨format, size⟩ := counter
        · rw [format] at layout
          exact (counters_passed size format layout passed).imp_right fun found => ⟨rfl, found⟩
        · rw [format] at layout
          exact (masks_passed size format layout passed).imp_right fun found => ⟨rfl, found⟩
      · cases layout

/-- The format word, and for counter records the state word, of a record of passed steps. -/
theorem RecordsPassed.words (recorded : RecordsPassed blob total) :
    wordAt blob 0 = 4 ∨ wordAt blob 0 = 3 ∨ wordAt blob 4 = mfgStatePassed := by
  cases recorded with
  | steps => exact .inl (wordAt_append (by decide) [] _)
  | legacySteps => exact .inr (.inl (wordAt_append (by decide) [] _))
  | masks => exact .inr (.inr (wordAt_append (by decide) (leBytes 4 2) _))
  | counters => exact .inr (.inr (wordAt_append (by decide) (leBytes 4 1) _))

/-- A full set that was never finished is no record of passed steps. -/
theorem UnfinishedFullSet.not_recordsPassed (unfinished : UnfinishedFullSet blob) :
    ¬RecordsPassed blob total := by
  intro recorded
  have words := recorded.words
  cases unfinished with
  | counters state running =>
    have format : wordAt (mfgCounterBlob state mfgLegacyStepTotal) 0 = 1 :=
      wordAt_append (by decide) [] _
    have found : wordAt (mfgCounterBlob state mfgLegacyStepTotal) 4 = state :=
      wordAt_append (by omega) (leBytes 4 1) _
    have passed : mfgStatePassed = 2 := rfl
    omega
  | masks state passed running counted =>
    have format : wordAt (mfgMaskBlob state passed mfgValidMask 0) 0 = 2 :=
      wordAt_append (by decide) [] _
    have found : wordAt (mfgMaskBlob state passed mfgValidMask 0) 4 = state :=
      wordAt_append (by omega) (leBytes 4 2) _
    have done : mfgStatePassed = 2 := rfl
    omega

/-- Every full set opens the gate of a legacy-sized product, finished or not. -/
theorem UnfinishedFullSet.opens (unfinished : UnfinishedFullSet blob) :
    (mfgRecordDecode blob).any (mfgSummaryIsPassed · mfgLegacyStepTotal) = true := by
  cases unfinished with
  | counters state running => obtain rfl | rfl := running <;> decide +kernel
  | masks state passed running counted =>
    have every : ∀ passed ∈ List.range 23, ∀ state ∈ [1, 3],
        (mfgRecordDecode (mfgMaskBlob state passed mfgValidMask 0)).any
          (mfgSummaryIsPassed · mfgLegacyStepTotal) = true := by
      decide +kernel
    have legacy : mfgLegacyStepTotal = 22 := rfl
    exact every passed (List.mem_range.mpr (by omega)) state (by simpa using running)

end Gizos.Loader
