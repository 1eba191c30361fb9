import Gizos.Loader.Preferences
import Mathlib.Data.Nat.Bitwise

/-! # The manufacturing record

The step summary, the four stored layouts of it, and the calls that read, migrate, write
and re-qualify the stored record (`h2_loader_mfg.c`, and the summary checks of
`h2_loader_status.c`).
-/
namespace Gizos.Loader

open Fault Pal Codec Fault.Program

/-- `H2_LOADER_MFG_STEP_MAX`. -/
def mfgStepMax : Nat := 32

/-- `H2_LOADER_MFG_LEGACY_STEP_TOTAL`. -/
def mfgLegacyStepTotal : Nat := 22

/-- `H2_LOADER_MFG_STEP_UNTESTED`. -/
def mfgStepUntested : UInt8 := 0
/-- `H2_LOADER_MFG_STEP_PASSED`. -/
def mfgStepPassed : UInt8 := 1
/-- `H2_LOADER_MFG_STEP_SKIPPED`. -/
def mfgStepSkipped : UInt8 := 2
/-- `H2_LOADER_MFG_STEP_FAILED`. -/
def mfgStepFailed : UInt8 := 3

/-- `h2_loader_mfg_summary_t`: a step count and the fixed array of step statuses. -/
structure MfgSummary where
  /-- Number of meaningful steps; zero when no record exists. -/
  total : Nat
  /-- Status of every slot, used or not. -/
  stepStatus : Bytes
  /-- The array has its fixed size. -/
  length_eq : stepStatus.length = mfgStepMax
deriving DecidableEq

variable (summary : MfgSummary)

/-- The status of one step. -/
def MfgSummary.step (index : Nat) : UInt8 :=
  summary.stepStatus.getD index mfgStepUntested

/-- A summary whose used slots are given and whose other slots are zero. -/
def MfgSummary.ofSteps (total : Nat) (steps : Bytes) : MfgSummary where
  total := total
  stepStatus := (steps ++ List.replicate mfgStepMax 0).take mfgStepMax
  length_eq := by simp

/-- `h2_loader_mfg_summary_validate`. -/
def mfgSummaryValidate : Bool :=
  summary.total ≤ mfgStepMax &&
    (List.range mfgStepMax).all fun index =>
      summary.step index ≤ mfgStepFailed &&
        (index < summary.total || summary.step index = mfgStepUntested)

/-- `mfg_passed_count`. -/
def mfgPassedCount : Nat :=
  (List.range summary.total).countP fun index => summary.step index = mfgStepPassed

/-- `h2_loader_mfg_summary_is_passed`. -/
def mfgSummaryIsPassed (requiredTotal : Nat) : Bool :=
  0 < requiredTotal && mfgSummaryValidate summary && summary.total = requiredTotal &&
    mfgPassedCount summary = requiredTotal

/-- The little-endian word at an offset of a blob. -/
def wordAt (blob : Bytes) (offset : Nat) : Nat := leValue ((blob.drop offset).take 4)

/-- Mask of the legacy steps. -/
def mfgValidMask : Nat := 2 ^ mfgLegacyStepTotal - 1

/-- Statuses the legacy masks give to the legacy steps. -/
def mfgMaskSteps (passedMask skippedMask : Nat) : Bytes :=
  (List.range mfgLegacyStepTotal).map fun index =>
    if passedMask.testBit index then mfgStepPassed
    else if skippedMask.testBit index then mfgStepSkipped
    else mfgStepUntested

/-- The passed mask of the counter layouts: stored in layout two, counted in layout one. -/
def mfgPassedMask (format : Nat) (blob : Bytes) : Nat :=
  if format = 2 then wordAt blob 16
  else if 0 < wordAt blob 8 then 2 ^ wordAt blob 8 - 1
  else 0

/-- The skipped mask of the counter layouts; layout one has none. -/
def mfgSkippedMask (format : Nat) (blob : Bytes) : Nat :=
  if format = 2 then wordAt blob 20 else 0

/-- `mfg_record_decode_legacy_counters`: layouts one and two. -/
def mfgRecordDecodeLegacyCounters (format : Nat) (blob : Bytes) : Option MfgSummary :=
  let state := wordAt blob 4
  let passed := wordAt blob 8
  let total := wordAt blob 12
  if total ≠ mfgLegacyStepTotal ∨ passed > total ∨ state < 1 ∨ state > 3 then none else
  let passedMask := mfgPassedMask format blob
  let skippedMask := mfgSkippedMask format blob
  if format = 2 ∧ (passedMask &&& skippedMask ≠ 0 ∨
      (passedMask ||| skippedMask) &&& ((2 ^ 32 - 1) ^^^ mfgValidMask) ≠ 0) then none else
  if state = 2 ∧ (passed ≠ mfgLegacyStepTotal ∨ passedMask ≠ mfgValidMask ∨ skippedMask ≠ 0) then
    none else
  let steps := mfgMaskSteps passedMask skippedMask
  -- A failed run marks the first step it did not get through.
  if state = 3 ∧ passed < mfgLegacyStepTotal ∧ steps.getD passed 0 = mfgStepUntested then
    some (.ofSteps mfgLegacyStepTotal (steps.set passed mfgStepFailed))
  else some (.ofSteps mfgLegacyStepTotal steps)

/-- The layouts of `mfg_record_decode`, before the common validation. -/
def mfgRecordLayout (blob : Bytes) : Option MfgSummary :=
  let format := wordAt blob 0
  if format = 4 then
    let total := if 5 ≤ blob.length then (blob.getD 4 0).toNat else 0
    if total ≠ 0 ∧ total ≤ mfgStepMax ∧ blob.length = 5 + total then
      some (.ofSteps total (blob.drop 5))
    else none
  else if format = 3 ∧ blob.length = 4 + mfgLegacyStepTotal then
    some (.ofSteps mfgLegacyStepTotal (blob.drop 4))
  else if (format = 1 ∧ blob.length = 16) ∨ (format = 2 ∧ blob.length = 24) then
    mfgRecordDecodeLegacyCounters format blob
  else none

/-- `mfg_record_decode`: the summary of a well-formed blob of any layout. -/
def mfgRecordDecode (blob : Bytes) : Option MfgSummary :=
  if blob.length < 4 then none else
  (mfgRecordLayout blob).filter mfgSummaryValidate

/-- The layout-four blob of a summary. -/
def mfgRecordEncode : Bytes :=
  leBytes 4 4 ++ UInt8.ofNat summary.total :: summary.stepStatus.take summary.total

/-- `H2_LOADER_MFG_RECORD_MAX_SIZE`. -/
def mfgRecordMaxSize : Nat := 5 + mfgStepMax

/-- What loading the record without rewriting it finds. -/
inductive MfgLoad where
  /-- There is no record. -/
  | absent
  /-- A record exists but does not decode. -/
  | malformed
  /-- The decoded record, and whether it is in a legacy layout. -/
  | decoded (summary : MfgSummary) (needsMigration : Bool)
deriving DecidableEq

/-- `mfg_record_load`. A blob over `limit` is refused by the caller's allocator, which the
bounded callers read like a malformed record. -/
def mfgRecordLoad (limit : Option Nat) : Routine Preferences MfgLoad := do
  match ← (probe : Routine Preferences Unit).attempt with
  | .error code => if code = errNotFound then pure .absent else fail code
  | .ok _ =>
    let found ← (lookup Preferences.mfg).attempt
    let closed ← (probe : Routine Preferences Unit).attempt
    match found with
    | .error code =>
      if code = errNotFound then conclude (closed.map fun _ => .absent)
      else fail code
    | .ok blob =>
      if limit.any (· < blob.length) then pure .malformed else
      match closed with
      | .error code => fail code
      | .ok _ =>
        match mfgRecordDecode blob with
        | none => pure .malformed
        | some summary => pure (.decoded summary (wordAt blob 0 ≠ 4))

/-- The preferences with a record and, when given, its acceptance revision. -/
def Preferences.withMfg (revision : Option Nat) (pref : Preferences) :
    Preferences :=
  { pref with
    mfg := some (mfgRecordEncode summary)
    mfgAcceptanceRevision := revision.or pref.mfgAcceptanceRevision }

/-- `mfg_record_store`: the record and, when given, the acceptance revision in one
transaction. -/
def mfgRecordStore (revision : Option Nat) : Routine Preferences Unit := do
  require (mfgSummaryValidate summary ∧ summary.total ≠ 0 ∧ summary.total ≤ mfgStepMax)
    errInvalidArg
  let staging : Routine Preferences Unit := do
    probe
    match revision with
    | none => pure ()
    | some _ => probe
  transaction staging (Preferences.withMfg summary revision)

/-- `h2_loader_mfg_write`. -/
def mfgWrite : Routine Preferences Unit := mfgRecordStore summary none

/-- The summary with every step untested. -/
def mfgUntested (total : Nat) : MfgSummary := .ofSteps total []

/-- `h2_loader_mfg_reset`. -/
def mfgReset (total : Nat) : Routine Preferences Unit := mfgWrite (mfgUntested total)

/-- `h2_loader_mfg_read`: the summary and whether a record was there. Legacy records are
rewritten, and malformed ones are replaced by an untested legacy-sized record. -/
def mfgRead : Routine Preferences (MfgSummary × Bool) := do
  match ← (mfgRecordLoad none).attempt with
  | .error code =>
    if code = errFormat then
      mfgWrite (mfgUntested mfgLegacyStepTotal)
      pure (mfgUntested mfgLegacyStepTotal, false)
    else fail code
  | .ok .absent => pure (mfgUntested 0, false)
  | .ok .malformed =>
    mfgWrite (mfgUntested mfgLegacyStepTotal)
    pure (mfgUntested mfgLegacyStepTotal, true)
  | .ok (.decoded summary needsMigration) =>
    if needsMigration then mfgWrite summary
    pure (summary, true)

/-- The stored record, when it stands under exactly this revision and total. -/
def mfgStoredUnder (revision total : Nat) : Routine Preferences (Option MfgSummary) := do
  match ← (prefGet Preferences.mfgAcceptanceRevision).attempt with
  | .error code => if code = errNotFound then pure none else fail code
  | .ok stored =>
    if stored ≠ revision then pure none else
    match ← (mfgRecordLoad (some mfgRecordMaxSize)).attempt with
    | .error code => if code = errFormat then pure none else fail code
    | .ok (.decoded summary _) => pure (if summary.total = total then some summary else none)
    | .ok _ => pure none

/-- `pref_set_u32` on the acceptance revision. -/
def mfgSetRevision (revision : Nat) : Routine Preferences Unit :=
  transaction probe fun pref => { pref with mfgAcceptanceRevision := some revision }

/-- `h2_loader_mfg_ensure_acceptance_revision`. -/
def mfgEnsureAcceptanceRevision (total requiredRevision : Nat) : Routine Preferences Unit := do
  require (total ≠ 0 ∧ total ≤ mfgStepMax ∧ requiredRevision ≠ 0) errInvalidArg
  match ← mfgStoredUnder requiredRevision total with
  | some _ => pure ()
  | none =>
    mfgReset total
    mfgSetRevision requiredRevision

/-- `h2_loader_mfg_ensure_appended_revision`. -/
def mfgEnsureAppendedRevision (total revision previousTotal previousRevision : Nat) :
    Routine Preferences Unit := do
  require (previousTotal ≠ 0 ∧ previousTotal < total ∧ total ≤ mfgStepMax ∧
    previousRevision ≠ 0 ∧ previousRevision < revision) errInvalidArg
  match ← mfgStoredUnder previousRevision previousTotal with
  | some stored => mfgRecordStore { stored with total := total } (some revision)
  | none => mfgEnsureAcceptanceRevision total revision

end Gizos.Loader
