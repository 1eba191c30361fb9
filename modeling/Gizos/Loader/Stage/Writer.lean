import Gizos.Loader.Boot.State

/-! # The stage writer

`h2_loader_stage_writer.c` takes a package in chunks, checks the file it has written and publishes
the Stage record (`h2_loader_stage.c`). Every call can fail anywhere, and a reset loses the writer
but nothing of the preferences and files. The percentage a write reports is exact at every size.
-/
namespace Gizos.Loader

open Fault Pal Gizos.Bundle Fault.Program

/-- `H2_PAL_ERR_BUSY`. -/
def errBusy : Int := -18

/-- `h2_loader_stage_writer_t`. -/
structure StageWriter where
  /-- The package file is open. -/
  file : Bool := false
  /-- Declared size. -/
  expected : UInt64 := 0
  /-- Bytes written. -/
  written : UInt64 := 0
  /-- Declared digest. -/
  checksum : Bytes := []
  /-- Declared board. -/
  board : Bytes := []
  /-- Declared target. -/
  target : Bytes := []
  /-- What the inspection found, if there was one. -/
  inspection : Option Inspection := none
  /-- Percentage reported last. -/
  percent : UInt32 := 0
  /-- The stored Stage record has been taken back. -/
  started : Bool := false
  /-- The file has passed the inspection. -/
  verified : Bool := false
  /-- Ghost: the bytes of all writes that succeeded since the writer began. -/
  taken : Bytes := []

/-- The writer and the machine it runs on. -/
abbrev Stager : Type := StageWriter × Machine

/-- A routine on the writer's machine. -/
def onMachine {α : Type} (body : BootRoutine α) : Routine Stager α := body.on .snd

/-- A change of the writer's own fields. -/
def setWriter (change : StageWriter → StageWriter) : Routine Stager Unit :=
  update fun stager => (change stager.1, stager.2)

/-- How many bytes have to be written for a percentage, as the loop of
`h2_loader_stage_writer_write` computes it. -/
def percentThreshold (expected : UInt64) (next : UInt32) : UInt64 :=
  expected / 100 * next.toUInt64 + (expected % 100 * next.toUInt64 + 99) / 100

/-- The loop itself, which passes at most a hundred times. -/
def raisePercent (expected written : UInt64) : Nat → UInt32 → UInt32
  | 0, percent => percent
  | fuel + 1, percent =>
    if percent < 100 then
      if written < percentThreshold expected (percent + 1) then percent
      else raisePercent expected written fuel (percent + 1)
    else percent

/-- The record `h2_loader_stage_commit_inspection` makes. -/
def stagedMetadata (size : UInt64) (checksum : Bytes) (inspection : Inspection) : Metadata where
  valid := true
  packageChecksum := .copy _ checksum
  packageSize := size
  imageChecksum := .copy _ inspection.manifest.imageSha256.string
  imageSize := inspection.manifest.imageSize
  role := inspection.manifest.role
  version := .copy _ inspection.manifest.version.string
  board := .copy _ inspection.manifest.board.string
  target := .copy _ inspection.manifest.target.string

/-- `h2_loader_stage_begin`. -/
def stageBegin : BootRoutine Unit := onPref (metadataWrite .stage .zero)

/-- `h2_loader_stage_commit_inspection`. -/
def stageCommitInspection (size : UInt64) (checksum : Bytes) (inspection : Inspection) :
    BootRoutine Unit := do
  require (size ≠ 0 ∧ inspection.legacy = false ∧ inspection.manifest.format ≠ 0) errInvalidArg
  onPref (metadataWrite .stage (stagedMetadata size checksum inspection))

namespace PackageConfig

variable (config : PackageConfig)

/-- `h2_loader_stage_abort`. -/
def stageAbort : BootRoutine Unit := do
  require (config.packagePath ≠ []) errInvalidArg
  onPref (metadataWrite .stage .zero)
  onStorage (fsRemoveOptional config.packagePath)
  onPref (metadataClear .stage)

/-- `h2_loader_stage_writer_begin`. -/
def writerBegin (size : UInt64) (checksum board target : Bytes) : Routine Stager Unit := do
  require (size ≠ 0 ∧ isLowerSha256Hex checksum) errInvalidArg
  let writer ← read Prod.fst
  require (writer.file = false ∧ writer.started = false) errBusy
  setWriter fun _ => { expected := size, board, target, checksum }
  onMachine stageBegin
  setWriter fun writer => { writer with started := true }
  onMachine (onStorage (fsOpenTruncate config.packagePath))
  setWriter fun writer => { writer with file := true }

/-- `h2_loader_stage_writer_write`. -/
def writerWrite (data : Bytes) : Routine Stager UInt32 := do
  let writer ← read Prod.fst
  require (writer.file = true) errInvalidState
  require (writer.written ≤ writer.expected ∧
    data.length ≤ (writer.expected - writer.written).toNat) errFormat
  let count ← onMachine (onStorage (fsWrite config.packagePath data))
  require (count = data.length) Pal.errIo
  setWriter fun writer =>
    let written := writer.written + UInt64.ofNat count
    { writer with
      written
      percent := raisePercent writer.expected written 100 writer.percent
      taken := writer.taken ++ data }
  read fun stager => stager.1.percent

/-- What the writer asks of the package it has inspected. -/
def acceptsStaged (writer : StageWriter) (inspection : Inspection) : Prop :=
  inspection.legacy = false ∧ inspection.manifest.role = .app ∧
    inspection.manifest.board.string = writer.board ∧
    inspection.manifest.target.string = writer.target ∧
    (inspection.dataChecksum.length = 64 ∨
      inspection.dataChecksum.length = 65 ∧ inspection.dataChecksum[64]? = some 10)

instance (writer : StageWriter) (inspection : Inspection) :
    Decidable (acceptsStaged writer inspection) := inferInstanceAs (Decidable (_ ∧ _))

/-- `h2_loader_stage_writer_inspect`. -/
def writerInspect : Routine Stager Inspection := do
  let writer ← read Prod.fst
  require (writer.file = true) errInvalidState
  let synced ← (probe : Routine Stager Unit).attempt
  let closed ← (probe : Routine Stager Unit).attempt
  setWriter fun writer => { writer with file := false }
  conclude synced
  conclude closed
  require (writer.written = writer.expected) errFormat
  onMachine (onStorage (config.verifyPath config.packagePath writer.expected writer.checksum))
  let inspection ← onMachine (onStorage (config.inspectPath config.packagePath))
  setWriter fun writer => { writer with inspection := some inspection }
  require (acceptsStaged writer inspection) errFormat
  setWriter fun writer => { writer with verified := true }
  pure inspection

/-- `h2_loader_stage_writer_commit`. A writer that holds no inspection holds a zeroed one, which
has no format. -/
def writerCommit : Routine Stager Unit := do
  let writer ← read Prod.fst
  require (writer.started = true ∧ writer.verified = true) errInvalidState
  match writer.inspection with
  | none => fail errInvalidArg
  | some inspection =>
    onMachine (stageCommitInspection writer.expected writer.checksum inspection)

/-- `h2_loader_stage_writer_abort`. -/
def writerAbort : Routine Stager Unit := do
  let writer ← read Prod.fst
  let closed ← (onlyIf writer.file probe : Routine Stager Unit).attempt
  setWriter fun writer => { writer with file := false }
  let aborted ← (onlyIf writer.started (onMachine config.stageAbort)).attempt
  setWriter fun _ => {}
  conclude closed
  conclude aborted

end PackageConfig

/-- The calls of the writer's owner. -/
inductive StageCall where
  /-- `h2_loader_stage_writer_begin`. -/
  | begin (size : UInt64) (checksum board target : Bytes)
  /-- `h2_loader_stage_writer_write`. -/
  | write (data : Bytes)
  /-- `h2_loader_stage_writer_inspect`. -/
  | inspect
  /-- `h2_loader_stage_writer_commit`. -/
  | commit
  /-- `h2_loader_stage_writer_abort`. -/
  | abort

/-- What a call does. -/
def StageCall.run (config : PackageConfig) : StageCall → Routine Stager Unit
  | .begin size checksum board target => config.writerBegin size checksum board target
  | .write data => do let _ ← config.writerWrite data
  | .inspect => do let _ ← config.writerInspect
  | .commit => PackageConfig.writerCommit
  | .abort => config.writerAbort

/-- Where a call leaves the stager: a reset in the middle loses the writer. -/
def settled : Outcome Stager Unit → Stager
  | .returned _ stager _ => stager
  | .failed _ stager _ => stager
  | .stopped stager => ({}, stager.2)

/-- The stagers that calls lead to from a zeroed writer on any machine. -/
inductive Staged (config : PackageConfig) : Stager → Prop where
  | fresh (machine : Machine) : Staged config ({}, machine)
  | call {stager : Stager} (earlier : Staged config stager) (call : StageCall)
    (answers : Nat → Answer) (time : Nat) :
    Staged config (settled (call.run config answers time stager))

/-- Every intermediate value of the threshold fits into 64 bits, and reaching the threshold is
reaching the percentage. -/
theorem percentThreshold_le (expected written : UInt64) {next : UInt32} (small : next.toNat ≤ 100) :
    expected.toNat / 100 * next.toNat + (expected.toNat % 100 * next.toNat + 99) / 100 < 2 ^ 64 ∧
      ((percentThreshold expected next).toNat =
        expected.toNat / 100 * next.toNat + (expected.toNat % 100 * next.toNat + 99) / 100) ∧
      (percentThreshold expected next ≤ written ↔
        expected.toNat * next.toNat ≤ 100 * written.toNat) := by
  have bound := expected.toNat_lt
  have whole : expected.toNat / 100 * next.toNat ≤ expected.toNat / 100 * 100 :=
    Nat.mul_le_mul_left _ small
  have part : expected.toNat % 100 * next.toNat ≤ expected.toNat % 100 * 100 :=
    Nat.mul_le_mul_left _ small
  have fits : expected.toNat / 100 * next.toNat +
      (expected.toNat % 100 * next.toNat + 99) / 100 < 2 ^ 64 := by omega
  have same : (percentThreshold expected next).toNat =
      expected.toNat / 100 * next.toNat + (expected.toNat % 100 * next.toNat + 99) / 100 := by
    simp only [percentThreshold, UInt64.toNat_add, UInt64.toNat_mul, UInt64.toNat_div,
      UInt64.toNat_mod, UInt64.toNat_ofNat, UInt32.toNat_toUInt64, Nat.reducePow, Nat.reduceMod]
    omega
  refine ⟨fits, same, ?_⟩
  rw [UInt64.le_iff_toNat_le]
  have split : expected.toNat * next.toNat =
      100 * (expected.toNat / 100 * next.toNat) + expected.toNat % 100 * next.toNat := by
    conv_lhs => rw [← Nat.div_add_mod expected.toNat 100]
    ring
  omega

/-- The loop stops at the exact percentage when it starts at most there. -/
theorem raisePercent_exact {expected written : UInt64} {fuel : Nat} {percent : UInt32}
    (some : 0 < expected.toNat) (inside : written.toNat ≤ expected.toNat)
    (below : percent.toNat ≤ 100 * written.toNat / expected.toNat)
    (enough : 100 ≤ fuel + percent.toNat) :
    (raisePercent expected written fuel percent).toNat = 100 * written.toNat / expected.toNat := by
  have most : 100 * written.toNat / expected.toNat ≤ 100 := by
    apply Nat.div_le_of_le_mul
    rw [Nat.mul_comm]
    exact Nat.mul_le_mul_right 100 inside
  induction fuel generalizing percent with
  | zero =>
    rw [raisePercent]
    omega
  | succ fuel ih =>
    rw [raisePercent]
    by_cases more : percent < 100
    · have less : percent.toNat < 100 := UInt32.lt_iff_toNat_lt.mp more
      have next : (percent + 1).toNat = percent.toNat + 1 := by
        exact Nat.mod_eq_of_lt (by change percent.toNat + 1 < _; omega)
      have reached := (@percentThreshold_le expected written (percent + 1) (by omega)).2.2
      rw [if_pos more]
      by_cases short : written < percentThreshold expected (percent + 1)
      · have missed := mt reached.mpr (UInt64.not_le.mpr short)
        have limit : 100 * written.toNat / expected.toNat < percent.toNat + 1 := by
          rw [Nat.div_lt_iff_lt_mul some, Nat.mul_comm (percent.toNat + 1), ← next]
          omega
        rw [if_pos short]
        omega
      · have passed := reached.mp (UInt64.not_lt.mp short)
        rw [if_neg short]
        apply ih
        · rw [Nat.le_div_iff_mul_le some, Nat.mul_comm]
          exact passed
        · omega
    · have full := mt UInt32.lt_iff_toNat_lt.mpr more
      change ¬percent.toNat < 100 at full
      rw [if_neg more]
      omega

end Gizos.Loader
