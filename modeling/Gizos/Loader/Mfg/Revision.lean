import Gizos.Loader.Mfg.Read

/-! # Acceptance revisions over whole histories

A product re-qualifies its manufacturing record with a revision and a step count. Over any
sequence of such calls, cut by failures and resets anywhere, a passed step is always one
that was passed before: under the same revision and total, or in the prefix inherited from
the exact predecessor the call names.
-/
namespace Gizos.Loader

open Fault Pal Codec

/-- The summary the stored blob decodes to. -/
def storedSummary (pref : Preferences) : Option MfgSummary := pref.mfg.bind mfgRecordDecode

/-- The stored record is this summary, under this revision, if there is one. -/
def StandsUnder (pref : Preferences) (revision : Option Nat) (summary : MfgSummary) : Prop :=
  pref.mfgAcceptanceRevision = revision ∧ storedSummary pref = some summary

/-- One of the two re-qualification calls. -/
inductive RevisionCall where
  /-- `h2_loader_mfg_ensure_acceptance_revision`. -/
  | acceptance (total revision : Nat)
  /-- `h2_loader_mfg_ensure_appended_revision`. -/
  | appended (total revision previousTotal previousRevision : Nat)
deriving Repr, DecidableEq

namespace RevisionCall

/-- The step count a call asks for. -/
def total : RevisionCall → Nat
  | acceptance total _ => total
  | appended total _ _ _ => total

/-- The revision a call asks for. -/
def revision : RevisionCall → Nat
  | acceptance _ revision => revision
  | appended _ revision _ _ => revision

/-- The call itself. -/
def run : RevisionCall → Routine Preferences Unit
  | acceptance total revision => mfgEnsureAcceptanceRevision total revision
  | appended total revision previousTotal previousRevision =>
    mfgEnsureAppendedRevision total revision previousTotal previousRevision

/-- A passed step of the record under `revision` was passed before the call: in a record of
the same revision and total, or in the prefix of the predecessor the call names. -/
inductive Inherits (before : Preferences) (index : Nat) :
    Option Nat → Nat → RevisionCall → Prop where
  /-- The record already stood under this revision and total. -/
  | same {call : RevisionCall} {revision : Option Nat} {total : Nat} (old : MfgSummary)
    (stands : StandsUnder before revision old) (totals : old.total = total)
    (passed : old.step index = mfgStepPassed) : Inherits before index revision total call
  /-- The step lies in the inherited prefix of the named predecessor. -/
  | predecessor {total revision previousTotal previousRevision : Nat} (old : MfgSummary)
    (stands : StandsUnder before (some previousRevision) old) (totals : old.total = previousTotal)
    (inside : index < previousTotal) (passed : old.step index = mfgStepPassed) :
    Inherits before index (some revision) total
      (.appended total revision previousTotal previousRevision)

/-- Every passed step after the call, however it ended, is inherited. -/
def Justified (call : RevisionCall) (before after : Preferences) : Prop :=
  ∀ revision summary index, StandsUnder after revision summary →
    summary.step index = mfgStepPassed → Inherits before index revision summary.total call

/-- What a successful call establishes: the requested revision and total, and, past an
inherited prefix, only untested steps. -/
def Requalified (call : RevisionCall) (before after : Preferences) : Prop :=
  ∃ summary, StandsUnder after (some call.revision) summary ∧ summary.total = call.total ∧
    match call with
    | acceptance _ _ => True
    | appended total _ previousTotal previousRevision =>
      ∀ old, StandsUnder before (some previousRevision) old → ∀ index, previousTotal ≤ index →
        index < total → summary.step index = mfgStepUntested

end RevisionCall

open RevisionCall

/-- The stored record, if any, has no passed step. -/
def NonePassed (pref : Preferences) : Prop :=
  ∀ summary, storedSummary pref = some summary → ∀ index, summary.step index ≠ mfgStepPassed

theorem justified_refl (call : RevisionCall) (pref : Preferences) : call.Justified pref pref :=
  fun _ summary _ stands passed => .same summary stands rfl passed

theorem NonePassed.justified {after : Preferences} (none : NonePassed after) (call : RevisionCall)
    (before : Preferences) : call.Justified before after :=
  fun _ summary index stands passed => (none summary stands.2 index passed).elim

theorem storedSummary_withMfg {summary : MfgSummary} (valid : mfgSummaryValidate summary = true)
    (positive : summary.total ≠ 0) (revision : Option Nat) (pref : Preferences) :
    storedSummary (pref.withMfg summary revision) = some summary :=
  mfgRecordDecode_encode valid positive

theorem mfgUntested_step (total index : Nat) :
    (mfgUntested total).step index = mfgStepUntested := by
  by_cases inside : index < mfgStepMax
  · rw [mfgUntested, MfgSummary.ofSteps_step inside]
    rfl
  · have outside : (mfgUntested total).stepStatus.length ≤ index := by
      rw [(mfgUntested total).length_eq]
      omega
    simp [MfgSummary.step, List.getElem?_eq_none outside]

theorem nonePassed_untested {pref : Preferences} {total : Nat}
    (stored : storedSummary pref = some (mfgUntested total)) : NonePassed pref := by
  intro summary found index
  cases stored.symm.trans found
  rw [mfgUntested_step]
  decide

variable {admits : Answer → Prop} {onFail : Int → Preferences → Prop}
  {onReset : Preferences → Prop} {pref : Preferences}

theorem ensures_mfgStoredUnder {revision total : Nat}
    {onReturn : Option MfgSummary → Preferences → Prop} (absent : onReturn none pref)
    (found : ∀ summary, StandsUnder pref (some revision) summary → summary.total = total →
      onReturn (some summary) pref)
    (fails : ∀ code, onFail code pref) (resets : onReset pref) :
    Ensures admits (mfgStoredUnder revision total) onReturn onFail onReset pref := by
  apply Ensures.bind
  apply Ensures.attempt
  refine ensures_prefGet (fun stored current => ?_) (fun code => ?_) resets
  · dsimp only
    split
    · exact .pure absent
    rename_i same
    obtain rfl : stored = revision := by simpa using same
    apply Ensures.bind
    apply Ensures.attempt
    refine ensures_mfgRecordLoad ?_ ?_ (fun blob summary held decoded => ?_) (fun code => ?_) resets
    · exact .pure absent
    · exact .pure absent
    · dsimp only
      split
      · rename_i totals
        exact .pure (found summary ⟨current, by simp [storedSummary, held, decoded]⟩ totals)
      · exact .pure absent
    · dsimp only
      split
      · exact .pure absent
      · exact .fail (fails code)
  · dsimp only
    split
    · exact .pure absent
    · exact .fail (fails code)

theorem ensures_mfgSetRevision {revision : Nat} {onReturn : Unit → Preferences → Prop}
    (returns : onReturn () { pref with mfgAcceptanceRevision := some revision })
    (failsBefore : ∀ code, onFail code pref)
    (failsAfter : ∀ code, onFail code { pref with mfgAcceptanceRevision := some revision })
    (resetsBefore : onReset pref)
    (resetsAfter : onReset { pref with mfgAcceptanceRevision := some revision }) :
    Ensures admits (mfgSetRevision revision) onReturn onFail onReset pref :=
  ensures_transaction (leaves_probe id) returns failsBefore failsAfter resetsBefore resetsAfter

/-- A reset leaves the old store or an untested record, and the revision is only then set. -/
theorem ensures_mfgEnsureAcceptanceRevision (total revision : Nat) :
    Ensures admits (mfgEnsureAcceptanceRevision total revision)
      (fun _ after => ∃ summary, StandsUnder after (some revision) summary ∧ summary.total = total ∧
        (after = pref ∨ summary = mfgUntested total))
      (fun _ after => after = pref ∨ NonePassed after)
      (fun after => after = pref ∨ NonePassed after) pref := by
  apply Ensures.bind
  refine .require (fun accepted => ?_) fun _ => .inl rfl
  obtain ⟨positive, bound, -⟩ := accepted
  have valid := MfgSummary.untested_valid bound
  have cleared := storedSummary_withMfg valid positive none pref
  have clean : NonePassed (pref.withMfg (mfgUntested total) none) := nonePassed_untested cleared
  have recorded := storedSummary_withMfg valid positive (some revision) pref
  apply Ensures.bind
  refine ensures_mfgStoredUnder ?_ (fun summary stands totals => ?_) (fun _ => .inl rfl) (.inl rfl)
  · apply Ensures.bind
    unfold mfgReset mfgWrite
    refine ensures_mfgRecordStore (fun _ _ => ?_) (fun _ => .inl rfl) (fun _ _ _ => .inr clean)
      (.inl rfl) fun _ _ => .inr clean
    have after := nonePassed_untested recorded
    refine ensures_mfgSetRevision ?_ (fun _ => .inr clean) (fun _ => .inr after) (.inr clean)
      (.inr after)
    exact ⟨mfgUntested total, ⟨rfl, recorded⟩, rfl, .inr rfl⟩
  · exact .pure ⟨summary, stands, totals, .inl rfl⟩

/-- The old store and an untested one are both justified. -/
theorem justified_of_kept_or_clean {call : RevisionCall} {before after : Preferences}
    (kept : after = before ∨ NonePassed after) : call.Justified before after := by
  obtain rfl | clean := kept
  · exact justified_refl _ _
  · exact clean.justified _ _

theorem StandsUnder.step_untested {revision : Option Nat} {index : Nat} {summary : MfgSummary}
    (stands : StandsUnder pref revision summary) (beyond : summary.total ≤ index) :
    summary.step index = mfgStepUntested := by
  obtain ⟨-, stored⟩ := stands
  obtain ⟨blob, -, decoded⟩ := Option.bind_eq_some_iff.mp stored
  have slots := ((MfgSummary.validate_iff _).mp (mfgRecordDecode_valid decoded).1).2
  by_cases inside : index < mfgStepMax
  · exact (slots index inside).2 beyond
  · simp [MfgSummary.step, List.getElem?_eq_none
      (show summary.stepStatus.length ≤ index by rw [summary.length_eq]; omega)]

/-- Two records under one store are one record. -/
theorem StandsUnder.unique {left right : Option Nat} {first second : MfgSummary}
    (one : StandsUnder pref left first) (other : StandsUnder pref right second) :
    left = right ∧ first = second :=
  ⟨one.1.symm.trans other.1, Option.some.inj (one.2.symm.trans other.2)⟩

/-- Expanding the predecessor's record inherits exactly its passed steps. -/
theorem justified_expanded {total revision previousTotal previousRevision : Nat}
    {stored : MfgSummary} (stands : StandsUnder pref (some previousRevision) stored)
    (totals : stored.total = previousTotal)
    (valid : mfgSummaryValidate { stored with total := total } = true) (positive : total ≠ 0) :
    (appended total revision previousTotal previousRevision).Justified pref
      (pref.withMfg { stored with total := total } (some revision)) := by
  intro found summary index under passed
  have expanded : StandsUnder (pref.withMfg { stored with total := total } (some revision))
      (some revision) { stored with total := total } :=
    ⟨rfl, storedSummary_withMfg valid positive _ _⟩
  obtain ⟨rfl, rfl⟩ := expanded.unique under
  have inside : index < previousTotal := by
    by_contra beyond
    have untested := stands.step_untested (show stored.total ≤ index by omega)
    rw [show stored.step index = mfgStepPassed from passed] at untested
    exact absurd untested (by decide)
  exact .predecessor stored stands totals inside passed

/-- One call, however it ends, only inherits passed steps; and when it succeeds it has
established what it was asked for. -/
theorem ensures_revisionCall (call : RevisionCall) (pref : Preferences) :
    Ensures Answer.Any call.run
      (fun _ after => call.Requalified pref after ∧ call.Justified pref after)
      (fun _ after => call.Justified pref after) (fun after => call.Justified pref after) pref := by
  cases call with
  | acceptance total revision =>
    refine (ensures_mfgEnsureAcceptanceRevision total revision).mono ?_
      (fun _ _ kept => justified_of_kept_or_clean kept) fun _ kept =>
        justified_of_kept_or_clean kept
    rintro - after ⟨summary, stands, totals, kept⟩
    refine ⟨⟨summary, stands, totals, trivial⟩, justified_of_kept_or_clean (kept.imp_right ?_)⟩
    rintro rfl
    exact nonePassed_untested stands.2
  | appended total revision previousTotal previousRevision =>
    apply Ensures.bind
    refine .require (fun accepted => ?_) fun _ => justified_refl _ _
    apply Ensures.bind
    refine ensures_mfgStoredUnder ?_ (fun stored stands totals => ?_) (fun _ => justified_refl _ _)
      (justified_refl _ _)
    · refine (ensures_mfgEnsureAcceptanceRevision total revision).mono ?_
        (fun _ _ kept => justified_of_kept_or_clean kept)
        fun _ kept => justified_of_kept_or_clean kept
      rintro - after ⟨summary, under, sameTotal, kept⟩
      refine ⟨⟨summary, under, sameTotal, ?_⟩, justified_of_kept_or_clean (kept.imp_right ?_)⟩
      · intro old predecessor index _ _
        obtain rfl | rfl := kept
        · -- A record kept under the requested revision is not the predecessor's.
          have clash := Option.some.inj (predecessor.unique under).1
          omega
        · exact mfgUntested_step total index
      · rintro rfl
        exact nonePassed_untested under.2
    · refine ensures_mfgRecordStore (fun valid positive => ?_) (fun _ => justified_refl _ _)
        (fun _ valid positive => justified_expanded stands totals valid positive)
        (justified_refl _ _) fun valid positive => justified_expanded stands totals valid positive
      refine ⟨⟨_, ⟨rfl, storedSummary_withMfg valid positive _ _⟩, rfl, ?_⟩,
        justified_expanded stands totals valid positive⟩
      intro old predecessor index beyond _
      exact stands.step_untested (by omega)

/-- One call of a history: the store it started from and how it ended. -/
structure RevisionStep where
  call : RevisionCall
  /-- The store before it. -/
  before : Preferences
  /-- How it ended. -/
  outcome : Outcome Preferences Unit

/-- Runs calls one after the other, each with the platform's answers to it, and each from the
store the one before left, whether that one succeeded, failed or was cut by a reset. -/
def revisionHistory : Preferences → List (RevisionCall × (Nat → Answer)) → List RevisionStep
  | _, [] => []
  | pref, (call, answers) :: rest =>
    let outcome := call.run answers 0 pref
    ⟨call, pref, outcome⟩ :: revisionHistory outcome.state rest

/-- The store at the end of a history. -/
def revisionEnd (start : Preferences) (script : List (RevisionCall × (Nat → Answer))) :
    Preferences :=
  script.foldl (fun pref call => (call.1.run call.2 0 pref).state) start

/-- A passed step of one store was passed, at its own index, in another. -/
def TracesTo (start pref : Preferences) : Prop :=
  ∀ summary index, storedSummary pref = some summary → summary.step index = mfgStepPassed →
    ∃ old, storedSummary start = some old ∧ old.step index = mfgStepPassed

theorem revisionStep_sound (call : RevisionCall) (answers : Nat → Answer) (pref : Preferences) :
    call.Justified pref (call.run answers 0 pref).state ∧
      ∀ after time, call.run answers 0 pref = .returned () after time →
        call.Requalified pref after := by
  have ending := ensures_revisionCall call pref answers (fun _ => trivial) 0
  cases outcome : call.run answers 0 pref with
  | returned value after time =>
    rw [outcome] at ending
    refine ⟨ending.2, ?_⟩
    rintro _ _ ⟨⟩
    exact ending.1
  | failed code after time | stopped after =>
    rw [outcome] at ending; exact ⟨ending, fun _ _ => nofun⟩

theorem RevisionCall.Inherits.passed_before {call : RevisionCall} {before : Preferences}
    {revision : Option Nat} {total index : Nat}
    (inherited : Inherits before index revision total call) :
    ∃ old, storedSummary before = some old ∧ old.step index = mfgStepPassed := by
  cases inherited with
  | same old stands _ was | predecessor old stands _ _ was => exact ⟨old, stands.2, was⟩

/-- Over every history of re-qualification calls with arbitrary failures and resets: each
call only leaves passed steps that it inherits, each successful call has established the
requested revision and total with every appended step untested, and each step that is passed
at the end was passed at the start. -/
theorem revisionHistory_sound (start : Preferences)
    (script : List (RevisionCall × (Nat → Answer))) :
    (∀ step ∈ revisionHistory start script,
      step.call.Justified step.before step.outcome.state ∧
        ∀ after time, step.outcome = .returned () after time →
          step.call.Requalified step.before after) ∧
      TracesTo start (revisionEnd start script) := by
  induction script generalizing start with
  | nil =>
    exact ⟨by simp [revisionHistory], fun summary _ stored passed => ⟨summary, stored, passed⟩⟩
  | cons entry rest ih =>
    obtain ⟨call, answers⟩ := entry
    have sound := revisionStep_sound call answers start
    obtain ⟨later, traced⟩ := ih (call.run answers 0 start).state
    constructor
    · intro step member
      obtain rfl | member := List.mem_cons.mp member
      · exact sound
      · exact later step member
    · intro summary index stored passed
      obtain ⟨middle, held, was⟩ := traced summary index stored passed
      exact (sound.1 _ middle index ⟨rfl, held⟩ was).passed_before

/-- A nine-step product qualified under revision one and then extended by one step. -/
def appendScript : List (RevisionCall × (Nat → Answer)) :=
  [(.acceptance 9 1, fun _ => {}), (.appended 10 2 9 1, fun _ => {})]

/-- On an empty store both calls of the extension succeed, so both have what they asked for. -/
theorem appendScript_sound :
    (revisionHistory {} appendScript).length = 2 ∧
      ∀ step ∈ revisionHistory {} appendScript,
        ∃ after, step.outcome.state = after ∧ step.call.Requalified step.before after := by
  refine ⟨rfl, fun step member => ?_⟩
  have sound := (revisionHistory_sound {} appendScript).1 step member
  have returns : ∀ step ∈ revisionHistory {} appendScript, ∃ after time,
      step.outcome = .returned () after time := by
    intro step member
    simp only [revisionHistory, appendScript, List.mem_cons, List.not_mem_nil, or_false] at member
    obtain rfl | rfl := member
    · exact ⟨_, _, rfl⟩
    · exact ⟨_, _, rfl⟩
  obtain ⟨after, time, returned⟩ := returns step member
  exact ⟨after, by rw [returned]; rfl, sound.2 after time returned⟩

end Gizos.Loader
