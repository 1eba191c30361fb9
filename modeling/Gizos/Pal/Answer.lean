import Gizos.Fault.Frame
import Gizos.Codec

/-! # Platform calls

Result codes of the platform layer, and what the platform may do at one call. An answer
fixes the result code, whether the call took effect when it did not succeed, how far a
transfer got, what a failing flash write left behind, and whether the device reset inside
the call. A call that reports success has taken effect, except for flash writers, whose
contents are judged only by reading them back.
-/
namespace Gizos.Pal

open Fault

/-- `H2_PAL_OK`. -/
def ok : Int := 0
/-- `H2_PAL_ERR_INVALID_ARG`. -/
def errInvalidArg : Int := -1
/-- `H2_PAL_ERR_UNSUPPORTED`. -/
def errUnsupported : Int := -3
/-- `H2_PAL_ERR_IO`. -/
def errIo : Int := -4
/-- `H2_PAL_ERR_NO_MEMORY`. -/
def errNoMemory : Int := -5
/-- `H2_PAL_ERR_INVALID_STATE`. -/
def errInvalidState : Int := -7
/-- `H2_PAL_ERR_NOT_FOUND`. -/
def errNotFound : Int := -8
/-- `H2_PAL_ERR_NO_SPACE`. -/
def errNoSpace : Int := -13
/-- `H2_PAL_ERR_FORMAT`. -/
def errFormat : Int := -15
/-- `H2_PAL_ERR_TRUNCATED`. -/
def errTruncated : Int := -16

/-- What the platform does at one call. The default answer is a call that works. -/
structure Answer where
  /-- The result code the call reports. -/
  code : Int := 0
  /-- Whether a call that does not succeed took effect all the same. -/
  applied : Bool := false
  /-- How many bytes of a transfer go through, when not all do. -/
  short : Option Nat := none
  /-- What a flash write leaves in its partition, when not what was written. -/
  damage : Option Bytes := none
  /-- Whether the device resets before the call returns. -/
  reset : Bool := false
deriving Repr, DecidableEq

instance : Inhabited Answer := ⟨{}⟩

namespace Answer

/-- The call works: it succeeds, with neither damage nor a reset. Short transfers are
still allowed. -/
structure Works (answer : Answer) : Prop where
  code : answer.code = 0
  damage : answer.damage = none
  short : ∀ count, answer.short = some count → 0 < count
  reset : answer.reset = false

/-- Every answer is possible. -/
def Any (_ : Answer) : Prop := True

/-- The platform reports `NOT_FOUND` for nothing that is there: a lookup finds out by itself what
is not. -/
def Honest (answer : Answer) : Prop := answer.code ≠ errNotFound

/-- A result code other than success that some admitted answer reports. -/
def Reports (admits : Answer → Prop) (code : Int) : Prop :=
  code ≠ 0 ∧ ∃ answer, admits answer ∧ answer.code = code

theorem not_reports_honest : ¬Reports Honest errNotFound :=
  fun ⟨_, _, honest, same⟩ => honest same

theorem default_works : Works {} :=
  ⟨rfl, rfl, by simp, rfl⟩

/-- The call has its effect: it succeeds, or it fails or is cut after the effect. -/
def effective (answer : Answer) : Bool :=
  (answer.code = 0 && !answer.reset) || answer.applied

/-- The reply of a call that takes its state from `before` to `after` in one durable step. -/
def reply {σ α : Type} (answer : Answer) (value : α) (before after : σ) : Reply σ α :=
  let state := if answer.effective then after else before
  if answer.reset then .resets state
  else if answer.code = 0 then .returns value state
  else .fails answer.code state

theorem Works.reply {σ α : Type} {answer : Answer} (works : answer.Works) (value : α)
    (before after : σ) : answer.reply value before after = .returns value after := by
  simp [Answer.reply, Answer.effective, works.code, works.reset]

end Answer

/-- Answers of a platform that works until a call, in which the device resets. -/
def resetAt (time index : Nat) : Answer := if index = time then { reset := true } else {}

theorem resetAt_honest (time index : Nat) : (resetAt time index).Honest := by
  unfold resetAt Answer.Honest
  split <;> decide

/-- A program of platform calls. -/
abbrev Routine (σ α : Type) : Type := Program Answer σ α

variable {σ α : Type}

/-- A call with one atomic effect on the state. -/
def act (effect : σ → σ) : Routine σ Unit :=
  Program.call fun answer state => answer.reply () state (effect state)

/-- A call without durable effect. -/
def probe : Routine σ Unit := act id

/-- A lookup, which reports `NOT_FOUND` for what is not there. -/
def lookup (view : σ → Option α) : Routine σ α := do
  probe
  match ← Program.read view with
  | some value => pure value
  | none => Program.fail errNotFound

variable {admits : Answer → Prop} {onFail : Int → σ → Prop} {onReset : σ → Prop} {state : σ}

/-- An atomic call leaves the state before it or the state after it, and the latter when it
succeeds. -/
theorem ensures_act {effect : σ → σ} {onReturn : Unit → σ → Prop}
    (returns : onReturn () (effect state))
    (failsBefore : ∀ code, Answer.Reports admits code → onFail code state)
    (failsAfter : ∀ code, Answer.Reports admits code → onFail code (effect state))
    (resetsBefore : onReset state) (resetsAfter : onReset (effect state)) :
    Ensures admits (act effect) onReturn onFail onReset state := by
  have reported : ∀ answer : Answer, admits answer → answer.code ≠ 0 →
      Answer.Reports admits answer.code := fun answer admitted bad => ⟨bad, answer, admitted, rfl⟩
  apply Ensures.call
  all_goals
    intro answer
    cases resets : answer.reset <;> by_cases good : answer.code = 0 <;>
      cases applied : answer.applied <;>
      simp_all [Answer.reply, Answer.effective]

theorem keeps_act {effect : σ → σ} {invariant : σ → Prop}
    (kept : ∀ state, invariant state → invariant (effect state)) :
    Keeps invariant (act effect) := by
  intro answers time state holds
  unfold act Program.call Answer.reply
  dsimp only
  split_ifs
  all_goals first | exact kept state holds | exact holds

theorem achieves_act {effect : σ → σ} {onReturn : Unit → σ → Prop}
    (returns : onReturn () (effect state)) :
    Achieves Answer.Works (act effect) onReturn state := by
  apply Ensures.call
  · intro answer value after works returned
    rw [works.reply] at returned
    cases returned
    exact returns
  · intro answer code after works failed
    rw [works.reply] at failed
    cases failed
  · intro answer after works stopped
    rw [works.reply] at stopped
    cases stopped

end Gizos.Pal
