import Gizos.Pal.Answer

/-! # Preference transactions

A preference namespace is opened, written, committed and closed. Values that were set
become durable together when the commit takes effect, and a close that fails after it
makes the whole call fail although its change has happened.
-/
namespace Gizos.Pal

open Fault

variable {σ α : Type}

variable {γ : Type} {work : Routine σ α} {staging : Routine σ Unit} {change : σ → σ}
  {onReturn : Unit → σ → Prop}

/-- Closes a namespace and reports the close only when the work before it succeeded. -/
def closingAfter (work : Routine σ α) : Routine σ α := do
  let result ← work.attempt
  let closed ← (probe : Routine σ Unit).attempt
  match result, closed with
  | .ok value, .ok _ => pure value
  | .ok _, .error code => Program.fail code
  | .error code, _ => Program.fail code

/-- Opens a namespace, sets values through `staging`, commits `change` and closes. -/
def transaction (staging : Routine σ Unit) (change : σ → σ) : Routine σ Unit := do
  probe
  closingAfter do
    staging
    act change

/-- Opens a namespace, gets one value and closes. -/
def prefGet (view : σ → Option α) : Routine σ α := do
  probe
  closingAfter (lookup view)

theorem leaves_probe (view : σ → γ) : Leaves view (probe : Routine σ Unit) := by
  intro answers time state
  simp only [probe, act, Program.call, Answer.reply, id_eq, ite_self]
  cases (answers time).reset <;> by_cases good : (answers time).code = 0 <;>
    simp [good, Outcome.state]

theorem keeps_probe (invariant : σ → Prop) : Keeps invariant (probe : Routine σ Unit) :=
  keeps_act fun _ => id

theorem leaves_lookup (view : σ → γ) (look : σ → Option α) : Leaves view (lookup look) := by
  refine .bind (leaves_probe view) fun _ => .bind (.read look) fun found => ?_
  cases found with
  | none => exact .fail _
  | some value => exact .pure value

theorem keeps_closingAfter {invariant : σ → Prop} (kept : Keeps invariant work) :
    Keeps invariant (closingAfter work) := by
  refine .bind kept.attempt fun result =>
    .bind (keeps_probe invariant).attempt fun closed => ?_
  cases result <;> cases closed
  all_goals first | exact .fail _ | exact .pure _

theorem leaves_closingAfter {view : σ → γ} (frame : Leaves view work) :
    Leaves view (closingAfter work) :=
  .of_keeps fun seen => keeps_closingAfter (frame.keepsValue seen)

theorem keeps_transaction {invariant : σ → Prop} (staged : Keeps invariant staging)
    (kept : ∀ state, invariant state → invariant (change state)) :
    Keeps invariant (transaction staging change) :=
  .bind (keeps_probe invariant) fun _ => keeps_closingAfter <| .bind staged fun _ => keeps_act kept

section Rules

variable {admits : Answer → Prop} {onFail : Int → σ → Prop} {onReset : σ → Prop} {state : σ}

theorem probe_works {answers : Nat → Answer} (works : ∀ index, (answers index).Works)
    (time : Nat) (state : σ) : probe answers time state = .returned () state (time + 1) := by
  simp [probe, act, Program.call, Answer.reply, (works time).code, (works time).reset]

/-- A probe that comes back leaves the state to the next program. -/
theorem ensures_probe (returns : onReturn () state)
    (fails : ∀ code, Answer.Reports admits code → onFail code state) (resets : onReset state) :
    Ensures admits probe onReturn onFail onReset state :=
  ensures_act returns fails fails resets resets

theorem achieves_probe (returns : onReturn () state) : Achieves Answer.Works probe onReturn state :=
  achieves_act returns

theorem ensures_lookup {look : σ → Option α} {onReturn : α → σ → Prop}
    (returns : ∀ value, look state = some value → onReturn value state)
    (fails : ∀ code, (code = errNotFound ∧ look state = none) ∨ Answer.Reports admits code →
      onFail code state) (resets : onReset state) :
    Ensures admits (lookup look) onReturn onFail onReset state := by
  apply Ensures.bind
  refine ensures_probe ?_ (fun code reports => fails code (.inr reports)) resets
  apply Ensures.bind
  apply Ensures.read
  cases found : look state with
  | none => exact .fail (fails _ (.inl ⟨rfl, found⟩))
  | some value => exact .pure (returns value found)

theorem ensures_closingAfter {onReturn : α → σ → Prop}
    (ensured : Ensures admits work
      (fun value after => onReturn value after ∧
        (∀ code, Answer.Reports admits code → onFail code after) ∧
      onReset after)
      (fun code after => onFail code after ∧ onReset after) onReset state) :
    Ensures admits (closingAfter work) onReturn onFail onReset state := by
  apply Ensures.bind
  apply Ensures.attempt
  refine ensured.mono ?_ ?_ fun _ => id
  · rintro value after ⟨returns, fails, resets⟩
    apply Ensures.bind
    apply Ensures.attempt
    exact ensures_probe (.pure returns) (fun code bad => .fail (fails code bad)) resets
  · rintro code after ⟨fails, resets⟩
    apply Ensures.bind
    apply Ensures.attempt
    exact ensures_probe (.fail fails) (fun _ _ => .fail fails) resets

theorem achieves_closingAfter {onReturn : α → σ → Prop}
    (ensured : Achieves Answer.Works work onReturn state) :
    Achieves Answer.Works (closingAfter work) onReturn state := by
  apply Ensures.bind
  apply Ensures.attempt
  refine Achieves.ensures (ensured.imp fun value after returns => ?_)
  apply Ensures.bind
  apply Ensures.attempt
  exact Achieves.ensures (achieves_probe (.pure returns))

/-- A transaction is atomic: it ends in the old state or in the changed one, and in the
changed one when it succeeds. -/
theorem ensures_transaction (frame : Leaves id staging) (returns : onReturn () (change state))
    (failsBefore : ∀ code, onFail code state) (failsAfter : ∀ code, onFail code (change state))
    (resetsBefore : onReset state) (resetsAfter : onReset (change state)) :
    Ensures admits (transaction staging change) onReturn onFail onReset state := by
  apply Ensures.bind
  refine ensures_probe ?_ (fun code _ => failsBefore code) resetsBefore
  apply ensures_closingAfter
  apply Ensures.bind
  refine .quiet frame (fun _ => ?_) (fun code => ⟨failsBefore code, resetsBefore⟩) resetsBefore
  exact ensures_act ⟨returns, fun code _ => failsAfter code, resetsAfter⟩
    (fun code _ => ⟨failsBefore code, resetsBefore⟩)
    (fun code _ => ⟨failsAfter code, resetsAfter⟩) resetsBefore resetsAfter

theorem achieves_transaction
    (staged : Achieves Answer.Works staging (fun _ after => after = state) state)
    (returns : onReturn () (change state)) :
    Achieves Answer.Works (transaction staging change) onReturn state := by
  apply Ensures.bind
  apply achieves_probe
  apply achieves_closingAfter
  apply Ensures.bind
  refine staged.imp ?_
  rintro _ _ rfl
  exact achieves_act returns

theorem ensures_prefGet {look : σ → Option α} {onReturn : α → σ → Prop}
    (returns : ∀ value, look state = some value → onReturn value state)
    (fails : ∀ code, onFail code state) (resets : onReset state) :
    Ensures admits (prefGet look) onReturn onFail onReset state := by
  apply Ensures.bind
  refine ensures_probe ?_ (fun code _ => fails code) resets
  apply ensures_closingAfter
  exact ensures_lookup (fun value found => ⟨returns value found, fun code _ => fails code, resets⟩)
    (fun code _ => ⟨fails code, resets⟩) resets

end Rules

section Timed

variable {answers : Nat → Answer} {onFail : Int → σ → Nat → Prop} {onReset : σ → Prop}
  {time : Nat} {state : σ}

theorem timed_act {effect : σ → σ} {onReturn : Unit → σ → Nat → Prop}
    (returns : (answers time).code = 0 → onReturn () (effect state) (time + 1))
    (fails : (answers time).code ≠ 0 → onFail (answers time).code
      (if (answers time).applied then effect state else state) (time + 1))
    (resets : onReset state) (cut : onReset (effect state)) :
    Timed answers (act effect) onReturn onFail onReset time state := by
  unfold Timed act Program.call
  by_cases reset : (answers time).reset = true <;> by_cases good : (answers time).code = 0 <;>
    by_cases applied : (answers time).applied = true <;>
    simp_all [Answer.reply, Answer.effective, Outcome.Meets]

theorem timed_probe {onReturn : Unit → σ → Nat → Prop}
    (returns : (answers time).code = 0 → onReturn () state (time + 1))
    (fails : (answers time).code ≠ 0 → onFail (answers time).code state (time + 1))
    (resets : onReset state) : Timed answers probe onReturn onFail onReset time state :=
  timed_act returns (fun bad => by simpa using fails bad) resets resets

/-- A transaction in one run: it has taken effect when the open, the value and the commit have
come back, whatever the close says. -/
theorem timed_transaction {onReturn : Unit → σ → Nat → Prop}
    (atomic : (answers (time + 2)).code ≠ 0 → (answers (time + 2)).applied = false)
    (returns : (∀ index, time ≤ index → index ≤ time + 3 → (answers index).code = 0) →
      onReturn () (change state) (time + 4))
    (fails : ∀ code ended, (∃ index, time ≤ index ∧ index ≤ time + 2 ∧ (answers index).code ≠ 0) →
      onFail code state ended)
    (unclosed : ∀ code, (∀ index, time ≤ index → index ≤ time + 2 → (answers index).code = 0) →
      (answers (time + 3)).code ≠ 0 → onFail code (change state) (time + 4)) :
    Timed answers (transaction probe change) onReturn onFail (fun _ => True) time state := by
  -- The close changes nothing, and reports only when the work before it succeeded.
  have close : ∀ code ended, (∃ index, time ≤ index ∧ index ≤ time + 2 ∧
      (answers index).code ≠ 0) → Timed answers
      ((probe : Routine σ Unit).attempt >>= fun _ => (Program.fail code : Routine σ Unit)) onReturn
      onFail (fun _ => True) ended state := fun code ended bad =>
    .bind (.attempt (timed_probe (fun _ => .fail (fails code _ bad))
      (fun _ => .fail (fails code _ bad)) trivial))
  apply Timed.bind
  refine timed_probe (fun opened => ?_) (fun bad => fails _ _ ⟨time, by omega, by omega, bad⟩)
    trivial
  apply Timed.bind
  apply Timed.attempt
  apply Timed.bind
  refine timed_probe (fun staged => ?_)
    (fun bad => close _ _ ⟨time + 1, by omega, by omega, bad⟩) trivial
  refine timed_act (fun committed => ?_) (fun bad => ?_) trivial trivial
  · have good : ∀ index, time ≤ index → index ≤ time + 2 → (answers index).code = 0 := by
      intro index low high
      obtain rfl | rfl | rfl : index = time ∨ index = time + 1 ∨ index = time + 2 := by omega
      all_goals assumption
    apply Timed.bind
    apply Timed.attempt
    refine timed_probe (fun closed => returns fun index low high => ?_)
      (fun bad => unclosed _ good bad) trivial
    by_cases last : index = time + 3
    · subst last
      exact closed
    · exact good index low (by omega)
  · have unapplied := atomic bad
    simp only [unapplied, Bool.false_eq_true, if_false]
    exact close _ _ ⟨time + 2, by omega, by omega, bad⟩

end Timed

end Gizos.Pal
