import Gizos.Fault.Program

/-! # Rules for one run

One run is judged by how it ends, with the number of the call it has come to. What is said about all
runs under answers of one kind is said about each of them.
-/
namespace Gizos.Fault

variable {ε σ τ α β : Type}

variable {body : Program ε σ α}

/-- What must hold of the state, and of the next call, for each way a program can end. -/
def Outcome.Meets (onReturn : α → σ → Nat → Prop) (onFail : Int → σ → Nat → Prop)
    (onReset : σ → Prop) : Outcome σ α → Prop
  | .returned value state time => onReturn value state time
  | .failed code state time => onFail code state time
  | .stopped state => onReset state

/-- The run from `state` whose next call is number `time` ends as required. -/
def Timed (answers : Nat → ε) (body : Program ε σ α) (onReturn : α → σ → Nat → Prop)
    (onFail : Int → σ → Nat → Prop) (onReset : σ → Prop) (time : Nat) (state : σ) : Prop :=
  (body answers time state).Meets onReturn onFail onReset

/-- A program after one that returned runs from where that one has come to. -/
theorem Program.bind_returned {first : Program ε σ α} {next : α → Program ε σ β}
    {answers : Nat → ε} {time ended : Nat} {state after : σ} {value : α}
    (returned : first answers time state = .returned value after ended) :
    (first >>= next) answers time state = next value answers ended after := by
  change first.andThen next answers time state = _
  unfold Program.andThen
  rw [returned]

namespace Timed

variable {answers : Nat → ε} {onReturn : α → σ → Nat → Prop} {onFail : Int → σ → Nat → Prop}
  {onReset : σ → Prop} {time : Nat} {state : σ}

/-- Weaker postconditions are easier to meet. -/
theorem mono {onReturn' : α → σ → Nat → Prop} {onFail' : Int → σ → Nat → Prop}
    {onReset' : σ → Prop} (met : Timed answers body onReturn onFail onReset time state)
    (returns : ∀ value after ended, onReturn value after ended → onReturn' value after ended)
    (fails : ∀ code after ended, onFail code after ended → onFail' code after ended)
    (resets : ∀ after, onReset after → onReset' after) :
    Timed answers body onReturn' onFail' onReset' time state := by
  unfold Timed at met ⊢
  cases outcome : body answers time state with
  | returned value after ended => rw [outcome] at met; exact returns value after ended met
  | failed code after ended => rw [outcome] at met; exact fails code after ended met
  | stopped after => rw [outcome] at met; exact resets after met

/-- What a failure meets holds where the run fails. -/
theorem failed {code : Int} {after : σ} {ended : Nat}
    (met : Timed answers body onReturn onFail onReset time state)
    (outcome : body answers time state = .failed code after ended) : onFail code after ended := by
  unfold Timed at met
  rw [outcome] at met
  exact met

/-- What every ending meets holds of the state the run leaves. -/
theorem ended {post : σ → Prop} :
    Timed answers body (fun _ after _ => post after) (fun _ after _ => post after) post time state ↔
      post (body answers time state).state := by
  unfold Timed
  cases body answers time state <;> rfl

/-- A postcondition may speak about the run itself. -/
theorem known (met : Timed answers body onReturn onFail onReset time state) :
    Timed answers body (fun value after ended => onReturn value after ended ∧
      body answers time state = .returned value after ended) onFail onReset time state := by
  unfold Timed at met ⊢
  cases outcome : body answers time state with
  | returned value after ended => rw [outcome] at met; exact ⟨met, rfl⟩
  | failed code after ended | stopped after => rw [outcome] at met; exact met

theorem pure {value : α} (holds : onReturn value state time) :
    Timed answers (Pure.pure value : Program ε σ α) onReturn onFail onReset time state :=
  holds

theorem fail {code : Int} (holds : onFail code state time) :
    Timed answers (Program.fail code : Program ε σ α) onReturn onFail onReset time state :=
  holds

theorem read {view : σ → α} (holds : onReturn (view state) state time) :
    Timed answers (Program.read view) onReturn onFail onReset time state :=
  holds

/-- A program under a condition is judged only when the condition holds. -/
theorem onlyIf {condition : Bool} {body : Program ε σ Unit} {onReturn : Unit → σ → Nat → Prop}
    (taken : condition = true → Timed answers body onReturn onFail onReset time state)
    (skipped : condition = false → onReturn () state time) :
    Timed answers (Program.onlyIf condition body) onReturn onFail onReset time state := by
  cases condition with
  | true => exact taken rfl
  | false => exact skipped rfl

/-- Sequencing: the second program runs from the call the first one has come to. -/
theorem bind {first : Program ε σ α} {next : α → Program ε σ β} {onReturn : β → σ → Nat → Prop}
    (met : Timed answers first
      (fun value after ended => Timed answers (next value) onReturn onFail onReset ended after)
      onFail onReset time state) :
    Timed answers (first >>= next) onReturn onFail onReset time state := by
  change (first.andThen next answers time state).Meets _ _ _
  unfold Timed at met
  unfold Program.andThen
  cases outcome : first answers time state
  all_goals
    rw [outcome] at met
    exact met

/-- Attempting a program turns its failure into a value. -/
theorem attempt {onReturn : Except Int α → σ → Nat → Prop}
    (met : Timed answers body (fun value => onReturn (.ok value))
      (fun code => onReturn (.error code)) onReset time state) :
    Timed answers body.attempt onReturn onFail onReset time state := by
  unfold Timed at met ⊢
  unfold Program.attempt
  cases outcome : body answers time state
  all_goals
    rw [outcome] at met
    exact met

/-- A program run for its effect returns whether or not it failed. -/
theorem ignoring {onReturn : Unit → σ → Nat → Prop}
    (met : Timed answers body (fun _ => onReturn ()) (fun _ => onReturn ()) onReset time state) :
    Timed answers body.ignoring onReturn onFail onReset time state :=
  bind (attempt (met.mono (fun _ _ _ holds => pure holds) (fun _ _ _ holds => pure holds)
    fun _ => id))

/-- A recovery is run from every state in which the body gives up. -/
theorem recovering {recovery : Int → Program ε σ α}
    (met : Timed answers body onReturn
      (fun code after ended => Timed answers (recovery code) onReturn onFail onReset ended after)
      onReset time state) :
    Timed answers (body.recovering recovery) onReturn onFail onReset time state :=
  bind (attempt (met.mono (fun _ _ _ holds => pure holds) (fun _ _ _ => id) fun _ => id))

/-- A program on a component is judged by what it does to the whole state. -/
theorem on {part : Component σ τ} {body : Program ε τ α}
    (met : Timed answers body (fun value after => onReturn value (part.set after state))
      (fun code after => onFail code (part.set after state))
      (fun after => onReset (part.set after state)) time (part.get state)) :
    Timed answers (body.on part) onReturn onFail onReset time state := by
  unfold Timed at met ⊢
  unfold Program.on
  cases outcome : body answers time (part.get state)
  all_goals
    rw [outcome] at met
    exact met

end Timed

end Gizos.Fault
