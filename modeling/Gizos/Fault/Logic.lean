import Gizos.Fault.Timed

/-! # Rules for programs over a failing environment

`Ensures` is a weakest precondition with three postconditions: one for a returned value,
one for a result code and one for a reset. The last two are what makes it a logic of
crash points, since they speak about every place where a run can be cut.
-/
namespace Gizos.Fault

variable {ε σ τ α β : Type}

variable {admits : ε → Prop} {body first : Program ε σ α} {value : α} {next : α → Program ε σ β}
  {condition : Prop} {code : Int} {onReturn' : α → σ → Prop} {state : σ}

/-- What must hold of the state for each way a program can end. -/
def Outcome.Satisfies (onReturn : α → σ → Prop) (onFail : Int → σ → Prop)
    (onReset : σ → Prop) : Outcome σ α → Prop
  | .returned value state _ => onReturn value state
  | .failed code state _ => onFail code state
  | .stopped state => onReset state

/-- Started in `state`, and given only admitted answers, the program ends as required. -/
def Ensures (admits : ε → Prop) (body : Program ε σ α) (onReturn : α → σ → Prop)
    (onFail : Int → σ → Prop) (onReset : σ → Prop) (state : σ) : Prop :=
  ∀ answers : Nat → ε, (∀ index, admits (answers index)) → ∀ time,
    (body answers time state).Satisfies onReturn onFail onReset

/-- Started in `state`, and given only admitted answers, the program returns. -/
def Achieves (admits : ε → Prop) (body : Program ε σ α) (onReturn : α → σ → Prop)
    (state : σ) : Prop :=
  Ensures admits body onReturn (fun _ _ => False) (fun _ => False) state

/-- Started in `state`, and given only admitted answers, the program ends as required where it
returns. -/
abbrev Returns (admits : ε → Prop) (body : Program ε σ α) (onReturn : α → σ → Prop)
    (state : σ) : Prop :=
  Ensures admits body onReturn (fun _ _ => True) (fun _ => True) state

/-- Started in `state`, and given only admitted answers, the program ends as required wherever a run
of it ends. -/
abbrev Always (admits : ε → Prop) (body : Program ε σ α) (post : σ → Prop) (state : σ) : Prop :=
  Ensures admits body (fun _ => post) (fun _ => post) post state

/-- A run of the program leads from one state to another, at whatever point it ends. -/
def Reaches (admits : ε → Prop) (body : Program ε σ α) (before after : σ) : Prop :=
  ∃ answers : Nat → ε, (∀ index, admits (answers index)) ∧
    ∃ time, (body answers time before).state = after

/-- A run of the program returns a value and leads from one state to another. -/
def Yields (admits : ε → Prop) (body : Program ε σ α) (before : σ) (value : α) (after : σ) : Prop :=
  ∃ answers : Nat → ε, (∀ index, admits (answers index)) ∧
    ∃ time ended, body answers time before = .returned value after ended

/-- A run that returned yields its value and leads to its state. -/
theorem Yields.of_value {answers : Nat → ε} {time : Nat} {before : σ}
    (admitted : ∀ index, admits (answers index))
    (returned : (body answers time before).value = some value) :
    Yields admits body before value (body answers time before).state := by
  refine ⟨answers, admitted, time, ?_⟩
  cases outcome : body answers time before with
  | returned found after ended =>
    rw [outcome] at returned
    cases returned
    exact ⟨ended, rfl⟩
  | failed code after ended | stopped after => rw [outcome] at returned; cases returned

/-- One program after another ends where the first one does, or where the second leads from
there. -/
theorem Reaches.of_bind {answers : Nat → ε} {time : Nat} {before : σ}
    (admitted : ∀ index, admits (answers index)) :
    ((first >>= next) answers time before).state = (first answers time before).state ∨
      ∃ value, Reaches admits (next value) (first answers time before).state
        ((first >>= next) answers time before).state := by
  change (Program.andThen first next answers time before).state = _ ∨
    ∃ value, Reaches admits _ _ (Program.andThen first next answers time before).state
  unfold Program.andThen
  cases first answers time before with
  | failed code after ended | stopped after => exact .inl rfl
  | returned value after ended => exact .inr ⟨value, answers, admitted, ended, rfl⟩

/-! One given run ends in a state with a property. -/

section Run

open Program

variable {answers : Nat → ε} {time : Nat} {state : σ} {post : σ → Prop}

theorem state_require [Decidable condition] {next : Unit → Program ε σ β}
    (passed : condition → post (next () answers time state).state)
    (refused : ¬condition → post state) :
    post ((require condition code >>= next) answers time state).state := by
  change post (andThen (if condition then ret () else fail code) next answers time state).state
  by_cases holds : condition
  · rw [if_pos holds]
    exact passed holds
  · rw [if_neg holds]
    exact refused holds

theorem state_branch [Decidable condition] {left right : Program ε σ α}
    (whenTrue : condition → post (left answers time state).state)
    (whenFalse : ¬condition → post (right answers time state).state) :
    post ((if condition then left else right) answers time state).state := by
  split
  · exact whenTrue ‹_›
  · exact whenFalse ‹_›

theorem state_read {view : σ → α} (holds : post (next (view state) answers time state).state) :
    post ((read view >>= next) answers time state).state :=
  holds

theorem state_update {change : σ → σ} {next : Unit → Program ε σ β}
    (holds : post (next () answers time (change state)).state) :
    post ((update change >>= next) answers time state).state :=
  holds

end Run

namespace Ensures

variable {admits : ε → Prop} {onReturn : α → σ → Prop} {onFail : Int → σ → Prop}
  {onReset : σ → Prop} {state : σ}

section

variable (ensured : Ensures admits body onReturn onFail onReset state)

include ensured

/-- What holds of all runs holds of one. -/
theorem timed {answers : Nat → ε} {time : Nat} (admitted : ∀ index, admits (answers index)) :
    Timed answers body (fun value after _ => onReturn value after)
      (fun code after _ => onFail code after) onReset time state :=
  ensured answers admitted time

/-- Weaker postconditions are easier to ensure. -/
theorem mono {onFail' : Int → σ → Prop} {onReset' : σ → Prop}
    (returns : ∀ value state, onReturn value state → onReturn' value state)
    (fails : ∀ code state, onFail code state → onFail' code state)
    (resets : ∀ state, onReset state → onReset' state) :
    Ensures admits body onReturn' onFail' onReset' state :=
  fun _ admitted _ => (ensured.timed admitted).mono
    (fun value after _ => returns value after) (fun code after _ => fails code after) resets

/-- Weakens only what is known of a returned value. -/
theorem imp (returns : ∀ value state, onReturn value state → onReturn' value state) :
    Ensures admits body onReturn' onFail onReset state :=
  ensured.mono returns (fun _ _ => id) fun _ => id

/-- Keeps only what is known of a returned value. -/
theorem returns (returns : ∀ value state, onReturn value state → onReturn' value state) :
    Returns admits body onReturn' state :=
  ensured.mono returns (fun _ _ _ => trivial) fun _ _ => trivial

end

/-- Weakens what is known of every ending. -/
theorem weaken {post post' : σ → Prop} (always : Always admits body post state)
    (weaker : ∀ state, post state → post' state) : Always admits body post' state :=
  always.mono (fun _ => weaker) (fun _ => weaker) weaker

/-- What every ending ensures holds where a run leads. -/
theorem reached {post : σ → Prop} {after : σ} (ensured : Always admits body post state)
    (reaches : Reaches admits body state after) : post after := by
  obtain ⟨answers, admitted, time, rfl⟩ := reaches
  exact Timed.ended.mp (ensured.timed admitted)

/-- What a returned value ensures holds where a run returns it. -/
theorem yielded {after : σ} (ensured : Ensures admits body onReturn onFail onReset state)
    (yields : Yields admits body state value after) : onReturn value after := by
  obtain ⟨answers, admitted, time, ended, outcome⟩ := yields
  have ending := ensured answers admitted time
  rw [outcome] at ending
  exact ending

/-- Returning needs the postcondition of the value at once. -/
theorem ret (holds : onReturn value state) :
    Ensures admits (Program.ret value) onReturn onFail onReset state :=
  fun _ _ _ => holds

/-- Returning in monadic form. -/
theorem pure (holds : onReturn value state) :
    Ensures admits (Pure.pure value : Program ε σ α) onReturn onFail onReset state :=
  fun _ _ _ => holds

/-- Giving up needs the failure postcondition. -/
theorem fail (holds : onFail code state) :
    Ensures admits (Program.fail code : Program ε σ α) onReturn onFail onReset state :=
  fun _ _ _ => holds

/-- Reading hands out the view of the current state. -/
theorem read {view : σ → α} (holds : onReturn (view state) state) :
    Ensures admits (Program.read view) onReturn onFail onReset state :=
  fun _ _ _ => holds

/-- A change of state is what the next program sees. -/
theorem update {change : σ → σ} {onReturn : Unit → σ → Prop} (holds : onReturn () (change state)) :
    Ensures admits (Program.update change) onReturn onFail onReset state :=
  fun _ _ _ => holds

/-- A requirement splits into the case where it holds and the failure it reports. -/
theorem require {condition : Prop} [Decidable condition] {code : Int} {onReturn : Unit → σ → Prop}
    (met : condition → onReturn () state) (unmet : ¬condition → onFail code state) :
    Ensures admits (Program.require condition code) onReturn onFail onReset state := by
  unfold Program.require
  split
  · rename_i holds; exact ret (met holds)
  · rename_i fails; exact fail (unmet fails)

/-- Each branch is ensured under its condition. -/
theorem branch [Decidable condition] {left right : Program ε σ α}
    (holds : condition → Ensures admits left onReturn onFail onReset state)
    (fails : ¬condition → Ensures admits right onReturn onFail onReset state) :
    Ensures admits (if condition then left else right) onReturn onFail onReset state := by
  split
  · rename_i met
    exact holds met
  · rename_i unmet
    exact fails unmet

/-- A program under a condition is judged only when the condition holds. -/
theorem onlyIf {condition : Bool} {body : Program ε σ Unit} {onReturn : Unit → σ → Prop}
    (taken : condition = true → Ensures admits body onReturn onFail onReset state)
    (skipped : condition = false → onReturn () state) :
    Ensures admits (Program.onlyIf condition body) onReturn onFail onReset state := by
  cases condition with
  | true => exact taken rfl
  | false => exact ret (skipped rfl)

/-- Sequencing: the first program must establish what the second one needs. -/
theorem bind {onReturn : β → σ → Prop}
    (ensured : Ensures admits first
      (fun value state => Ensures admits (next value) onReturn onFail onReset state)
      onFail onReset state) :
    Ensures admits (first >>= next) onReturn onFail onReset state :=
  fun _ admitted _ => Timed.bind ((ensured.timed admitted).mono
    (fun _ _ _ later => later.timed admitted) (fun _ _ _ => id) fun _ => id)

/-- A call ends as its reply to some admitted answer says. -/
theorem call {reply : ε → σ → Reply σ α}
    (returns : ∀ answer value after, admits answer →
      reply answer state = .returns value after → onReturn value after)
    (fails : ∀ answer code after, admits answer →
      reply answer state = .fails code after → onFail code after)
    (resets : ∀ answer after, admits answer → reply answer state = .resets after → onReset after) :
    Ensures admits (Program.call reply) onReturn onFail onReset state := by
  intro answers admitted time
  unfold Program.call
  cases replied : reply (answers time) state with
  | returns value after => exact returns _ value after (admitted time) replied
  | fails code after => exact fails _ code after (admitted time) replied
  | resets after => exact resets _ after (admitted time) replied

/-- Attempting a program turns its failure into a value. -/
theorem attempt {onReturn : Except Int α → σ → Prop}
    (ensured : Ensures admits body (fun value => onReturn (.ok value))
      (fun code => onReturn (.error code)) onReset state) :
    Ensures admits body.attempt onReturn onFail onReset state :=
  fun _ admitted _ => Timed.attempt (ensured.timed admitted)

/-- A program run for its effect returns whether or not it failed. -/
theorem ignoring {body : Program ε σ α} {onReturn : Unit → σ → Prop}
    (ensured : Ensures admits body (fun _ => onReturn ()) (fun _ => onReturn ()) onReset state) :
    Ensures admits body.ignoring onReturn onFail onReset state :=
  fun _ admitted _ => Timed.ignoring (ensured.timed admitted)

/-- A recovery is run from every state in which the body gives up. -/
theorem recovering {recovery : Int → Program ε σ α}
    (ensured : Ensures admits body onReturn
      (fun code state => Ensures admits (recovery code) onReturn onFail onReset state)
      onReset state) :
    Ensures admits (body.recovering recovery) onReturn onFail onReset state :=
  bind (attempt (ensured.mono (fun _ _ holds => pure holds) (fun _ _ => id) fun _ => id))

/-- A cleanup sees every state in which the body ends, and the body's result stands. -/
theorem withCleanup {cleanup : Program ε σ Unit}
    (ensured : Ensures admits body
      (fun value state =>
      Ensures admits cleanup (fun _ => onReturn value) onFail onReset state)
      (fun code state =>
      Ensures admits cleanup (fun _ => onFail code) onFail onReset state)
      onReset state) :
    Ensures admits (body.withCleanup cleanup) onReturn onFail onReset state := by
  apply bind
  apply attempt
  refine ensured.mono ?_ ?_ fun _ => id
  · intro value after cleaned
    exact bind (cleaned.imp fun _ _ holds => ret holds)
  · intro code after cleaned
    exact bind (cleaned.imp fun _ _ holds => fail holds)

/-- A program on a component is judged by what it does to the whole state. -/
theorem on {part : Component σ τ} {body : Program ε τ α}
    (ensured : Ensures admits body (fun value after => onReturn value (part.set after state))
      (fun code after => onFail code (part.set after state))
      (fun after => onReset (part.set after state)) (part.get state)) :
    Ensures admits (body.on part) onReturn onFail onReset state :=
  fun _ admitted _ => Timed.on (ensured.timed admitted)

/-- Local variables are judged away: only the state behind them has to be as required. -/
theorem withLocals {locals : τ} {body : Program ε (τ × σ) α}
    (ensured : Ensures admits body (fun value after => onReturn value after.2)
      (fun code after => onFail code after.2) (fun after => onReset after.2) (locals, state)) :
    Ensures admits (body.withLocals locals) onReturn onFail onReset state := by
  intro answers admitted time
  have ending := ensured answers admitted time
  unfold Program.withLocals
  cases outcome : body answers time (locals, state)
  all_goals
    rw [outcome] at ending
    exact ending

/-- Two facts about one program hold together. -/
theorem and {onFail' : Int → σ → Prop} {onReset' : σ → Prop}
    (left : Ensures admits body onReturn onFail onReset state)
    (right : Ensures admits body onReturn' onFail' onReset' state) :
    Ensures admits body (fun value after => onReturn value after ∧ onReturn' value after)
      (fun code after => onFail code after ∧ onFail' code after)
      (fun after => onReset after ∧ onReset' after) state := by
  intro answers admitted time
  have first := left answers admitted time
  have second := right answers admitted time
  cases outcome : body answers time state
  all_goals
    rw [outcome] at first second
    exact ⟨first, second⟩

/-- What else is known of a returned value. -/
theorem also {onFail' : Int → σ → Prop} {onReset' : σ → Prop}
    (ensured : Ensures admits body onReturn onFail onReset state)
    (known : Ensures admits body onReturn' onFail' onReset' state) :
    Ensures admits body (fun value after => onReturn value after ∧ onReturn' value after) onFail
      onReset state :=
  (ensured.and known).mono (fun _ _ => id) (fun _ _ both => both.1) fun _ both => both.1

/-- Fewer admitted answers leave fewer endings. -/
theorem admitting {admits' : ε → Prop}
    (ensured : Ensures admits' body onReturn onFail onReset state)
    (narrower : ∀ answer, admits answer → admits' answer) :
    Ensures admits body onReturn onFail onReset state :=
  fun answers admitted time =>
    ensured answers (fun index => narrower _ (admitted index)) time

end Ensures

/-- A postcondition that holds everywhere needs nothing of the program. -/
theorem Ensures.trivially {onReturn : α → σ → Prop} {onFail : Int → σ → Prop} {onReset : σ → Prop}
    (returns : ∀ value after, onReturn value after) (fails : ∀ code after, onFail code after)
    (resets : ∀ after, onReset after) : Ensures admits body onReturn onFail onReset state := by
  intro answers _ time
  cases body answers time state with
  | returned value after _ => exact returns value after
  | failed code after _ => exact fails code after
  | stopped after => exact resets after

/-- Whatever comes before, only the last program has to establish a postcondition about
returning. -/
theorem Ensures.after {onReturn : β → σ → Prop}
    (last : ∀ value state, Returns admits (next value) onReturn state) :
    Returns admits (first >>= next) onReturn state :=
  .bind (.trivially last (fun _ _ => trivial) fun _ => trivial)

/-- A program that returns meets whatever is asked of its other endings. -/
theorem Achieves.ensures {onReturn : α → σ → Prop} {onFail : Int → σ → Prop} {onReset : σ → Prop}
    (achieved : Achieves admits body onReturn state) :
    Ensures admits body onReturn onFail onReset state :=
  .mono achieved (fun _ _ => id) (fun _ _ impossible => impossible.elim)
    fun _ impossible => impossible.elim

/-- A recovery has nothing to do after a program that returns. -/
theorem Achieves.recovering {recovery : Int → Program ε σ α} {onReturn : α → σ → Prop}
    (achieved : Achieves admits body onReturn state) :
    Achieves admits (body.recovering recovery) onReturn state :=
  Ensures.recovering achieved.ensures

end Gizos.Fault
