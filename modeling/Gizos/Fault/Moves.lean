import Gizos.Fault.Frame
import Mathlib.Logic.Relation

/-! # Programs that move by steps

`Moves` says that a program takes its state along a step relation, at every point where it can
end. A program is walked through once, with the guards of the steps it takes; every invariant of
the steps is then an invariant of the program.
-/
namespace Gizos.Fault

open Relation

variable {ε σ τ α β : Type}

variable {body : Program ε σ α}

/-- Started in `state`, the program ends in a state that steps lead to, and as required. -/
def Moves (admits : ε → Prop) (step : σ → σ → Prop) (body : Program ε σ α)
    (onReturn : α → σ → Prop) (onFail : Int → σ → Prop) (state : σ) : Prop :=
  Ensures admits body (fun value after => ReflTransGen step state after ∧ onReturn value after)
    (fun code after => ReflTransGen step state after ∧ onFail code after)
    (fun after => ReflTransGen step state after) state

namespace Moves

variable {admits : ε → Prop} {step : σ → σ → Prop} {onReturn : α → σ → Prop}
  {onFail : Int → σ → Prop} {state : σ}

theorem ret {value : α} (holds : onReturn value state) :
    Moves admits step (Program.ret value) onReturn onFail state :=
  Ensures.ret ⟨.refl, holds⟩

theorem pure {value : α} (holds : onReturn value state) :
    Moves admits step (Pure.pure value : Program ε σ α) onReturn onFail state :=
  Ensures.pure ⟨.refl, holds⟩

theorem fail {code : Int} (holds : onFail code state) :
    Moves admits step (Program.fail code : Program ε σ α) onReturn onFail state :=
  Ensures.fail ⟨.refl, holds⟩

theorem read {view : σ → α} (holds : onReturn (view state) state) :
    Moves admits step (Program.read view) onReturn onFail state :=
  Ensures.read ⟨.refl, holds⟩

/-- A change of state has to be a step. -/
theorem update {change : σ → σ} {onReturn : Unit → σ → Prop} (stepped : step state (change state))
    (holds : onReturn () (change state)) :
    Moves admits step (Program.update change) onReturn onFail state :=
  Ensures.update ⟨.single stepped, holds⟩

theorem require {condition : Prop} [Decidable condition] {code : Int} {onReturn : Unit → σ → Prop}
    (met : condition → onReturn () state) (unmet : ¬condition → onFail code state) :
    Moves admits step (Program.require condition code) onReturn onFail state :=
  Ensures.require (fun holds => ⟨.refl, met holds⟩) fun refused => ⟨.refl, unmet refused⟩

theorem onlyIf {condition : Bool} {body : Program ε σ Unit} {onReturn : Unit → σ → Prop}
    (taken : condition = true → Moves admits step body onReturn onFail state)
    (skipped : condition = false → onReturn () state) :
    Moves admits step (Program.onlyIf condition body) onReturn onFail state :=
  Ensures.onlyIf taken fun unmet => ⟨.refl, skipped unmet⟩

/-- Weaker postconditions are easier to meet. -/
theorem mono {onReturn' : α → σ → Prop} {onFail' : Int → σ → Prop}
    (moves : Moves admits step body onReturn onFail state)
    (returns : ∀ value after, onReturn value after → onReturn' value after)
    (fails : ∀ code after, onFail code after → onFail' code after) :
    Moves admits step body onReturn' onFail' state :=
  Ensures.mono moves (fun _ _ both => ⟨both.1, returns _ _ both.2⟩)
    (fun _ _ both => ⟨both.1, fails _ _ both.2⟩) fun _ => id

/-- What moves from a state that has been moved to has moved from the first state as well. -/
theorem prepend {start : σ} (moved : ReflTransGen step start state)
    (moves : Moves admits step body onReturn onFail state) :
    Ensures admits body (fun value after => ReflTransGen step start after ∧ onReturn value after)
      (fun code after => ReflTransGen step start after ∧ onFail code after)
      (fun after => ReflTransGen step start after) state :=
  .mono moves (fun _ _ both => ⟨moved.trans both.1, both.2⟩)
    (fun _ _ both => ⟨moved.trans both.1, both.2⟩) fun _ further => moved.trans further

/-- Sequencing moves on from where the first program ended. -/
theorem bind {first : Program ε σ α} {next : α → Program ε σ β} {onReturn : β → σ → Prop}
    (moves : Moves admits step first
      (fun value after => Moves admits step (next value) onReturn onFail after) onFail state) :
    Moves admits step (first >>= next) onReturn onFail state :=
  Ensures.bind (Ensures.mono moves (fun _ _ both => prepend both.1 both.2) (fun _ _ => id)
    fun _ => id)

theorem attempt {onReturn : Except Int α → σ → Prop}
    (moves : Moves admits step body (fun value => onReturn (.ok value))
      (fun code => onReturn (.error code)) state) :
    Moves admits step body.attempt onReturn onFail state :=
  Ensures.attempt moves

theorem ignoring {body : Program ε σ α} {onReturn : Unit → σ → Prop}
    (moves : Moves admits step body (fun _ => onReturn ()) (fun _ => onReturn ()) state) :
    Moves admits step body.ignoring onReturn onFail state :=
  Ensures.ignoring moves

/-- A recovery moves on from where the body gave up. -/
theorem recovering {recovery : Int → Program ε σ α}
    (moves : Moves admits step body onReturn
      (fun code after => Moves admits step (recovery code) onReturn onFail after) state) :
    Moves admits step (body.recovering recovery) onReturn onFail state :=
  Ensures.recovering (Ensures.mono moves (fun _ _ => id)
    (fun _ _ both => prepend both.1 both.2) fun _ => id)

/-- A program whose every ending is the state itself or one step away from it. -/
theorem single
    (ensured : Ensures admits body
      (fun value after => (after = state ∨ step state after) ∧ onReturn value after)
      (fun code after => (after = state ∨ step state after) ∧ onFail code after)
      (fun after => after = state ∨ step state after) state) :
    Moves admits step body onReturn onFail state := by
  have reached : ∀ after, after = state ∨ step state after → ReflTransGen step state after := by
    rintro after (rfl | stepped)
    · exact .refl
    · exact .single stepped
  exact Ensures.mono ensured (fun _ _ both => ⟨reached _ both.1, both.2⟩)
    (fun _ _ both => ⟨reached _ both.1, both.2⟩) fun _ once => reached _ once

/-- A program that leaves the whole state alone does not move. -/
theorem quiet (frame : Leaves id body) (returns : ∀ value, onReturn value state)
    (fails : ∀ code, onFail code state) :
    Moves admits step body onReturn onFail state :=
  Ensures.quiet frame (fun value => ⟨.refl, returns value⟩) (fun code => ⟨.refl, fails code⟩) .refl

/-- What a program leaves alone may be assumed in its postconditions. -/
theorem leaving {γ : Type} {view : σ → γ} (frame : Leaves view body)
    (moves : Moves admits step body (fun value after => view after = view state →
      onReturn value after)
      (fun code after => view after = view state → onFail code after) state) :
    Moves admits step body onReturn onFail state :=
  Ensures.leaving frame (Ensures.mono moves (fun _ _ both same => ⟨both.1, both.2 same⟩)
    (fun _ _ both same => ⟨both.1, both.2 same⟩) fun _ moved _ => moved)

/-- Steps taken by a component are steps of the whole state. -/
theorem on {part : Component σ τ} {body : Program ε τ α}
    (ensured : Ensures admits body
      (fun value after => (after = part.get state ∨ step state (part.set after state)) ∧
        onReturn value (part.set after state))
      (fun code after => (after = part.get state ∨ step state (part.set after state)) ∧
        onFail code (part.set after state))
      (fun after => after = part.get state ∨ step state (part.set after state))
      (part.get state)) :
    Moves admits step (body.on part) onReturn onFail state := by
  have whole : ∀ after, after = part.get state ∨ step state (part.set after state) →
      part.set after state = state ∨ step state (part.set after state) := by
    rintro after (rfl | stepped)
    · exact .inl (part.set_get state)
    · exact .inr stepped
  exact single (.on (.mono ensured (fun _ _ both => ⟨whole _ both.1, both.2⟩)
    (fun _ _ both => ⟨whole _ both.1, both.2⟩) fun _ once => whole _ once))

/-- A run of the program leads along steps. -/
theorem reached {after : σ} (moves : Moves admits step body onReturn onFail state)
    (reaches : Reaches admits body state after) : ReflTransGen step state after :=
  Ensures.reached (Ensures.mono moves (fun _ _ both => both.1) (fun _ _ both => both.1)
    fun _ => id) reaches

/-- What moves by steps that are paths of other steps moves by those. -/
theorem along {step' : σ → σ → Prop} (moves : Moves admits step body onReturn onFail state)
    (paths : ∀ before after, step before after → ReflTransGen step' before after) :
    Moves admits step' body onReturn onFail state := by
  have path : ∀ after, ReflTransGen step state after → ReflTransGen step' state after :=
    reflTransGen_closed paths state
  exact Ensures.mono moves (fun _ _ both => ⟨path _ both.1, both.2⟩)
    (fun _ _ both => ⟨path _ both.1, both.2⟩) path

end Moves

/-- An invariant of the steps holds wherever steps lead. -/
theorem holds_along {step : σ → σ → Prop} {kept : σ → Prop} {before after : σ}
    (closed : ∀ before after, kept before → step before after → kept after)
    (moved : ReflTransGen step before after) (holds : kept before) : kept after := by
  induction moved with
  | refl => exact holds
  | tail _ stepped ih => exact closed _ _ ih stepped

/-- The program moves by steps from wherever it is started. -/
def Wanders (admits : ε → Prop) (step : σ → σ → Prop) (body : Program ε σ α) : Prop :=
  ∀ state, Moves admits step body (fun _ _ => True) (fun _ _ => True) state

namespace Wanders

variable {admits : ε → Prop} {step : σ → σ → Prop} {next : α → Program ε σ β} {state : σ}

theorem moves {onReturn : α → σ → Prop} {onFail : Int → σ → Prop}
    (wanders : Wanders admits step body) (returns : ∀ value after, onReturn value after)
    (fails : ∀ code after, onFail code after) : Moves admits step body onReturn onFail state :=
  (wanders state).mono (fun value after _ => returns value after) fun code after _ =>
    fails code after

theorem pure (value : α) : Wanders admits step (Pure.pure value : Program ε σ α) :=
  fun _ => Moves.pure trivial

theorem fail (code : Int) : Wanders admits step (Program.fail code : Program ε σ α) :=
  fun _ => Moves.fail trivial

theorem bind {first : Program ε σ α} (head : Wanders admits step first)
    (tail : ∀ value, Wanders admits step (next value)) : Wanders admits step (first >>= next) :=
  fun _ => .bind (head.moves (fun value after => tail value after) fun _ _ => trivial)

/-- What follows a look at the state may rely on what was seen. -/
theorem reading {view : σ → α} (tail : ∀ state,
      Moves admits step (next (view state)) (fun _ _ => True) (fun _ _ => True) state) :
    Wanders admits step (Program.read view >>= next) := fun state => .bind (.read (tail state))

theorem update {change : σ → σ} (stepped : ∀ state, step state (change state)) :
    Wanders admits step (Program.update change) := fun state => .update (stepped state) trivial

theorem require (condition : Prop) [Decidable condition] (code : Int) :
    Wanders admits step (Program.require condition code) := fun _ =>
  .require (fun _ => trivial) fun _ => trivial

theorem onlyIf {condition : Bool} {body : Program ε σ Unit} (wanders : Wanders admits step body) :
    Wanders admits step (Program.onlyIf condition body) := fun state =>
  .onlyIf (fun _ => wanders state) fun _ => trivial

theorem attempt (wanders : Wanders admits step body) : Wanders admits step body.attempt :=
  fun state => .attempt (wanders state)

theorem conclude (result : Except Int α) :
    Wanders admits step (Program.conclude result : Program ε σ α) := by
  cases result with
  | ok value => exact .pure value
  | error code => exact .fail code

theorem ignoring (wanders : Wanders admits step body) : Wanders admits step body.ignoring :=
  fun state => .ignoring (wanders state)

theorem recovering {recovery : Int → Program ε σ α} (wanders : Wanders admits step body)
    (recovers : ∀ code, Wanders admits step (recovery code)) :
    Wanders admits step (body.recovering recovery) := fun _ =>
  .recovering (wanders.moves (fun _ _ => trivial) fun code after => recovers code after)

theorem branch {condition : Prop} [Decidable condition] {left right : Program ε σ α}
    (holds : condition → Wanders admits step left)
    (fails : ¬condition → Wanders admits step right) :
    Wanders admits step (if condition then left else right) := by
  split
  · rename_i met
    exact holds met
  · rename_i unmet
    exact fails unmet

end Wanders

end Gizos.Fault
