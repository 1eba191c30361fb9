import Mathlib

/-! # Programs over an environment that may fail or reset

A program calls an environment. Each call consumes the environment's next answer,
which decides whether the call works, reports a result code, damages what it was
writing, or never returns because the device reset. The answers are one fixed
sequence, so a statement about every sequence is a statement about every failure
point and every reset point. State that a reset loses is kept by the program's state
type as well; it is the caller's business to start it afresh.
-/
namespace Gizos.Fault

/-- How a program ends: with a value, with a result code, or stopped by a reset. -/
inductive Outcome (σ α : Type) where
  /-- The program returned a value; `time` is the index of the next answer. -/
  | returned (value : α) (state : σ) (time : Nat)
  /-- The program gave up with a result code. -/
  | failed (code : Int) (state : σ) (time : Nat)
  /-- The device reset inside a call. -/
  | stopped (state : σ)
deriving Repr, DecidableEq

/-- What one call does to the state, and whether it comes back. -/
inductive Reply (σ α : Type) where
  | returns (value : α) (state : σ)
  /-- The call returns a result code. -/
  | fails (code : Int) (state : σ)
  /-- The device resets before the call returns. -/
  | resets (state : σ)
deriving Repr, DecidableEq

/-- A program over answers `ε` and state `σ`. -/
def Program (ε σ α : Type) : Type := (Nat → ε) → Nat → σ → Outcome σ α

/-- A view of one component of a larger state, with the laws that make it one. -/
structure Component (σ τ : Type) where
  /-- Reads the component. -/
  get : σ → τ
  /-- Replaces the component. -/
  set : τ → σ → σ
  /-- A component reads back as it was set. -/
  get_set : ∀ part state, get (set part state) = part
  /-- Setting what is already there changes nothing. -/
  set_get : ∀ state, set (get state) state = state
  /-- Only the last setting remains. -/
  set_set : ∀ last first state, set last (set first state) = set last state

/-- The first of two components. -/
def Component.fst {σ τ : Type} : Component (σ × τ) σ where
  get := Prod.fst
  set part state := (part, state.2)
  get_set _ _ := rfl
  set_get _ := rfl
  set_set _ _ _ := rfl

/-- The second of two components. -/
def Component.snd {σ τ : Type} : Component (σ × τ) τ where
  get := Prod.snd
  set part state := (state.1, part)
  get_set _ _ := rfl
  set_get _ := rfl
  set_set _ _ _ := rfl

namespace Outcome

variable {σ τ α : Type}

/-- The state a program leaves, however it ended. -/
def state : Outcome σ α → σ
  | returned _ state _ => state
  | failed _ state _ => state
  | stopped state => state

/-- The result code of a program that failed. -/
def failure : Outcome σ α → Option Int
  | failed code _ _ => some code
  | _ => none

/-- The value of a program that returned. -/
def value : Outcome σ α → Option α
  | returned value _ _ => some value
  | _ => none

/-- Reads an outcome over a component as one over the larger state. -/
def within (part : Component σ τ) (whole : σ) : Outcome τ α → Outcome σ α
  | returned value state time => returned value (part.set state whole) time
  | failed code state time => failed code (part.set state whole) time
  | stopped state => stopped (part.set state whole)

/-- Forgets the local variables of an outcome. -/
def global : Outcome (τ × σ) α → Outcome σ α
  | returned value state time => returned value state.2 time
  | failed code state time => failed code state.2 time
  | stopped state => stopped state.2

end Outcome

namespace Program

variable {ε σ τ α β : Type}

/-- Returns a value without calling the environment. -/
def ret (value : α) : Program ε σ α := fun _ time state => .returned value state time

/-- Runs a program and hands its value to the next one. -/
def andThen (first : Program ε σ α) (next : α → Program ε σ β) : Program ε σ β :=
  fun answers time state =>
    match first answers time state with
    | .returned value state time => next value answers time state
    | .failed code state time => .failed code state time
    | .stopped state => .stopped state

instance : Monad (Program ε σ) where
  pure := ret
  bind := andThen

instance : LawfulMonad (Program ε σ) := by
  refine LawfulMonad.mk' (Program ε σ) ?_ (fun _ _ => rfl) ?_
  · intro α body
    funext answers time state
    change andThen body ret answers time state = _
    unfold andThen
    cases body answers time state <;> rfl
  · intro α β γ first next last
    funext answers time state
    change andThen (andThen first next) last answers time state =
      andThen first (fun value => andThen (next value) last) answers time state
    unfold andThen
    cases first answers time state <;> rfl

/-- Gives up with a result code. -/
def fail (code : Int) : Program ε σ α := fun _ time state => .failed code state time

/-- Gives up with a result code unless a condition holds. -/
def require (condition : Prop) [Decidable condition] (code : Int) : Program ε σ Unit :=
  if condition then ret () else fail code

/-- Reads a value off the state. -/
def read (view : σ → α) : Program ε σ α := fun _ time state => .returned (view state) state time

/-- Changes the state without calling the environment. -/
def update (change : σ → σ) : Program ε σ Unit :=
  fun _ time state => .returned () (change state) time

/-- One call of the environment. -/
def call (reply : ε → σ → Reply σ α) : Program ε σ α := fun answers time state =>
  match reply (answers time) state with
  | .returns value state => .returned value state (time + 1)
  | .fails code state => .failed code state (time + 1)
  | .resets state => .stopped state

/-- Runs a program and returns its result code as a value in place of giving up. -/
def attempt (body : Program ε σ α) : Program ε σ (Except Int α) := fun answers time state =>
  match body answers time state with
  | .returned value state time => .returned (.ok value) state time
  | .failed code state time => .returned (.error code) state time
  | .stopped state => .stopped state

/-- Runs a program on one component of the state. -/
def on (part : Component σ τ) (body : Program ε τ α) : Program ε σ α :=
  fun answers time state => (body answers time (part.get state)).within part state

/-- Runs a program with local variables of its own, which start as `locals`. -/
def withLocals (locals : τ) (body : Program ε (τ × σ) α) : Program ε σ α :=
  fun answers time state => (body answers time (locals, state)).global

/-- Runs a program for its effect and drops its result, as a cast to `void` does. -/
def ignoring (body : Program ε σ α) : Program ε σ Unit :=
  andThen (attempt body) fun _ => ret ()

/-- Runs a program only under a condition. -/
def onlyIf (condition : Bool) (body : Program ε σ Unit) : Program ε σ Unit :=
  if condition then body else ret ()

/-- Turns a result back into the way a program ends. -/
def conclude : Except Int α → Program ε σ α
  | .ok value => ret value
  | .error code => fail code

/-- Runs a program, and `cleanup` after it whether or not it gave up; the body's result
stands. -/
def withCleanup (body : Program ε σ α) (cleanup : Program ε σ Unit) : Program ε σ α :=
  andThen (attempt body) fun result => andThen cleanup fun _ => conclude result

/-- Runs `recovery` when a program gives up with a code, in its place. -/
def recovering (body : Program ε σ α) (recovery : Int → Program ε σ α) : Program ε σ α :=
  andThen (attempt body) fun result =>
    match result with
    | .ok value => ret value
    | .error code => recovery code

end Program

end Gizos.Fault
