import Gizos.Fault.Logic

/-! # What programs keep

`Keeps` says that a program preserves a predicate of the state at every point where it can end,
and `Leaves` that it does not change a view of the state. A view that is left alone is a
predicate that is kept for each value of the view, so the rules of the second come from those of
the first.
-/
namespace Gizos.Fault

variable {ε σ τ α β γ : Type}

variable {body : Program ε σ α} {next : α → Program ε σ β} {admits : ε → Prop} {state : σ}
  {onReturn : α → σ → Prop}

/-- The program preserves a predicate, however it ends. -/
def Keeps (invariant : σ → Prop) (body : Program ε σ α) : Prop :=
  ∀ answers time state, invariant state → invariant (body answers time state).state

/-- The program leaves a view of the state as it found it, however it ends. -/
def Leaves (view : σ → γ) (body : Program ε σ α) : Prop :=
  ∀ answers time state, view (body answers time state).state = view state

namespace Keeps

variable {invariant : σ → Prop}

/-- A predicate is kept if it holds at every ending wherever it holds at the start. -/
theorem of_ensures (all : ∀ answer, admits answer)
    (ensured : ∀ state, invariant state → Always admits body invariant state) :
    Keeps invariant body := fun answers _ state holds =>
  Timed.ended.mp ((ensured state holds).timed fun index => all (answers index))

/-- A predicate that is kept holds at every ending. -/
theorem ensures (kept : Keeps invariant body) (holds : invariant state) :
    Always admits body invariant state :=
  fun answers _ time => Timed.ended.mpr (kept answers time state holds)

theorem ret (value : α) : Keeps invariant (Program.ret value : Program ε σ α) :=
  fun _ _ _ => id

theorem pure (value : α) : Keeps invariant (Pure.pure value : Program ε σ α) :=
  fun _ _ _ => id

theorem fail (code : Int) : Keeps invariant (Program.fail code : Program ε σ α) :=
  fun _ _ _ => id

theorem read (look : σ → α) : Keeps invariant (Program.read look : Program ε σ α) :=
  fun _ _ _ => id

theorem require (condition : Prop) [Decidable condition] (code : Int) :
    Keeps invariant (Program.require condition code : Program ε σ Unit) := by
  unfold Program.require
  split
  · exact ret ()
  · exact fail code

theorem onlyIf {condition : Bool} {body : Program ε σ Unit}
    (kept : condition = true → Keeps invariant body) :
    Keeps invariant (Program.onlyIf condition body) := by
  cases condition with
  | true => exact kept rfl
  | false => exact ret ()

theorem update {change : σ → σ} (kept : ∀ state, invariant state → invariant (change state)) :
    Keeps invariant (Program.update change : Program ε σ Unit) :=
  fun _ _ state holds => kept state holds

/-- Sequencing keeps what both programs keep. -/
theorem bind {first : Program ε σ α} (head : Keeps invariant first)
    (tail : ∀ value, Keeps invariant (next value)) : Keeps invariant (first >>= next) :=
  of_ensures (fun _ => trivial) fun _ holds =>
    .bind ((head.ensures holds).imp fun value _ kept => (tail value).ensures kept)

theorem attempt (kept : Keeps invariant body) : Keeps invariant body.attempt :=
  of_ensures (fun _ => trivial) fun _ holds => .attempt (kept.ensures holds)

theorem conclude (result : Except Int α) :
    Keeps invariant (Program.conclude result : Program ε σ α) := by
  cases result with
  | ok value => exact ret value
  | error code => exact fail code

/-- What follows a conclusion may rest on it. -/
theorem bindConclude {result : Except Int α}
    (kept : ∀ value, result = .ok value → Keeps invariant (next value)) :
    Keeps invariant (Program.conclude result >>= next) := by
  cases result with
  | ok value => exact kept value rfl
  | error code => exact fail code

theorem ignoring (kept : Keeps invariant body) : Keeps invariant body.ignoring :=
  bind kept.attempt fun _ => ret ()

theorem withCleanup {cleanup : Program ε σ Unit} (kept : Keeps invariant body)
    (cleaned : Keeps invariant cleanup) :
    Keeps invariant (body.withCleanup cleanup) :=
  bind kept.attempt fun result => bind cleaned fun _ => conclude result

theorem recovering {recovery : Int → Program ε σ α} (kept : Keeps invariant body)
    (recovered : ∀ code, Keeps invariant (recovery code)) :
    Keeps invariant (body.recovering recovery) := by
  refine bind kept.attempt fun result => ?_
  cases result with
  | ok value => exact ret value
  | error code => exact recovered code

/-- A program on a component keeps what its body keeps of the whole, the rest being fixed. -/
theorem onPart {part : Component σ τ} {body : Program ε τ α}
    (kept : ∀ whole, Keeps (fun inner => invariant (part.set inner whole)) body) :
    Keeps invariant (body.on part) := by
  refine of_ensures (fun _ => trivial) fun state holds => .on ((kept state).ensures ?_)
  rw [part.set_get state]
  exact holds

theorem branch {condition : Prop} [Decidable condition] {left right : Program ε σ α}
    (holds : condition → Keeps invariant left) (fails : ¬condition → Keeps invariant right) :
    Keeps invariant (if condition then left else right) := by
  split
  · rename_i met
    exact holds met
  · rename_i unmet
    exact fails unmet

/-- A predicate that is kept holds beside what a program comes to. -/
theorem beside (kept : Keeps invariant body) (holds : invariant state)
    (ensured : Returns admits body onReturn state) :
    Returns admits body (fun value after => onReturn value after ∧ invariant after) state :=
  (ensured.and (kept.ensures holds)).returns fun _ _ => id

end Keeps

namespace Leaves

variable {view : σ → γ}

/-- A view is left alone when each of its values is kept. -/
theorem of_keeps (kept : ∀ seen, Keeps (fun state => view state = seen) body) : Leaves view body :=
  fun answers time state => kept (view state) answers time state rfl

/-- A predicate of a view that is left alone is kept. -/
theorem keeps {invariant : σ → Prop} (frame : Leaves view body)
    (seen : ∀ before after, view after = view before → invariant before → invariant after) :
    Keeps invariant body :=
  fun answers time state holds => seen state _ (frame answers time state) holds

/-- Everything is kept when the whole state is left alone. -/
theorem keepsAny {invariant : σ → Prop} (frame : Leaves id body) : Keeps invariant body := by
  refine frame.keeps ?_
  rintro before after rfl holds
  exact holds

/-- The value of a view that is left alone is kept. -/
theorem keepsValue (frame : Leaves view body) (seen : γ) :
    Keeps (fun state => view state = seen) body :=
  frame.keeps fun _ _ same holds => same.trans holds

theorem ret (value : α) : Leaves view (Program.ret value : Program ε σ α) :=
  fun _ _ _ => rfl

theorem pure (value : α) : Leaves view (Pure.pure value : Program ε σ α) :=
  fun _ _ _ => rfl

theorem fail (code : Int) : Leaves view (Program.fail code : Program ε σ α) :=
  fun _ _ _ => rfl

theorem read (look : σ → α) : Leaves view (Program.read look : Program ε σ α) :=
  fun _ _ _ => rfl

theorem require (condition : Prop) [Decidable condition] (code : Int) :
    Leaves view (Program.require condition code : Program ε σ Unit) :=
  of_keeps fun _ => .require condition code

theorem onlyIf {condition : Bool} {body : Program ε σ Unit} (frame : Leaves view body) :
    Leaves view (Program.onlyIf condition body) :=
  of_keeps fun seen => .onlyIf fun _ => frame.keepsValue seen

theorem update {change : σ → σ} (same : ∀ state, view (change state) = view state) :
    Leaves view (Program.update change : Program ε σ Unit) :=
  fun _ _ state => same state

/-- Sequencing keeps a frame. -/
theorem bind {first : Program ε σ α} (head : Leaves view first)
    (tail : ∀ value, Leaves view (next value)) : Leaves view (first >>= next) :=
  of_keeps fun seen => .bind (head.keepsValue seen) fun value => (tail value).keepsValue seen

theorem attempt (frame : Leaves view body) : Leaves view body.attempt :=
  of_keeps fun seen => (frame.keepsValue seen).attempt

theorem conclude (result : Except Int α) : Leaves view (Program.conclude result : Program ε σ α) :=
  of_keeps fun _ => .conclude result

theorem ignoring (frame : Leaves view body) : Leaves view body.ignoring :=
  of_keeps fun seen => (frame.keepsValue seen).ignoring

theorem withCleanup {cleanup : Program ε σ Unit} (frame : Leaves view body)
    (cleaned : Leaves view cleanup) :
    Leaves view (body.withCleanup cleanup) :=
  of_keeps fun seen => (frame.keepsValue seen).withCleanup (cleaned.keepsValue seen)

theorem recovering {recovery : Int → Program ε σ α} (frame : Leaves view body)
    (recovered : ∀ code, Leaves view (recovery code)) :
    Leaves view (body.recovering recovery) :=
  of_keeps fun seen => (frame.keepsValue seen).recovering fun code =>
    (recovered code).keepsValue seen

/-- A program on a component leaves every view that the component's replacement leaves. -/
theorem on {part : Component σ τ} {body : Program ε τ α}
    (same : ∀ after state, view (part.set after state) = view state) :
    Leaves view (body.on part) := by
  intro answers time state
  unfold Program.on
  cases body answers time (part.get state) <;> exact same _ _

/-- A coarser view of what is left alone is left alone. -/
theorem comp {δ : Type} (frame : Leaves view body) (coarser : γ → δ) :
    Leaves (fun state => coarser (view state)) body :=
  fun answers time state => congrArg coarser (frame answers time state)

end Leaves

/-- What a program leaves alone may be assumed in each of its postconditions. -/
theorem Ensures.leaving {onFail : Int → σ → Prop} {onReset : σ → Prop} {view : σ → γ}
    (frame : Leaves view body)
    (ensured : Ensures admits body
      (fun value after => view after = view state → onReturn value after)
      (fun code after => view after = view state → onFail code after)
      (fun after => view after = view state → onReset after) state) :
    Ensures admits body onReturn onFail onReset state :=
  (ensured.and ((frame.keepsValue (view state)).ensures rfl)).mono
    (fun _ _ both => both.1 both.2) (fun _ _ both => both.1 both.2) fun _ both => both.1 both.2

/-- A program that leaves the whole state alone only has to be judged by its results. -/
theorem Ensures.quiet {onFail : Int → σ → Prop} {onReset : σ → Prop} (frame : Leaves id body)
    (returns : ∀ value, onReturn value state) (fails : ∀ code, onFail code state)
    (resets : onReset state) : Ensures admits body onReturn onFail onReset state := by
  refine .leaving frame fun answers _ time => ?_
  cases body answers time state with
  | returned value after time' => rintro rfl; exact returns value
  | failed code after time' => rintro rfl; exact fails code
  | stopped after => rintro rfl; exact resets

end Gizos.Fault
