import Gizos.Fault.Frame

/-! # Programs with local variables

A program that keeps local variables beside its state is judged by a precondition and a
postcondition of the variables, and by an invariant of the state, which it keeps at every point
where it can end.
-/
namespace Gizos.Fault

variable {ε τ σ α β : Type}

variable {body : Program ε (τ × σ) α}

/-- From variables as required, the program keeps the invariant however it ends, and where it
returns, the variables are as promised. -/
def Guards (invariant : σ → Prop) (pre : τ → Prop) (body : Program ε (τ × σ) α)
    (post : α → τ → Prop) : Prop :=
  ∀ locals state, pre locals → invariant state →
    Ensures (fun _ => True) body (fun value after => post value after.1 ∧ invariant after.2)
      (fun _ after => invariant after.2) (fun after => invariant after.2) (locals, state)

namespace Guards

variable {invariant : σ → Prop} {pre : τ → Prop} {post : α → τ → Prop}

theorem mono {pre' : τ → Prop} {post' : α → τ → Prop} (guarded : Guards invariant pre body post)
    (weaker : ∀ locals, pre' locals → pre locals)
    (promised : ∀ value locals, post value locals → post' value locals) :
    Guards invariant pre' body post' := fun locals state required holds =>
  (guarded locals state (weaker locals required) holds).imp fun value after ended =>
    ⟨promised value after.1 ended.1, ended.2⟩

theorem pure {value : α} (promised : ∀ locals, pre locals → post value locals) :
    Guards invariant pre (Pure.pure value : Program ε (τ × σ) α) post :=
  fun locals _ required holds => .pure ⟨promised locals required, holds⟩

theorem fail (code : Int) : Guards invariant pre (Program.fail code : Program ε (τ × σ) α) post :=
  fun _ _ _ holds => .fail holds

/-- Sequencing: the first program establishes what the second one needs. -/
theorem bind {first : Program ε (τ × σ) α} {next : α → Program ε (τ × σ) β}
    {between : α → τ → Prop} {post : β → τ → Prop} (guarded : Guards invariant pre first between)
    (later : ∀ value, Guards invariant (between value) (next value) post) :
    Guards invariant pre (first >>= next) post := fun locals state required holds =>
  .bind ((guarded locals state required holds).imp fun value after ended =>
    later value after.1 after.2 ended.1 ended.2)

/-- Variables that are read are as the precondition says. -/
theorem bindLocals {next : τ → Program ε (τ × σ) β} {post : β → τ → Prop}
    (later : ∀ value, pre value → Guards invariant pre (next value) post) :
    Guards invariant pre (Program.read Prod.fst >>= next) post :=
  fun locals state required holds => .bind (.read
    (later locals required locals state required holds))

/-- Variables that are read are what was read. -/
theorem bindExact {next : τ → Program ε (τ × σ) β} {post : β → τ → Prop}
    (later : ∀ value, pre value → Guards invariant (fun locals => locals = value) (next value)
      post) :
    Guards invariant pre (Program.read Prod.fst >>= next) post :=
  fun locals state required holds => .bind (.read (later locals required locals state rfl holds))

/-- What follows a requirement may rest on it. -/
theorem bindRequire {condition : Prop} [Decidable condition] {code : Int}
    {next : Unit → Program ε (τ × σ) β} {post : β → τ → Prop}
    (later : condition → Guards invariant pre (next ()) post) :
    Guards invariant pre (Program.require condition code >>= next) post :=
  fun locals state required holds => .bind (.require
    (fun met => later met locals state required holds) fun _ => holds)

/-- What follows a conclusion may rest on it. -/
theorem bindConclude {result : Except Int α} {next : α → Program ε (τ × σ) β} {post : β → τ → Prop}
    (later : ∀ value, result = .ok value → Guards invariant pre (next value) post) :
    Guards invariant pre (Program.conclude result >>= next) post := by
  cases result with
  | ok value => exact later value rfl
  | error code => exact fail code

theorem assign {change : τ → τ} {post : Unit → τ → Prop}
    (promised : ∀ locals, pre locals → post () (change locals)) :
    Guards invariant pre
      (Program.update fun state : τ × σ => (change state.1, state.2) : Program ε (τ × σ) Unit)
      post := fun locals _ required holds => .update ⟨promised locals required, holds⟩

theorem require {condition : Prop} [Decidable condition] {code : Int} :
    Guards invariant pre (Program.require condition code : Program ε (τ × σ) Unit) fun _ => pre :=
  fun _ _ required holds => .require (fun _ => ⟨required, holds⟩) fun _ => holds

theorem onlyIf {condition : Bool} {body : Program ε (τ × σ) Unit}
    (taken : condition = true → Guards invariant pre body fun _ => pre) :
    Guards invariant pre (Program.onlyIf condition body) fun _ => pre := by
  cases condition with
  | true => exact taken rfl
  | false => exact fun _ _ required holds => .ret ⟨required, holds⟩

/-- A program on the state leaves the variables alone. -/
theorem onState {body : Program ε σ α} (kept : Keeps invariant body) :
    Guards invariant pre (body.on .snd) fun _ => pre := fun _ _ required holds =>
  .on ((kept.ensures holds).mono (fun _ _ holds => ⟨required, holds⟩) (fun _ _ => id) fun _ => id)

theorem recovering {recovery : Int → Program ε (τ × σ) α} (guarded : Guards invariant pre body post)
    (recovered : ∀ code, Guards invariant (fun _ => True) (recovery code) post) :
    Guards invariant pre (body.recovering recovery) post := fun locals state required holds =>
  .recovering ((guarded locals state required holds).mono (fun _ _ => id)
    (fun code after holds => recovered code after.1 after.2 trivial holds) fun _ => id)

theorem ignoring (guarded : Guards invariant (fun _ => True) body fun _ _ => True) :
    Guards invariant (fun _ => True) body.ignoring fun _ _ => True := fun locals state _ holds =>
  .ignoring ((guarded locals state trivial holds).mono (fun _ _ => id)
    (fun _ _ holds => ⟨trivial, holds⟩) fun _ => id)

/-- A cleanup of the variables after a program, however it ended. -/
theorem withCleanup {cleanup : Program ε (τ × σ) Unit} {between : α → τ → Prop}
    (guarded : Guards invariant pre body between)
    (cleaned : ∀ value, Guards invariant (between value) cleanup fun _ => post value)
    (anyhow : Guards invariant (fun _ => True) cleanup fun _ _ => True) :
    Guards invariant pre (body.withCleanup cleanup) post := fun locals state required holds =>
  .withCleanup ((guarded locals state required holds).mono
    (fun value after ended => cleaned value after.1 after.2 ended.1 ended.2)
    (fun _ after holds => (anyhow after.1 after.2 trivial holds).imp fun _ _ ended => ended.2)
    fun _ => id)

/-- From its first variables on, the program keeps the invariant. -/
theorem withLocals {locals : τ} (guarded : Guards invariant pre body post) (required : pre locals) :
    Keeps invariant (body.withLocals locals) :=
  .of_ensures (fun _ => trivial) fun state holds =>
    .withLocals ((guarded locals state required holds).imp fun _ _ ended => ended.2)

end Guards

end Gizos.Fault
