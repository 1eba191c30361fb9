import Mathlib.Data.Bool.Basic

/-! # Alternating lists

Lists of changes of a level that alternate: each element changes the level that the one before it
left. A block of even length can be cut out of such a list.
-/
namespace Gizos.Alternation

variable {α : Type} (level : α → Bool)

/-- The level after a list of changes. -/
def finish (start : Bool) (changes : List α) : Bool :=
  changes.foldl (fun _ change => level change) start

/-- Each change leads away from the level before it. -/
def Alternating : Bool → List α → Prop
  | _, [] => True
  | start, change :: rest => level change = !start ∧ Alternating (level change) rest

instance decidableAlternating : (start : Bool) → (changes : List α) →
    Decidable (Alternating level start changes)
  | _, [] => isTrue trivial
  | start, change :: rest =>
    let _ := decidableAlternating (level change) rest
    inferInstanceAs (Decidable (level change = !start ∧ Alternating level (level change) rest))

variable {level} {start : Bool}

theorem finish_append (front back : List α) :
    finish level start (front ++ back) = finish level (finish level start front) back :=
  List.foldl_append

theorem alternating_append (front back : List α) :
    Alternating level start (front ++ back) ↔
      Alternating level start front ∧ Alternating level (finish level start front) back := by
  induction front generalizing start with
  | nil => simp [Alternating, finish]
  | cons change rest step =>
    have tail := @step (level change)
    simp only [List.cons_append, Alternating, tail, and_assoc]
    rfl

/-- An alternating block ends where it started exactly when its length is even. -/
theorem Alternating.finish_eq {block : List α} (alternates : Alternating level start block) :
    finish level start block = (start ^^ decide (block.length % 2 = 1)) := by
  induction block generalizing start with
  | nil => simp [finish]
  | cons change rest step =>
    obtain ⟨leaves, alternates⟩ := alternates
    have tail := step alternates
    calc finish level start (change :: rest)
      _ = finish level (level change) rest := rfl
      _ = (level change ^^ decide (rest.length % 2 = 1)) := tail
      _ = (start ^^ decide ((change :: rest).length % 2 = 1)) := by
        have parity : decide ((change :: rest).length % 2 = 1) = !decide (rest.length % 2 = 1) := by
          by_cases odd : rest.length % 2 = 1
          · simp only [List.length_cons, odd]
            simp; omega
          · simp only [List.length_cons, odd]
            simp; omega
        rw [parity, leaves]
        cases start <;> simp

/-- Cutting out a block of even length leaves an alternating list that ends at the same level. -/
theorem Alternating.cut {front block back : List α}
    (alternates : Alternating level start (front ++ block ++ back)) (even : block.length % 2 = 0) :
    Alternating level start (front ++ back) ∧
      finish level start (front ++ back) = finish level start (front ++ block ++ back) := by
  rw [alternating_append, alternating_append] at alternates
  obtain ⟨⟨first, middle⟩, last⟩ := alternates
  have returned : finish level (finish level start front) block = finish level start front := by
    rw [middle.finish_eq]
    simp [even]
  rw [finish_append, returned] at last
  constructor
  · exact (alternating_append front back).mpr ⟨first, last⟩
  · rw [finish_append, finish_append, finish_append, returned]

/-- A change away from the level a list ends at can follow it. -/
theorem Alternating.snoc {front : List α} {change : α} (alternates : Alternating level start front)
    (leaves : level change = !finish level start front) :
    Alternating level start (front ++ [change]) :=
  (alternating_append front [change]).mpr ⟨alternates, leaves, trivial⟩

theorem finish_snoc (front : List α) (change : α) :
    finish level start (front ++ [change]) = level change := by
  simp [finish]

end Gizos.Alternation
