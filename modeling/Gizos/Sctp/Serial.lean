import Mathlib

/-! # Serial numbers

Sequence numbers of 32 bits that wrap around. Two of them compare by the distance from one to the
other, which is an order only among numbers that lie less than half the circle after a common
base; the distance from the base then turns every comparison into one of natural numbers.
-/
namespace Gizos.Serial

/-- A sequence number of 32 bits. -/
abbrev Number : Type := BitVec 32

/-- Half of the circle. -/
def half : Nat := 0x80000000

/-- One number comes before another if less than half the circle leads from it to the other. -/
def before (left right : Number) : Bool :=
  right - left ≠ 0 && decide ((right - left).toNat < half)

/-- The order the other way around. -/
def after (left right : Number) : Bool := before right left

/-- How far a number lies after the base. -/
def offset (base number : Number) : Nat := (number - base).toNat

variable {base left right number next : Number}

@[simp] theorem offset_self (base : Number) : offset base base = 0 := by
  simp [offset]

/-- The distance between two numbers, on either side of the wrap. -/
theorem offset_eq (base number : Number) :
    offset base number = if base.toNat ≤ number.toNat then number.toNat - base.toNat
      else 2 ^ 32 - base.toNat + number.toNat := by
  simp only [offset, BitVec.toNat_sub]
  split <;> omega

theorem before_eq (left right : Number) :
    before left right = (decide (0 < offset left right) && decide (offset left right < half)) := by
  have zero : right - left = 0 ↔ offset left right = 0 := by
    simp only [offset]
    bv_omega
  simp only [before, ne_eq, zero, Nat.pos_iff_ne_zero]
  rfl

/-- Among numbers less than half the circle behind a common one, the later is closer to it. -/
theorem after_iff_behind (nearLeft : offset left next < half)
    (nearRight : offset right next < half) :
    after left right = true ↔ offset left next < offset right next := by
  simp only [half, offset_eq] at nearLeft nearRight
  simp only [after, before_eq, half, offset_eq, Bool.and_eq_true, decide_eq_true_eq]
  split at nearLeft <;> split at nearRight <;> split <;> omega

/-- A number whose successor is not past another is before it. -/
theorem offset_of_succ (room : offset (number + 1) next + 1 < 2 ^ 32) :
    offset number next = offset (number + 1) next + 1 := by
  simp only [offset] at room ⊢
  bv_omega

/-- On the way to a number, the distance shrinks by what was gone. -/
theorem offset_add {gone : Nat} (room : gone ≤ offset number next) :
    offset (number + BitVec.ofNat 32 gone) next = offset number next - gone := by
  have bound : offset number next < 2 ^ 32 := (next - number).isLt
  simp only [offset] at room bound ⊢
  bv_omega

/-- Two numbers at one distance behind another are the same. -/
theorem behind_inj (same : offset left next = offset right next) : left = right := by
  simp only [offset] at same
  bv_omega

/-- The next number is one further, unless the circle closes. -/
theorem offset_succ (room : offset base number + 1 < 2 ^ 32) :
    offset base (number + 1) = offset base number + 1 := by
  simp only [offset] at room ⊢
  bv_omega

theorem before_irrefl (number : Number) : before number number = false := by
  simp [before]

/-- Nothing lies between a number and the next one. -/
theorem before_succ (number : Number) : before number (number + 1) = true := by
  have one : offset number (number + 1) = 1 := by
    simp only [offset]
    bv_omega
  rw [before_eq, one]
  rfl

theorem not_before_succ (number : Number) : before (number + 1) number = false := by
  have whole : offset (number + 1) number = 2 ^ 32 - 1 := by
    simp only [offset]
    bv_omega
  rw [before_eq, whole]
  rfl

end Gizos.Serial
