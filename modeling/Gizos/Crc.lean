import Gizos.Codec
import Mathlib.Data.BitVec

/-! # Reflected cyclic redundancy checks

The remainder of a reflected check moves down one bit at a time, and takes in the polynomial when a
one falls out. Moving down is linear in exclusive or, and a remainder whose low bits are clear only
moves: from these two facts follow the table-driven forms, which take in a byte or a word at once.
-/
namespace Gizos.Crc

variable {width : Nat} (polynomial remainder : BitVec width)

/-- Moves a remainder down by one bit. -/
def shift : BitVec width :=
  if remainder.getLsbD 0 then (remainder >>> 1) ^^^ polynomial else remainder >>> 1

/-- Moves a remainder down by some bits. -/
def shifts : Nat → BitVec width → BitVec width
  | 0, remainder => remainder
  | count + 1, remainder => shifts count (shift polynomial remainder)

/-- Takes in one byte, bit by bit. -/
def feed (byte : UInt8) : BitVec width :=
  shifts polynomial 8 (remainder ^^^ byte.toBitVec.setWidth width)

/-- Takes in bytes, bit by bit. -/
def run (bytes : Bytes) : BitVec width :=
  bytes.foldl (feed polynomial) remainder

/-- Moving down is linear. -/
theorem shift_xor (left right : BitVec width) :
    shift polynomial (left ^^^ right) = shift polynomial left ^^^ shift polynomial right := by
  have cancel : ∀ a b : BitVec width, a ^^^ b = (a ^^^ polynomial) ^^^ (b ^^^ polynomial) := by
    intro a b
    rw [BitVec.xor_assoc, ← BitVec.xor_assoc polynomial, BitVec.xor_comm polynomial b,
      BitVec.xor_assoc b, BitVec.xor_self, BitVec.xor_zero]
  unfold shift
  simp only [BitVec.getLsbD_xor, BitVec.ushiftRight_xor_distrib]
  cases left.getLsbD 0 <;> cases right.getLsbD 0
  · simp
  · simp [BitVec.xor_assoc]
  · simp [BitVec.xor_assoc, BitVec.xor_comm polynomial]
  · simpa using cancel _ _

theorem shifts_xor (count : Nat) (left right : BitVec width) :
    shifts polynomial count (left ^^^ right) =
      shifts polynomial count left ^^^ shifts polynomial count right := by
  induction count generalizing left right with
  | zero => rfl
  | succ count ih => rw [shifts, shifts, shifts, shift_xor, ih]

theorem shifts_add (first second : Nat) (remainder : BitVec width) :
    shifts polynomial (first + second) remainder =
      shifts polynomial second (shifts polynomial first remainder) := by
  induction first generalizing remainder with
  | zero => rw [Nat.zero_add, shifts]
  | succ first ih => rw [Nat.succ_add, shifts, shifts, ih]

/-- A remainder whose low bits are clear only moves down. -/
theorem shifts_of_clear {count : Nat} {remainder : BitVec width}
    (clear : ∀ bit, bit < count → remainder.getLsbD bit = false) :
    shifts polynomial count remainder = remainder >>> count := by
  induction count generalizing remainder with
  | zero => simp [shifts]
  | succ count ih =>
    have low : remainder.getLsbD 0 = false := clear 0 (by omega)
    have moved : shift polynomial remainder = remainder >>> 1 := by simp [shift, low]
    rw [shifts, moved, ih, ← BitVec.shiftRight_add, Nat.add_comm]
    intro bit small
    rw [BitVec.getLsbD_ushiftRight]
    exact clear _ (by omega)

/-- The lowest byte of a remainder, as a remainder. -/
def lowByte : BitVec width := (remainder.setWidth 8).setWidth width

/-- A remainder is its lowest byte and what stands above it. -/
theorem lowByte_xor_high :
    lowByte remainder ^^^ ((remainder >>> 8) <<< 8) = remainder := by
  apply BitVec.eq_of_getLsbD_eq
  intro bit inside
  simp only [lowByte, BitVec.getLsbD_xor, BitVec.getLsbD_setWidth, BitVec.getLsbD_shiftLeft,
    BitVec.getLsbD_ushiftRight]
  by_cases low : bit < 8
  · simp [low, inside]
  · simp [low, inside, show 8 + (bit - 8) = bit by omega]

/-- What stands above the lowest byte only moves down. -/
theorem shifts_high :
    shifts polynomial 8 ((remainder >>> 8) <<< 8) = remainder >>> 8 := by
  rw [shifts_of_clear]
  · apply BitVec.eq_of_getLsbD_eq
    intro bit inside
    simp only [BitVec.getLsbD_ushiftRight, BitVec.getLsbD_shiftLeft]
    by_cases high : 8 + bit < width
    · simp [high]
    · rw [BitVec.getLsbD_of_ge remainder (8 + bit) (by omega)]
      simp [high]
  · intro bit small
    simp [BitVec.getLsbD_shiftLeft, small]

/-- The lowest byte of a remainder can be moved down by itself. -/
theorem shifts_peel (rest : Nat) (remainder : BitVec width) :
    shifts polynomial (8 + rest) remainder =
      shifts polynomial (8 + rest) (lowByte remainder) ^^^
        shifts polynomial rest (remainder >>> 8) := by
  calc
    shifts polynomial (8 + rest) remainder =
        shifts polynomial (8 + rest) (lowByte remainder ^^^ ((remainder >>> 8) <<< 8)) := by
      rw [lowByte_xor_high]
    _ = shifts polynomial (8 + rest) (lowByte remainder) ^^^
        shifts polynomial (8 + rest) ((remainder >>> 8) <<< 8) := shifts_xor ..
    _ = _ := by rw [shifts_add polynomial 8 rest ((remainder >>> 8) <<< 8), shifts_high]

/-- Bytes as a word, the first one lowest. -/
def word : Bytes → BitVec width
  | [] => BitVec.ofNat width 0
  | byte :: rest => byte.toBitVec.setWidth width ^^^ (word rest <<< 8)

/-- A byte and what stands above it do not overlap. -/
theorem byte_or_above (byte : UInt8) (above : BitVec width) :
    byte.toBitVec.setWidth width ||| (above <<< 8) = byte.toBitVec.setWidth width ^^^
      (above <<< 8) := by
  apply BitVec.eq_of_getLsbD_eq
  intro bit _
  by_cases low : bit < 8
  · simp [low]
  · have outside : byte.toBitVec.getLsbD bit = false := BitVec.getLsbD_of_ge _ _ (by omega)
    simp [outside]

/-- A word is no longer than its bytes. -/
theorem word_clear (bytes : Bytes) {bit : Nat} (outside : 8 * bytes.length ≤ bit) :
    (word bytes : BitVec width).getLsbD bit = false := by
  induction bytes generalizing bit with
  | nil => simp [word]
  | cons byte rest ih =>
    rw [List.length_cons] at outside
    have above := @ih (bit - 8) (by omega)
    have short : byte.toBitVec.getLsbD bit = false := BitVec.getLsbD_of_ge _ _ (by omega)
    simp only [word, BitVec.getLsbD_xor, BitVec.getLsbD_setWidth, BitVec.getLsbD_shiftLeft, above,
      short, Bool.and_false, Bool.xor_false]

/-- A word that fits above a byte moves down to where it was. -/
theorem shifts_word {rest : Bytes} (fits : 8 * (rest.length + 1) ≤ width) :
    shifts polynomial 8 (word rest <<< 8) = word rest := by
  rw [shifts_of_clear]
  · apply BitVec.eq_of_getLsbD_eq
    intro bit inside
    simp only [BitVec.getLsbD_ushiftRight, BitVec.getLsbD_shiftLeft]
    by_cases high : 8 + bit < width
    · simp [high]
    · have clear : (word rest : BitVec width).getLsbD bit = false :=
        word_clear rest (by omega)
      simp [high, clear]
  · intro bit small
    simp [BitVec.getLsbD_shiftLeft, small]

/-- Bytes that fit into a word can be taken in at once. -/
theorem run_eq_shifts {bytes : Bytes} (fits : 8 * bytes.length ≤ width) (remainder : BitVec width) :
    run polynomial remainder bytes =
      shifts polynomial (8 * bytes.length) (remainder ^^^ word bytes) := by
  induction bytes generalizing remainder with
  | nil => simp [run, word, shifts]
  | cons byte rest ih =>
    rw [List.length_cons] at fits ⊢
    calc
      run polynomial remainder (byte :: rest) =
          run polynomial (feed polynomial remainder byte) rest := rfl
      _ = shifts polynomial (8 * rest.length)
          (feed polynomial remainder byte ^^^ word rest) := ih (by omega) _
      _ = shifts polynomial (8 * rest.length) (shifts polynomial 8
          (remainder ^^^ byte.toBitVec.setWidth width ^^^ (word rest <<< 8))) := by
        rw [shifts_xor polynomial 8, shifts_word polynomial fits]
        rfl
      _ = shifts polynomial (8 + 8 * rest.length)
          (remainder ^^^ byte.toBitVec.setWidth width ^^^ (word rest <<< 8)) :=
        (shifts_add ..).symm
      _ = _ := by rw [BitVec.xor_assoc, show 8 * (rest.length + 1) = 8 + 8 * rest.length by omega,
        word]

theorem run_append (first second : Bytes) :
    run polynomial remainder (first ++ second) =
      run polynomial (run polynomial remainder first) second :=
  List.foldl_append

end Gizos.Crc
