import Gizos.Codec
import Mathlib.Data.List.GetD
import Mathlib.Data.List.TakeWhile

/-! # Fixed-size character arrays

A C `char` array of a fixed size and the string it holds: the bytes before the first
zero. Two arrays can hold one string and differ in what follows it, so comparing strings
and comparing arrays are different operations.
-/
namespace Gizos

open Codec

/-- A `char` array of `size` bytes. -/
structure Text (size : Nat) where
  /-- All bytes of the array, including those after the string's end. -/
  bytes : Bytes
  /-- The array has its size. -/
  length_eq : bytes.length = size
deriving DecidableEq

namespace Text

variable {size : Nat} {bytes : Bytes}

/-- The string in a byte array: what stands before the first zero. -/
def cstring (bytes : Bytes) : Bytes := bytes.takeWhile (· ≠ 0)

/-- The string an array holds. -/
def string (text : Text size) : Bytes := cstring text.bytes

/-- The array that starts with the given bytes and is zero after them. -/
def ofBytes (size : Nat) (bytes : Bytes) : Text size :=
  ⟨(bytes ++ List.replicate size 0).take size, by simp⟩

/-- The all-zero array. -/
def zero (size : Nat) : Text size := ofBytes size []

/-- A string copied with truncation into a zeroed array, as `snprintf("%s")` does. -/
def copy (size : Nat) (value : Bytes) : Text size := ofBytes size (value.take (size - 1))

/-- The last byte is the terminator. -/
def Terminated (text : Text size) : Prop := text.bytes[size - 1]? = some 0

instance (text : Text size) : Decidable text.Terminated :=
  inferInstanceAs (Decidable (_ = _))

/-- The array as a layout of its own bytes. -/
def layout (size : Nat) : Layout (Text size) where
  width := size
  encode text := text.bytes
  decode bytes := ofBytes size bytes

@[ext] theorem ext {left right : Text size} (same : left.bytes = right.bytes) : left = right := by
  cases left
  cases right
  simp_all

/-- Bytes that fit stand at the front, with zeros after them. -/
theorem ofBytes_bytes (fits : bytes.length ≤ size) :
    (ofBytes size bytes).bytes = bytes ++ List.replicate (size - bytes.length) 0 := by
  simp [ofBytes, List.take_append, List.take_of_length_le fits]

/-- Bytes that fill the array are the array. -/
theorem ofBytes_full (fills : bytes.length = size) : (ofBytes size bytes).bytes = bytes := by
  simp [ofBytes_bytes (Nat.le_of_eq fills), fills]

theorem layout_exact (size : Nat) : (layout size).Exact where
  size text := text.length_eq
  decode_encode text := ext (ofBytes_full text.length_eq)
  encode_decode _ width := ofBytes_full width

/-- Bytes without a zero are a string of their own. -/
theorem cstring_of_nonzero (nonzero : ∀ byte ∈ bytes, byte ≠ 0) : cstring bytes = bytes := by
  exact List.takeWhile_eq_self_iff.mpr (by simpa using nonzero)

/-- A string contains no zero. -/
theorem cstring_nonzero {byte : UInt8} (mem : byte ∈ cstring bytes) : byte ≠ 0 := by
  have := List.mem_takeWhile_imp mem
  simpa using this

/-- A string ends at the first zero, whatever follows. -/
theorem cstring_append_zero {front : Bytes} (nonzero : ∀ byte ∈ front, byte ≠ 0)
    (rest : Bytes) : cstring (front ++ 0 :: rest) = front := by
  unfold cstring
  rw [List.takeWhile_append_of_pos (by simpa using nonzero)]
  simp

/-- What follows the string, if anything does, is a zero. -/
theorem cstring_split (bytes : Bytes) :
    cstring bytes = bytes ∨ ∃ rest, bytes = cstring bytes ++ 0 :: rest := by
  have parts := List.takeWhile_append_dropWhile (p := fun byte : UInt8 => decide (byte ≠ 0))
    (l := bytes)
  cases tail : bytes.dropWhile (fun byte => decide (byte ≠ 0)) with
  | nil =>
    rw [tail, List.append_nil] at parts
    exact .inl parts
  | cons head rest =>
    have stops := List.head_dropWhile_not (fun byte : UInt8 => decide (byte ≠ 0))
      (l := bytes) (by rw [tail]; exact List.cons_ne_nil _ _)
    simp only [tail, List.head_cons] at stops
    have zero : head = 0 := by simpa using stops
    rw [tail, zero] at parts
    exact .inr ⟨rest, parts.symm⟩

/-- Padding with zeros does not change the string. -/
theorem cstring_append_replicate {front : Bytes} (nonzero : ∀ byte ∈ front, byte ≠ 0)
    (count : Nat) : cstring (front ++ List.replicate count 0) = front := by
  cases count with
  | zero => simpa using cstring_of_nonzero nonzero
  | succ count => exact cstring_append_zero nonzero _

/-- A string that fits is held as it was given. -/
theorem string_copy {value : Bytes} (nonzero : ∀ byte ∈ value, byte ≠ 0)
    (fits : value.length < size) : (copy size value).string = value := by
  have whole : value.take (size - 1) = value := List.take_of_length_le (by omega)
  have padded := ofBytes_bytes (show value.length ≤ size by omega)
  rw [string, copy, whole, padded]
  exact cstring_append_replicate nonzero _

/-- A copied string is always terminated. -/
theorem copy_terminated (value : Bytes) (positive : 0 < size) : (copy size value).Terminated := by
  have fits : (value.take (size - 1)).length ≤ size := by simp
  rw [Terminated, copy, ofBytes_bytes fits, List.getElem?_append_right (by simp)]
  simp only [List.getElem?_replicate, List.length_take]
  rw [if_pos (by omega)]

/-- The string of a terminated array is shorter than the array. -/
theorem Terminated.string_length_lt {text : Text size} (terminated : text.Terminated) :
    text.string.length < size := by
  have within : text.string.length ≤ text.bytes.length := (List.takeWhile_prefix _).length_le
  rw [text.length_eq] at within
  refine Nat.lt_of_le_of_ne within fun full => ?_
  have whole : text.string = text.bytes :=
    (List.takeWhile_prefix _).eq_of_length (full.trans text.length_eq.symm)
  have zero : (0 : UInt8) ∈ text.bytes := List.mem_of_getElem? terminated
  rw [← whole] at zero
  exact cstring_nonzero zero rfl

/-- Copying the string of a terminated array copies all of it. -/
theorem Terminated.string_copy {text : Text size} (terminated : text.Terminated) :
    (copy size text.string).string = text.string :=
  Text.string_copy (fun _ mem => cstring_nonzero mem) terminated.string_length_lt

end Text

end Gizos
