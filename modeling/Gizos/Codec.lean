import Mathlib.Data.Nat.Log
import Mathlib.Tactic.Ring

/-! # Fixed-width binary layouts

A layout writes a value as a fixed number of bytes and reads it back from the front of a
byte list. Little-endian words, raw byte fields and their products are all exact: every
value reads back, and only the bytes of a value are read as that value.
-/
namespace Gizos

/-- A byte string. -/
abbrev Bytes : Type := List UInt8

namespace Codec

/-- The bytes of a number, least significant first. -/
def leBytes : Nat → Nat → Bytes
  | 0, _ => []
  | width + 1, value => UInt8.ofNat value :: leBytes width (value / 256)

/-- The number that bytes denote, least significant first. -/
def leValue : Bytes → Nat
  | [] => 0
  | byte :: rest => byte.toNat + 256 * leValue rest

@[simp] theorem leBytes_length (width value : Nat) : (leBytes width value).length = width := by
  induction width generalizing value with
  | zero => rfl
  | succ width ih => simp [leBytes, ih]

/-- Bytes denote a number below the power of their count. -/
theorem leValue_lt (bytes : Bytes) : leValue bytes < 256 ^ bytes.length := by
  induction bytes with
  | nil => simp [leValue]
  | cons byte rest ih =>
    have low := byte.toNat_lt
    simp only [leValue, List.length_cons, pow_succ]
    omega

/-- Writing a number keeps it modulo the width. -/
theorem leValue_leBytes (width value : Nat) :
    leValue (leBytes width value) = value % 256 ^ width := by
  induction width generalizing value with
  | zero => simp [leBytes, leValue, Nat.mod_one]
  | succ width ih =>
    simp only [leBytes, leValue, ih, UInt8.toNat_ofNat']
    rw [Nat.pow_succ 256 width, Nat.mul_comm (256 ^ width) 256, Nat.mod_mul]

/-- Bytes are the bytes of the number they denote. -/
theorem leBytes_leValue (bytes : Bytes) : leBytes bytes.length (leValue bytes) = bytes := by
  induction bytes with
  | nil => rfl
  | cons byte rest ih =>
    have low := byte.toNat_lt
    have head : UInt8.ofNat (byte.toNat + 256 * leValue rest) = byte := by
      apply UInt8.toNat.inj
      simp only [UInt8.toNat_ofNat']
      omega
    have tail : (byte.toNat + 256 * leValue rest) / 256 = leValue rest := by omega
    simp only [List.length_cons, leBytes, leValue, head, tail, ih]

/-- A writer and a reader of one fixed-width value. -/
structure Layout (α : Type) where
  /-- Number of bytes of every value. -/
  width : Nat
  /-- The bytes of a value. -/
  encode : α → Bytes
  /-- The value of exactly `width` bytes. -/
  decode : Bytes → α

namespace Layout

variable {α β : Type}

/-- The reader and the writer are inverse on byte strings of the layout's width. -/
structure Exact (layout : Layout α) : Prop where
  size : ∀ value, (layout.encode value).length = layout.width
  decode_encode : ∀ value, layout.decode (layout.encode value) = value
  /-- Bytes of the right width are the bytes of the value they read as. -/
  encode_decode : ∀ bytes, bytes.length = layout.width → layout.encode (layout.decode bytes) = bytes

/-- A 32-bit word. -/
def u32 : Layout UInt32 where
  width := 4
  encode value := leBytes 4 value.toNat
  decode bytes := UInt32.ofNat (leValue bytes)

/-- A 64-bit word. -/
def u64 : Layout UInt64 where
  width := 8
  encode value := leBytes 8 value.toNat
  decode bytes := UInt64.ofNat (leValue bytes)

/-- Two values, one after the other. -/
def pair (left : Layout α) (right : Layout β) : Layout (α × β) where
  width := left.width + right.width
  encode value := left.encode value.1 ++ right.encode value.2
  decode bytes := (left.decode (bytes.take left.width), right.decode (bytes.drop left.width))

/-- The same bytes read as another type of the same values. -/
def map (layout : Layout α) (pack : α → β) (unpack : β → α) : Layout β where
  width := layout.width
  encode value := layout.encode (unpack value)
  decode bytes := pack (layout.decode bytes)

theorem u32_exact : u32.Exact where
  size _ := leBytes_length _ _
  decode_encode value := by
    apply UInt32.toNat.inj
    have bound := value.toNat_lt
    simp only [u32, leValue_leBytes, UInt32.toNat_ofNat']
    omega
  encode_decode bytes size := by
    change bytes.length = 4 at size
    have bound := leValue_lt bytes
    have same := leBytes_leValue bytes
    rw [size] at bound same
    simp only [u32, UInt32.toNat_ofNat']
    rw [Nat.mod_eq_of_lt (by omega), same]

theorem u64_exact : u64.Exact where
  size _ := leBytes_length _ _
  decode_encode value := by
    apply UInt64.toNat.inj
    have bound := value.toNat_lt
    simp only [u64, leValue_leBytes, UInt64.toNat_ofNat']
    omega
  encode_decode bytes size := by
    change bytes.length = 8 at size
    have bound := leValue_lt bytes
    have same := leBytes_leValue bytes
    rw [size] at bound same
    simp only [u64, UInt64.toNat_ofNat']
    rw [Nat.mod_eq_of_lt (by omega), same]

/-- Exact layouts in sequence are exact. -/
theorem Exact.pair {left : Layout α} {right : Layout β} (first : left.Exact)
    (second : right.Exact) : (left.pair right).Exact where
  size value := by simp [Layout.pair, first.size, second.size]
  decode_encode value := by
    have front := first.size value.1
    simp [Layout.pair, ← front, first.decode_encode, second.decode_encode]
  encode_decode bytes size := by
    change bytes.length = left.width + right.width at size
    have front := first.encode_decode (bytes.take left.width) (by simp; omega)
    have back := second.encode_decode (bytes.drop left.width) (by simp; omega)
    simp [Layout.pair, front, back]

/-- Renaming values through a bijection keeps a layout exact. -/
theorem Exact.map {layout : Layout α} (exact : layout.Exact) {pack : α → β} {unpack : β → α}
    (packed : ∀ value, pack (unpack value) = value)
    (unpacked : ∀ value, unpack (pack value) = value) : (layout.map pack unpack).Exact where
  size value := exact.size _
  decode_encode value := by simp [Layout.map, exact.decode_encode, packed]
  encode_decode bytes size := by simp [Layout.map, unpacked, exact.encode_decode bytes size]

end Layout

end Codec

end Gizos
