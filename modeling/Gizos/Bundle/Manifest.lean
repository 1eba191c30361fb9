import Gizos.Bundle.Segmented

/-! # Bundle manifests

The manifest a bundle install can be checked against (`h2_bundle_manifest.c`): lines of checksum,
size and path, and the check of one archive entry by its size and CRC-32.
-/
namespace Gizos.Bundle

/-- `H2_BUNDLE_ERR_INVALID_ARG`. -/
def errBundleArg : Int := -1
/-- `H2_BUNDLE_ERR_NO_MEMORY`. -/
def errNoMemory : Int := -2
/-- `H2_BUNDLE_ERR_MANIFEST`. -/
def errManifest : Int := -11

/-- `crc32` of zlib: goes on from a checksum with further bytes. -/
structure Crc32Api where
  /-- Goes on from a checksum. -/
  update : UInt32 → Bytes → UInt32
  /-- The checksum to begin with is zero. -/
  initial : update 0 [] = 0
  /-- A checksum can be computed piece by piece. -/
  append : ∀ checksum first second,
    update (update checksum first) second = update checksum (first ++ second)

/-- A checksum that adds up the bytes. -/
def summedBytes : Crc32Api where
  update checksum data := data.foldl (fun sum byte => sum + byte.toUInt32) checksum
  initial := rfl
  append _ _ _ := List.foldl_append.symm

/-- `h2_bundle_manifest_entry_t`. -/
structure ManifestEntry where
  /-- Path of the file in the archive. -/
  path : Bytes
  /-- Its checksum, in hexadecimal. -/
  checksumHex : Bytes
  size : UInt64
deriving Repr, DecidableEq

/-- `h2_bundle_manifest_t`. -/
structure BundleManifest where
  /-- The version that is installed. -/
  version : Option Bytes
  /-- The files of the archive. -/
  entries : List ManifestEntry
deriving Repr, DecidableEq

/-- `h2_bundle_manifest_is_hex_digest`. -/
def manifestIsHexDigest (text : Bytes) : Bool :=
  (text.length = 8 || text.length = 32 || text.length = 64) && text.all isHex

/-- The number some decimal digits denote. -/
def decimalValue (text : Bytes) : Nat :=
  text.foldl (fun value digit => value * 10 + (digit.toNat - 48)) 0

/-- `parse_uint64`, which wraps around. -/
def parseUint64 (text : Bytes) : Except Int UInt64 :=
  if text = [] then .error errBundleArg
  else if ¬text.all (fun digit => 48 ≤ digit && digit ≤ 57) then .error errManifest
  else .ok (text.foldl (fun value digit => value * 10 + (digit.toNat - 48).toUInt64) 0)

/-- A blank inside a line. -/
def isBlank (char : UInt8) : Bool := char = 32 || char = 9

/-- The end of a line. -/
def isLineEnd (char : UInt8) : Bool := char = 13 || char = 10

/-- `h2_bundle_manifest_parse_line`. -/
def manifestParseLine (line : Bytes) : Except Int ManifestEntry := do
  let checksum := line.takeWhile (!isBlank ·)
  if ¬manifestIsHexDigest checksum then .error errManifest else
  let text := line.takeWhile (!isLineEnd ·)
  let rest := (text.drop checksum.length).dropWhile isBlank
  let digits := rest.takeWhile (!isBlank ·)
  let path := (rest.drop digits.length).dropWhile isBlank
  if digits = [] ∨ path = [] ∨ pathMax ≤ path.length then .error errManifest else
  let size ← parseUint64 digits
  if pathIsSafeRelative path then .ok ⟨path, checksum, size⟩ else .error errUnsafePath

/-- `h2_bundle_manifest_find`, as the place of the entry. -/
def BundleManifest.find (manifest : BundleManifest) (path : Bytes) : Option Nat :=
  manifest.entries.findIdx? (·.path = path)

/-- `hex_nibble`. -/
def hexNibble (char : UInt8) : UInt32 :=
  if char ≤ 57 then (char - 48).toUInt32
  else if 97 ≤ char then (char - 87).toUInt32
  else (char - 55).toUInt32

/-- `parse_crc32_hex`. -/
def parseCrc32Hex (text : Bytes) : Except Int UInt32 :=
  if text.length = 8 ∧ text.all isHex then
    .ok (text.foldl (fun value char => (value <<< 4) ||| hexNibble char) 0)
  else .error errManifest

/-- `h2_bundle_manifest_verify_crc32`. -/
def manifestVerifyCrc32 (entry : ManifestEntry) (size : Nat) (checksum : UInt32) :
    Except Int Unit := do
  if entry.size.toNat ≠ size then .error errManifest else
  let expected ← parseCrc32Hex entry.checksumHex
  if expected = checksum then .ok () else .error errManifest

theorem manifestVerifyCrc32_ok {entry : ManifestEntry} {size : Nat} {checksum : UInt32}
    (verified : manifestVerifyCrc32 entry size checksum = .ok ()) :
    entry.size.toNat = size ∧ parseCrc32Hex entry.checksumHex = .ok checksum := by
  unfold manifestVerifyCrc32 at verified
  split at verified
  · cases verified
  rename_i same
  obtain ⟨expected, parsed, verified⟩ := bind_eq_ok.mp verified
  split at verified
  · rename_i equal
    rw [equal] at parsed
    exact ⟨not_not.mp same, parsed⟩
  · cases verified

theorem BundleManifest.find_some {manifest : BundleManifest} {path : Bytes} {index : Nat}
    (found : manifest.find path = some index) :
    ∃ entry, manifest.entries[index]? = some entry ∧ entry.path = path := by
  obtain ⟨bound, same, -⟩ := List.findIdx?_eq_some_iff_getElem.mp found
  exact ⟨manifest.entries[index], List.getElem?_eq_getElem bound, by simpa using same⟩

/-- A size is read as a decimal number, modulo the width of its field. -/
theorem parseUint64_toNat {text : Bytes} {size : UInt64} (parsed : parseUint64 text = .ok size) :
    size.toNat = decimalValue text % 2 ^ 64 := by
  unfold parseUint64 at parsed
  split at parsed
  · cases parsed
  split at parsed
  · cases parsed
  cases parsed
  -- the accumulator of the fold is the decimal value so far, modulo the width
  have folds : ∀ (text : Bytes) (value : UInt64) (exact : Nat), value.toNat = exact % 2 ^ 64 →
      (text.foldl (fun value digit => value * 10 + (digit.toNat - 48).toUInt64) value).toNat =
        text.foldl (fun value digit => value * 10 + (digit.toNat - 48)) exact % 2 ^ 64 := by
    intro text
    induction text with
    | nil => exact fun _ _ => id
    | cons digit rest ih =>
      intro value number same
      refine ih _ _ ?_
      have small : (digit.toNat - 48).toUInt64.toNat = (digit.toNat - 48) % 2 ^ 64 := by simp
      rw [UInt64.toNat_add, UInt64.toNat_mul, same]
      simp [Nat.add_mod, Nat.mul_mod]
  exact folds text 0 0 rfl

end Gizos.Bundle
