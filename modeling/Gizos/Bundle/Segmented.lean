import Gizos.Bundle.Tar
import Gizos.Pal.Answer

/-! # Segmented bundles

The format-two container (`h2_bundle_segmented.c`): an uncompressed tar with exactly a
manifest, a compressed data tar and a compressed application image. Reads of the container
are reads of its bytes; the platform's own failures are answers of the calls around it.
-/
namespace Gizos.Bundle

open Pal Codec

/-- The digest the platform provides, with 32 bytes of output. -/
structure DigestApi where
  /-- Digest of a whole input. -/
  hash : Bytes → Bytes
  /-- Every digest has 32 bytes. -/
  size : ∀ input, (hash input).length = 32

/-- A hexadecimal digit in lower case. -/
def hexDigit (value : Nat) : UInt8 :=
  if value < 10 then UInt8.ofNat (48 + value) else UInt8.ofNat (87 + value)

/-- `h2_bundle_digest_hex`, and `digest_to_hex` of the loader. -/
def digestToHex (digest : Bytes) : Bytes :=
  digest.flatMap fun byte => [hexDigit (byte.toNat / 16), hexDigit (byte.toNat % 16)]

/-- The lower-case hexadecimal digest of an input. -/
def DigestApi.hex (digest : DigestApi) (input : Bytes) : Bytes := digestToHex (digest.hash input)

/-- Different half bytes have different digits. -/
theorem hexDigit_inj : ∀ left < 16, ∀ right < 16, hexDigit left = hexDigit right →
    left = right := by
  decide

/-- Different digests have different texts. -/
theorem digestToHex_inj {left right : Bytes} (same : digestToHex left = digestToHex right) :
    left = right := by
  induction left generalizing right with
  | nil =>
    cases right with
    | nil => rfl
    | cons byte right => cases same
  | cons byte left ih =>
    cases right with
    | nil => cases same
    | cons other right =>
      obtain ⟨high, low, rest⟩ : hexDigit (byte.toNat / 16) = hexDigit (other.toNat / 16) ∧
          hexDigit (byte.toNat % 16) = hexDigit (other.toNat % 16) ∧
          digestToHex left = digestToHex right := by
        simpa [digestToHex] using same
      have bound := byte.toNat_lt
      have bound' := other.toNat_lt
      have highs := hexDigit_inj _ (by omega) _ (by omega) high
      have lows := hexDigit_inj _ (by omega) _ (by omega) low
      have bytes : byte = other := UInt8.toNat.inj (by omega)
      rw [bytes, ih rest]

/-- How decompression of a stream ends. -/
inductive InflateEnd where
  /-- The stream ended, with this many input bytes after it. -/
  | ended (unused : Nat)
  /-- The input ran out inside the stream. -/
  | truncated
  /-- The input is no stream. -/
  | corrupt
deriving Repr, DecidableEq

/-- The decompressor: for a buffer size and an input, the pieces of output it hands out one
after the other, and how it ends. -/
structure InflateApi where
  /-- Decompresses an input through buffers of a size. -/
  run : Nat → Bytes → List Bytes × InflateEnd

/-- Inflation that copies its input in one piece, for archives that are not compressed. -/
def storedZlib : InflateApi := ⟨fun _ input => ([input], .ended 0)⟩

/-- A digit or a lower-case letter up to `f`. -/
def isLowerHex (ch : UInt8) : Bool := (48 ≤ ch && ch ≤ 57) || (97 ≤ ch && ch ≤ 102)

/-- A hexadecimal digit of either case. -/
def isHex (ch : UInt8) : Bool := isLowerHex ch || (65 ≤ ch && ch ≤ 70)

/-- `is_sha256_hex`. -/
def isSha256Hex (value : Bytes) : Bool := value.length = 64 && value.all isHex

/-- `is_lower_sha256_hex`, and `is_lower_sha256_bytes` on the bytes themselves. -/
def isLowerSha256Hex (value : Bytes) : Bool := value.length = 64 && value.all isLowerHex

/-- A character allowed in a board or target name. -/
def isIdentityToken (ch : UInt8) : Bool :=
  (97 ≤ ch && ch ≤ 122) || (48 ≤ ch && ch ≤ 57) || ch = 46 || ch = 95 || ch = 45

/-- A printable character other than a blank. -/
def isVersionChar (ch : UInt8) : Bool := 32 < ch && ch ≤ 126

/-- The digits of a decimal number that fits 64 bits. -/
def decimalDigits : Nat → Bytes → Except Int Nat
  | parsed, [] => .ok parsed
  | parsed, ch :: rest =>
    if ch < 48 ∨ 57 < ch then .error errFormat else
    let digit := ch.toNat - 48
    if parsed > (2 ^ 64 - 1 - digit) / 10 then .error errFormat
    else decimalDigits (parsed * 10 + digit) rest

/-- `h2_bundle_segment_t`. -/
structure Segment where
  /-- Where the compressed member starts. -/
  offset : Nat
  /-- Size of the compressed member. -/
  compressedSize : Nat
  /-- Size of the member's output. -/
  size : Nat
  /-- Digest of the compressed member. -/
  compressedSha256 : Bytes
deriving Repr, DecidableEq

/-- `h2_bundle_segmented_manifest_t`, with its strings as strings. -/
structure SegmentedManifest where
  /-- Role of the image. -/
  role : Bytes
  /-- Board the image is built for. -/
  board : Bytes
  /-- Target the image is built for. -/
  target : Bytes
  /-- Version of the image. -/
  version : Bytes
  /-- Digest of the image. -/
  imageSha256 : Bytes
  /-- Digest of the data files. -/
  dataSha256 : Bytes
  /-- Bytes of plain data files. -/
  dataBytes : Nat
  /-- Bytes of packed data files. -/
  pixaBytes : Nat
  /-- The application member. -/
  app : Segment
  /-- The data member. -/
  data : Segment
deriving Repr, DecidableEq

/-- `line`: the value of the first line, which must carry `key`, and the text after it. -/
def segmentedLine (key text : Bytes) : Except Int (Bytes × Bytes) :=
  let line := text.takeWhile (· ≠ 10)
  if line.length = text.length then .error errFormat else
  if line.length ≤ key.length ∨ line.take key.length ≠ key ∨ line.getD key.length 0 ≠ 61 then
    .error errFormat else
  let value := line.drop (key.length + 1)
  if value = [] then .error errFormat else .ok (value, text.drop (line.length + 1))

/-- `text_value`. -/
def segmentedText (allowed : UInt8 → Bool) (value : Bytes) : Except Int Bytes :=
  if value = [] ∨ 96 ≤ value.length ∨ ¬value.all allowed then .error errFormat else .ok value

/-- `sha_value`. -/
def segmentedSha (value : Bytes) : Except Int Bytes :=
  if isLowerSha256Hex value then .ok value else .error errFormat

/-- The digest of no data, which a loader package must name. -/
def emptySha256 : Bytes :=
  ascii "e3b0c44298fc1c149afbf4c8996fb92427ae41e4649b934ca495991b7852b855"

/-- `h2_bundle_segmented_manifest_parse`; the members' offsets are not known yet. -/
def segmentedManifestParse (data : Bytes) : Except Int SegmentedManifest := do
  if data = [] ∨ 1024 < data.length then .error errInvalidArg
  let (format, text) ← segmentedLine (ascii "format") data
  if format ≠ ascii "2" then .error errFormat
  let (role, text) ← segmentedLine (ascii "role") text
  let role ← segmentedText isIdentityToken role
  if role ≠ ascii "app" ∧ role ≠ ascii "h2loader" then .error errFormat
  let (board, text) ← segmentedLine (ascii "board") text
  let board ← segmentedText isIdentityToken board
  let (target, text) ← segmentedLine (ascii "target") text
  let target ← segmentedText isIdentityToken target
  let (version, text) ← segmentedLine (ascii "version") text
  let version ← segmentedText isVersionChar version
  let (imageSize, text) ← segmentedLine (ascii "image_size") text
  let imageSize ← decimalDigits 0 imageSize
  let (imageSha256, text) ← segmentedLine (ascii "image_sha256") text
  let imageSha256 ← segmentedSha imageSha256
  let (dataSha256, text) ← segmentedLine (ascii "data_sha256") text
  let dataSha256 ← segmentedSha dataSha256
  let (dataTarSize, text) ← segmentedLine (ascii "data_tar_size") text
  let dataTarSize ← decimalDigits 0 dataTarSize
  let (dataBytes, text) ← segmentedLine (ascii "data_bytes") text
  let dataBytes ← decimalDigits 0 dataBytes
  let (pixaBytes, text) ← segmentedLine (ascii "pixa_bytes") text
  let pixaBytes ← decimalDigits 0 pixaBytes
  let (appZlibSize, text) ← segmentedLine (ascii "app_zlib_size") text
  let appZlibSize ← decimalDigits 0 appZlibSize
  let (appZlibSha256, text) ← segmentedLine (ascii "app_zlib_sha256") text
  let appZlibSha256 ← segmentedSha appZlibSha256
  let (dataZlibSize, text) ← segmentedLine (ascii "data_zlib_size") text
  let dataZlibSize ← decimalDigits 0 dataZlibSize
  let (dataZlibSha256, text) ← segmentedLine (ascii "data_zlib_sha256") text
  let dataZlibSha256 ← segmentedSha dataZlibSha256
  if text ≠ [] ∨ imageSize = 0 ∨ dataTarSize < 1024 ∨ dataTarSize % 512 ≠ 0 ∨ appZlibSize < 6 ∨
      dataZlibSize < 6 ∨ dataBytes > dataTarSize ∨ pixaBytes > dataTarSize - dataBytes then
    .error errFormat
  if role = ascii "h2loader" ∧ dataSha256 ≠ emptySha256 then .error errFormat
  .ok {
    role
    board
    target
    version
    imageSha256
    dataSha256
    dataBytes
    pixaBytes
    app := ⟨0, appZlibSize, imageSize, appZlibSha256⟩
    data := ⟨0, dataZlibSize, dataTarSize, dataZlibSha256⟩ }

/-- `member`: the header at an offset must name this file, inside the package. -/
def segmentedMember (package : Bytes) (offset : Nat) (name : Bytes) : Except Int Entry :=
  if package.length < offset + 512 then .error errTruncated else
  match tarParseHeader (field package offset 512) with
  | .ok (some entry) =>
    if entry.kind ≠ .file ∨ entry.path ≠ name ∨ entry.size = 0 ∨
        package.length < offset + 512 + entry.size + tarPadding entry.size then .error errFormat
    else .ok entry
  | _ => .error errFormat

/-- `zero_bytes`. -/
def zeroBytes (package : Bytes) (offset size : Nat) : Except Int Unit :=
  if (field package offset size).length < size then .error errTruncated
  else if (field package offset size).all (· = 0) then .ok () else .error errFormat

/-- `verify_member`. -/
def verifyMember (digest : DigestApi) (package : Bytes) (segment : Segment) : Except Int Unit :=
  if digest.hex (field package segment.offset segment.compressedSize) = segment.compressedSha256
  then .ok () else .error errFormat

/-- One member of the loop of `h2_bundle_segmented_inspect`: its segment with its offset, and
where the next member starts. -/
def inspectMember (digest : DigestApi) (package : Bytes) (offset : Nat) (name : Bytes)
    (segment : Segment) : Except Int (Segment × Nat) := do
  let entry ← segmentedMember package offset name
  if entry.size ≠ segment.compressedSize then .error errFormat
  let segment := { segment with offset := offset + 512 }
  verifyMember digest package segment
  zeroBytes package (segment.offset + entry.size) (tarPadding entry.size)
  .ok (segment, segment.offset + entry.size + tarPadding entry.size)

/-- `h2_bundle_segmented_inspect`. -/
def segmentedInspect (digest : DigestApi) (package : Bytes) : Except Int SegmentedManifest := do
  if package.length < 2048 ∨ package.length % 512 ≠ 0 then .error errFormat
  let entry ← segmentedMember package 0 (ascii "manifest")
  if 1024 < entry.size then .error errFormat
  let manifest ← segmentedManifestParse (field package 512 entry.size)
  zeroBytes package (512 + entry.size) (tarPadding entry.size)
  let offset := 512 + entry.size + tarPadding entry.size
  let (data, offset) ← inspectMember digest package offset (ascii "data.tar.zlib") manifest.data
  let (app, offset) ← inspectMember digest package offset (ascii "app.bin.zlib") manifest.app
  if package.length - offset < 1024 then .error errTruncated
  zeroBytes package offset (package.length - offset)
  .ok { manifest with data, app }

end Gizos.Bundle
