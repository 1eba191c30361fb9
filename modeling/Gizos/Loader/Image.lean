import Gizos.Bundle.Segmented

/-! # Image identities and package manifests

The identity of an image (`h2_loader_image_identity_t`) and the format-one manifest that carries an
identity inside a package.
-/
namespace Gizos.Loader

open Gizos.Bundle Pal

/-- `H2_LOADER_SHA256_HEX_SIZE`. -/
def sha256HexSize : Nat := 65

/-- `H2_LOADER_IDENTITY_TEXT_MAX`. -/
def identityTextMax : Nat := 96

/-- `h2_loader_image_role_t`, as the word it is stored as. -/
structure ImageRole where
  /-- The stored word. -/
  value : UInt32
deriving DecidableEq

/-- `H2_LOADER_IMAGE_ROLE_UNKNOWN`. -/
def ImageRole.unknown : ImageRole := ⟨0⟩
/-- `H2_LOADER_IMAGE_ROLE_APP`. -/
def ImageRole.app : ImageRole := ⟨1⟩
/-- `H2_LOADER_IMAGE_ROLE_H2LOADER`. -/
def ImageRole.h2loader : ImageRole := ⟨2⟩

/-- `h2_loader_package_manifest_t`, which is also `h2_loader_image_identity_t`. -/
structure Manifest where
  /-- Package format; zero when there is no manifest. -/
  format : Nat
  role : ImageRole
  /-- Board the image is built for. -/
  board : Text identityTextMax
  /-- Target the image is built for. -/
  target : Text identityTextMax
  /-- Version of the image. -/
  version : Text identityTextMax
  imageSize : UInt64
  /-- Lower-case hexadecimal digest of the image. -/
  imageSha256 : Text sha256HexSize
deriving DecidableEq

/-- The zeroed manifest. -/
def Manifest.zero : Manifest where
  format := 0
  role := .unknown
  board := .zero _
  target := .zero _
  version := .zero _
  imageSize := 0
  imageSha256 := .zero _

/-- `parse_manifest_line`: the value of the first line, which must carry `key`, and the text
after it. -/
def parseManifestLine (key text : Bytes) : Except Int (Bytes × Bytes) :=
  let line := text.takeWhile (· ≠ 10)
  if line.length = text.length then .error errFormat else
  if line.length ≤ key.length ∨ line.take key.length ≠ key ∨ line.getD key.length 0 ≠ 61 then
    .error errFormat else
  let value := line.drop (key.length + 1)
  let value := if value.getLast? = some 13 then value.dropLast else value
  if value = [] then .error errFormat else .ok (value, text.drop (line.length + 1))

/-- `copy_manifest_text`. -/
def copyManifestText (size : Nat) (allowed : UInt8 → Bool) (value : Bytes) :
    Except Int (Text size) :=
  if value = [] ∨ size ≤ value.length ∨ ¬value.all allowed then .error errFormat
  else .ok (.copy size value)

/-- `parse_u64_decimal`: a positive 64-bit number. -/
def parseU64Decimal (value : Bytes) : Except Int UInt64 := do
  let parsed ← decimalDigits 0 value
  if parsed = 0 then .error errFormat else .ok (UInt64.ofNat parsed)

/-- The role a manifest names. -/
def parseRole (value : Bytes) : Except Int ImageRole :=
  if value = ascii "app" then .ok .app
  else if value = ascii "h2loader" then .ok .h2loader
  else .error errFormat

/-- `h2_loader_package_manifest_parse`. -/
def manifestParse (data : Bytes) : Except Int Manifest := do
  if data = [] ∨ 512 < data.length then .error errInvalidArg
  let (format, text) ← parseManifestLine (ascii "format") data
  if format ≠ ascii "1" then .error errFormat
  let (role, text) ← parseManifestLine (ascii "role") text
  let role ← parseRole role
  let (board, text) ← parseManifestLine (ascii "board") text
  let board ← copyManifestText identityTextMax isIdentityToken board
  let (target, text) ← parseManifestLine (ascii "target") text
  let target ← copyManifestText identityTextMax isIdentityToken target
  let (version, text) ← parseManifestLine (ascii "version") text
  let version ← copyManifestText identityTextMax isVersionChar version
  let (imageSize, text) ← parseManifestLine (ascii "image_size") text
  let imageSize ← parseU64Decimal imageSize
  let (sha256, text) ← parseManifestLine (ascii "image_sha256") text
  if ¬isLowerSha256Hex sha256 ∨ text ≠ [] then .error errFormat
  .ok {
    format := 1
    role
    board
    target
    version
    imageSize
    imageSha256 := .copy _ sha256 }

end Gizos.Loader
