import Gizos.Text

/-! # Bundle paths and tar headers

Path checks and the header parser of the bundle library (`h2_bundle_path.c`,
`h2_bundle_tar.c`). Paths are the strings themselves, without their terminator.
-/
namespace Gizos.Bundle

open Codec

/-- The bytes of a string constant. -/
def ascii (text : String) : Bytes := text.toList.map fun char => UInt8.ofNat char.toNat

/-- `H2_BUNDLE_ERR_NO_SPACE`. -/
def errNoSpace : Int := -3
/-- `H2_BUNDLE_ERR_FS`. -/
def errFs : Int := -5
/-- `H2_BUNDLE_ERR_ZLIB`. -/
def errZlib : Int := -6
/-- `H2_BUNDLE_ERR_TAR`. -/
def errTar : Int := -7
/-- `H2_BUNDLE_ERR_UNSAFE_PATH`. -/
def errUnsafePath : Int := -8
/-- `H2_BUNDLE_ERR_UNSUPPORTED_ENTRY`. -/
def errUnsupportedEntry : Int := -9
/-- `H2_BUNDLE_ERR_PIXA`. -/
def errPixa : Int := -10
/-- `H2_BUNDLE_ERR_LAYOUT`. -/
def errLayout : Int := -12

/-- `H2_BUNDLE_PATH_MAX`. -/
def pathMax : Nat := 384

/-- The byte `/`. -/
def slash : UInt8 := 47
/-- The byte `\`. -/
def backslash : UInt8 := 92
/-- The byte `:`. -/
def colon : UInt8 := 58
/-- The byte `.`. -/
def dot : UInt8 := 46

/-- A path component that is neither empty nor a relative step. -/
def componentSafe (component : Bytes) : Bool :=
  component ≠ [] && component ≠ [dot] && component ≠ [dot, dot]

/-- The loop of `h2_bundle_path_is_safe_relative`, with the component read so far. -/
def componentsSafe : Bytes → Bytes → Bool
  | component, [] => componentSafe component
  | component, ch :: rest =>
    if ch = colon ∨ ch = backslash then false
    else if ch ≠ slash then componentsSafe (component ++ [ch]) rest
    else componentSafe component && componentsSafe [] rest

/-- `h2_bundle_path_is_safe_relative`. -/
def pathIsSafeRelative (path : Bytes) : Bool :=
  match path with
  | [] => false
  | first :: _ => first ≠ slash && first ≠ backslash && componentsSafe [] path

/-- `h2_bundle_path_join`, for a buffer of `capacity` bytes. -/
def pathJoin (capacity : Nat) (root relativePath : Bytes) : Except Int Bytes :=
  if ¬pathIsSafeRelative relativePath then .error errUnsafePath else
  let separator := if root ≠ [] ∧ root.getLast? ≠ some slash then [slash] else []
  let joined := root ++ separator ++ relativePath
  if joined.length + 1 > capacity then .error errNoSpace else .ok joined

/-- A root with a relative path behind it. -/
def joined (root relative : Bytes) : Bytes :=
  root ++ (if root ≠ [] ∧ root.getLast? ≠ some slash then [slash] else []) ++ relative

theorem pathJoin_ok {capacity : Nat} {root relative path : Bytes}
    (made : pathJoin capacity root relative = .ok path) :
    pathIsSafeRelative relative = true ∧ path = joined root relative := by
  unfold pathJoin at made
  split at made
  · cases made
  rename_i safe
  change (if (joined root relative).length + 1 > capacity then Except.error errNoSpace
    else .ok (joined root relative)) = .ok path at made
  split at made
  · cases made
  · cases made
    exact ⟨by simpa using safe, rfl⟩

/-- `h2_bundle_path_has_suffix`. -/
def pathHasSuffix (path suffix : Bytes) : Bool :=
  suffix.length ≤ path.length && path.drop (path.length - suffix.length) = suffix

/-- Path of the manifest entry. -/
def manifestPath : Bytes := ascii "manifest"
/-- Path of the checksum entry. -/
def checksumPath : Bytes := ascii "checksum"
/-- Path of the data directory. -/
def dataPath : Bytes := ascii "data"
/-- Path of the application directory. -/
def appPath : Bytes := ascii "app"

/-- `path_starts_with`. -/
def pathStartsWith (path start : Bytes) : Bool := start.isPrefixOf path

/-- A path inside the data directory. -/
def isDataPath (path : Bytes) : Bool := pathStartsWith path (ascii "data/")

/-- A path inside the application directory. -/
def isAppPath (path : Bytes) : Bool := pathStartsWith path (ascii "app/")

/-- `strcmp`, as an order on strings. -/
def strcmpLt (left right : Bytes) : Bool :=
  match left, right with
  | _, [] => false
  | [], _ :: _ => true
  | l :: left, r :: right => l < r || (l = r && strcmpLt left right)

/-- `h2_bundle_entry_kind_t`. -/
inductive EntryKind where
  /-- `H2_BUNDLE_ENTRY_FILE`. -/
  | file
  /-- `H2_BUNDLE_ENTRY_DIR`. -/
  | dir
deriving Repr, DecidableEq

/-- `h2_bundle_entry_t`. -/
structure Entry where
  /-- Path of the entry inside the archive. -/
  path : Bytes
  /-- File or directory. -/
  kind : EntryKind
  /-- Content size; zero for a directory. -/
  size : Nat
deriving Repr, DecidableEq

/-- The digits of an octal field, up to its end, a blank or a zero. -/
def octalDigits : Nat → Bytes → Except Int Nat
  | value, [] => .ok value
  | value, ch :: rest =>
    if ch = 0 ∨ ch = 32 then .ok value
    else if ch < 48 ∨ 55 < ch then .error errTar
    else octalDigits (value * 8 + (ch.toNat - 48)) rest

/-- `parse_octal`. Header fields have at most twelve digits, so 64 bits never overflow. -/
def parseOctal (field : Bytes) : Except Int Nat :=
  octalDigits 0 (field.dropWhile fun ch => ch = 32 ∨ ch = 0)

/-- A field of a header block. -/
def field (block : Bytes) (offset size : Nat) : Bytes := (block.drop offset).take size

/-- Sum of bytes. -/
def byteSum (bytes : Bytes) : Nat := (bytes.map UInt8.toNat).sum

/-- `verify_checksum`: the stored sum, with its own field read as blanks. -/
def verifyChecksum (block : Bytes) : Except Int Unit := do
  let stored ← parseOctal (field block 148 8)
  let sum := byteSum (block.take 148) + 8 * 32 + byteSum (block.drop 156)
  if sum = stored then .ok () else .error errTar

/-- `copy_path`: the name field behind the path-start field. -/
def copyPath (name start : Bytes) : Except Int Bytes :=
  let name := Text.cstring name
  let start := Text.cstring start
  if name = [] then .error errTar else
  if start ≠ [] then
    if start.length + 1 + name.length + 1 > pathMax then .error errNoSpace
    else .ok (start ++ slash :: name)
  else if name.length + 1 > pathMax then .error errNoSpace
  else .ok name

/-- Removes the slashes at the end of a directory path. -/
def stripSlashes (path : Bytes) : Bytes := (path.reverse.dropWhile (· = slash)).reverse

/-- The entry a type flag makes of a size and a path. -/
def tarEntry (typeflag : UInt8) (size : Nat) (path : Bytes) : Except Int Entry :=
  if typeflag = 0 ∨ typeflag = 48 then
    if ¬pathIsSafeRelative path then .error errUnsafePath else .ok ⟨path, .file, size⟩
  else if typeflag = 53 then
    if size ≠ 0 then .error errTar
    else if ¬pathIsSafeRelative (stripSlashes path) then .error errUnsafePath
    else .ok ⟨stripSlashes path, .dir, 0⟩
  else .error errUnsupportedEntry

/-- `h2_bundle_tar_parse_header`: the entry of a header block, or nothing for a zero block. -/
def tarParseHeader (block : Bytes) : Except Int (Option Entry) :=
  if block.all (· = 0) then .ok none else do
  verifyChecksum block
  let size ← parseOctal (field block 124 12)
  let path ← copyPath (field block 0 100) (field block 345 155)
  let entry ← tarEntry (block.getD 156 0) size path
  .ok (some entry)

/-- `h2_bundle_tar_padding`. -/
def tarPadding (size : Nat) : Nat := if size % 512 = 0 then 0 else 512 - size % 512

/-- A sequence that succeeds does so step by step. -/
theorem bind_eq_ok {α β : Type} {first : Except Int α} {next : α → Except Int β} {result : β} :
    (first >>= next) = .ok result ↔ ∃ value, first = .ok value ∧ next value = .ok result := by
  cases first with
  | error code => exact ⟨nofun, nofun⟩
  | ok value =>
    constructor
    · intro rest
      exact ⟨value, rfl, rest⟩
    · rintro ⟨_, ⟨⟩, rest⟩
      exact rest

theorem tarParseHeader_entry {block : Bytes} {entry : Entry}
    (parsed : tarParseHeader block = .ok (some entry)) :
    ∃ size path, copyPath (field block 0 100) (field block 345 155) = .ok path ∧
      tarEntry (block.getD 156 0) size path = .ok entry := by
  unfold tarParseHeader at parsed
  split at parsed
  · cases parsed
  obtain ⟨-, -, parsed⟩ := bind_eq_ok.mp parsed
  obtain ⟨size, -, parsed⟩ := bind_eq_ok.mp parsed
  obtain ⟨path, copied, parsed⟩ := bind_eq_ok.mp parsed
  obtain ⟨found, made, parsed⟩ := bind_eq_ok.mp parsed
  cases parsed
  exact ⟨size, path, copied, made⟩

theorem tarParseHeader_safe {block : Bytes} {entry : Entry}
    (parsed : tarParseHeader block = .ok (some entry)) :
    pathIsSafeRelative entry.path = true ∧ (entry.kind = .dir → entry.size = 0) := by
  obtain ⟨size, path, -, made⟩ := tarParseHeader_entry parsed
  unfold tarEntry at made
  split at made
  · split at made
    · cases made
    · rename_i safe
      cases made
      exact ⟨by simpa using safe, nofun⟩
  · split at made
    · split at made
      · cases made
      · split at made
        · cases made
        · rename_i safe
          cases made
          exact ⟨by simpa using safe, fun _ => rfl⟩
    · cases made

theorem copyPath_string {name start path : Bytes} (copied : copyPath name start = .ok path) :
    0 ∉ path := by
  have nameString : 0 ∉ Text.cstring name := fun member => Text.cstring_nonzero member rfl
  have startString : 0 ∉ Text.cstring start := fun member => Text.cstring_nonzero member rfl
  unfold copyPath at copied
  dsimp only at copied
  split at copied
  · cases copied
  split at copied
  · split at copied
    · cases copied
    · cases copied
      simp [slash, nameString, startString]
  · split at copied
    · cases copied
    · cases copied
      exact nameString

theorem tarParseHeader_string {block : Bytes} {entry : Entry}
    (parsed : tarParseHeader block = .ok (some entry)) : 0 ∉ entry.path := by
  obtain ⟨size, path, copied, made⟩ := tarParseHeader_entry parsed
  have string := copyPath_string copied
  have stripped : 0 ∉ stripSlashes path := by
    intro member
    have kept := (List.dropWhile_suffix (· = slash)).subset (List.mem_reverse.mp member)
    exact string (List.mem_reverse.mp kept)
  unfold tarEntry at made
  split at made
  · split at made
    · cases made
    · cases made
      exact string
  · split at made
    · split at made
      · cases made
      · split at made
        · cases made
        · cases made
          exact stripped
    · cases made

end Gizos.Bundle
