import Gizos.Loader.Image
import Gizos.Loader.Preferences

/-! # Stage and partition records

The records of `h2_loader_metadata.c`: one blob for the staged package and one for each
executable partition, with the checks made on both ways between a record and its blob.
-/
namespace Gizos.Loader

open Fault Pal Codec Gizos.Bundle Layout Text

variable {data : Bytes} {onReturn : Unit → Preferences → Prop}

/-- `h2_loader_metadata_slot_t`. -/
inductive Slot where
  | stage
  | partition1
  | partition2
deriving Repr, DecidableEq

/-- The word that stands for a slot in a blob. -/
def Slot.word : Slot → UInt32
  | .stage => 1
  | .partition1 => 2
  | .partition2 => 3

/-- The value stored under the key of a slot. -/
def Preferences.slot (pref : Preferences) : Slot → Option Bytes
  | .stage => pref.stage
  | .partition1 => pref.partition1
  | .partition2 => pref.partition2

/-- Replaces the value under the key of a slot. -/
def Preferences.withSlot (pref : Preferences) : Slot → Option Bytes → Preferences
  | .stage, value => { pref with stage := value }
  | .partition1, value => { pref with partition1 := value }
  | .partition2, value => { pref with partition2 := value }

/-- `h2_loader_metadata_t`. -/
structure Metadata where
  /-- The record says something. -/
  valid : Bool
  /-- Digest of the source package, or an empty string. -/
  packageChecksum : Text sha256HexSize
  /-- Size of the source package. -/
  packageSize : UInt64
  /-- Digest of the image. -/
  imageChecksum : Text sha256HexSize
  imageSize : UInt64
  role : ImageRole
  /-- Version of the image. -/
  version : Text identityTextMax
  /-- Board of the image. -/
  board : Text identityTextMax
  /-- Target of the image. -/
  target : Text identityTextMax
deriving DecidableEq

/-- The zeroed record, which is also the invalid one that is written. -/
def Metadata.zero : Metadata where
  valid := false
  packageChecksum := .zero _
  packageSize := 0
  imageChecksum := .zero _
  imageSize := 0
  role := .unknown
  version := .zero _
  board := .zero _
  target := .zero _

/-- `checksum_valid`. -/
def checksumValid (value : Text sha256HexSize) (optional : Bool) : Bool :=
  if value.string = [] then optional
  else (value.bytes.take 64).all isHex && value.bytes.getD 64 0 = 0

theorem checksumValid_eq (value : Text sha256HexSize) (optional : Bool) :
    checksumValid value optional =
      if value.string = [] then optional else isSha256Hex value.string := by
  unfold checksumValid
  split
  · rfl
  have size : value.bytes.length = 65 := value.length_eq
  rw [Bool.eq_iff_iff, Bool.and_eq_true, decide_eq_true_eq, isSha256Hex, Bool.and_eq_true,
    decide_eq_true_eq]
  constructor
  · rintro ⟨hex, zero⟩
    have nonzero : ∀ byte ∈ value.bytes.take 64, byte ≠ 0 := by
      rintro byte mem rfl
      exact absurd (List.all_eq_true.mp hex 0 mem) (by decide)
    have parts : value.bytes = value.bytes.take 64 ++ 0 :: value.bytes.drop 65 := by
      have here : value.bytes.getD 64 0 = value.bytes[64] := List.getD_eq_getElem _ _ (by omega)
      rw [← zero, here, List.getElem_cons_drop, List.take_append_drop]
    have whole : value.string = value.bytes.take 64 := by
      rw [Text.string, parts]
      exact (cstring_append_zero nonzero _).trans (by rw [← parts])
    rw [whole]
    exact ⟨by rw [List.length_take]; omega, hex⟩
  · rintro ⟨length, hex⟩
    rcases cstring_split value.bytes with whole | ⟨rest, parts⟩
    · have := congrArg List.length whole
      change value.string.length = _ at this
      omega
    · change value.bytes = value.string ++ 0 :: rest at parts
      rw [parts, List.take_left' length, List.getD_append_right _ _ _ _ (by omega), length]
      exact ⟨hex, rfl⟩

/-- `text_valid`. -/
def textValid (value : Text identityTextMax) : Bool :=
  value.string ≠ [] && value.string.length < identityTextMax

variable (slot : Slot)

/-- `h2_loader_metadata_validate`. -/
def metadataValidate (metadata : Metadata) : Bool :=
  !metadata.valid ||
    (checksumValid metadata.imageChecksum false && metadata.imageSize ≠ 0 &&
      (metadata.role = .app || metadata.role = .h2loader) &&
      textValid metadata.version && textValid metadata.board && textValid metadata.target &&
      match slot with
      | .stage => checksumValid metadata.packageChecksum false && metadata.packageSize ≠ 0
      | _ => checksumValid metadata.packageChecksum true &&
          (metadata.packageChecksum.string = [] ↔ metadata.packageSize = 0))

/-- The fields of a blob, in their order. -/
structure Blob where
  /-- `H2_LOADER_METADATA_MAGIC`. -/
  magic : UInt32
  /-- `H2_LOADER_METADATA_FORMAT`. -/
  format : UInt32
  slot : UInt32
  /-- One for a valid record. -/
  valid : UInt32
  /-- Role of the image. -/
  role : UInt32
  /-- Size of the source package. -/
  packageSize : UInt64
  imageSize : UInt64
  /-- Digest of the source package. -/
  packageChecksum : Text sha256HexSize
  /-- Digest of the image. -/
  imageChecksum : Text sha256HexSize
  /-- Version of the image. -/
  version : Text identityTextMax
  /-- Board of the image. -/
  board : Text identityTextMax
  /-- Target of the image. -/
  target : Text identityTextMax

/-- The encoded form of a record. -/
def blobLayout : Layout Blob :=
  (Layout.u32.pair <| .pair .u32 <| .pair .u32 <| .pair .u32 <| .pair .u32 <|
    .pair .u64 <| .pair .u64 <| .pair (Text.layout sha256HexSize) <|
    .pair (Text.layout sha256HexSize) <| .pair (Text.layout identityTextMax) <|
    .pair (Text.layout identityTextMax) (Text.layout identityTextMax)).map
    (fun ⟨magic, format, slot, valid, role, packageSize, imageSize, packageChecksum,
        imageChecksum, version, board, target⟩ =>
      ⟨magic, format, slot, valid, role, packageSize, imageSize, packageChecksum,
        imageChecksum, version, board, target⟩)
    (fun blob => ⟨blob.magic, blob.format, blob.slot, blob.valid, blob.role, blob.packageSize,
      blob.imageSize, blob.packageChecksum, blob.imageChecksum, blob.version, blob.board,
      blob.target⟩)

/-- `H2_LOADER_METADATA_MAGIC`. -/
def metadataMagic : UInt32 := 0x484d4432
/-- `H2_LOADER_METADATA_FORMAT`. -/
def metadataFormat : UInt32 := 1

/-- The blob of a record. -/
def Metadata.blob (metadata : Metadata) : Blob where
  magic := metadataMagic
  format := metadataFormat
  slot := slot.word
  valid := if metadata.valid then 1 else 0
  role := metadata.role.value
  packageSize := metadata.packageSize
  imageSize := metadata.imageSize
  packageChecksum := metadata.packageChecksum
  imageChecksum := metadata.imageChecksum
  version := metadata.version
  board := metadata.board
  target := metadata.target

/-- The record of a blob. -/
def Blob.metadata (blob : Blob) : Metadata where
  valid := blob.valid ≠ 0
  packageChecksum := blob.packageChecksum
  packageSize := blob.packageSize
  imageChecksum := blob.imageChecksum
  imageSize := blob.imageSize
  role := ⟨blob.role⟩
  version := blob.version
  board := blob.board
  target := blob.target

/-- All character arrays of a record end in a terminator. -/
structure Metadata.Terminated (metadata : Metadata) : Prop where
  packageChecksum : metadata.packageChecksum.Terminated
  imageChecksum : metadata.imageChecksum.Terminated
  version : metadata.version.Terminated
  board : metadata.board.Terminated
  target : metadata.target.Terminated

instance (metadata : Metadata) : Decidable metadata.Terminated :=
  decidable_of_iff (metadata.packageChecksum.Terminated ∧ metadata.imageChecksum.Terminated ∧
      metadata.version.Terminated ∧ metadata.board.Terminated ∧ metadata.target.Terminated)
    ⟨fun ⟨a, b, c, d, e⟩ => ⟨a, b, c, d, e⟩, fun ⟨a, b, c, d, e⟩ => ⟨a, b, c, d, e⟩⟩

/-- `h2_loader_metadata_encode`. -/
def metadataEncode (metadata : Metadata) : Option Bytes :=
  if metadataValidate slot metadata then some (blobLayout.encode (metadata.blob slot)) else none

/-- `h2_loader_metadata_decode`. -/
def metadataDecode (data : Bytes) : Option Metadata :=
  if data.length ≠ blobLayout.width then none else
  let blob := blobLayout.decode data
  if blob.magic = metadataMagic ∧ blob.format = metadataFormat ∧ blob.slot = slot.word ∧
      blob.valid ≤ 1 ∧ blob.metadata.Terminated ∧ metadataValidate slot blob.metadata then
    some blob.metadata
  else none

/-- `h2_loader_metadata_read`: what it leaves in the record, and its result, which says whether one
was there. A missing record reads as the zeroed one, and a malformed one is an error unless the
close fails first. -/
def metadataLoad : Routine Preferences (Metadata × Except Int Bool) := do
  match ← (probe : Routine Preferences Unit).attempt with
  | .error code => pure (.zero, if code = errNotFound then .ok false else .error code)
  | .ok _ =>
    let found ← (lookup fun pref : Preferences => pref.slot slot).attempt
    let closed ← (probe : Routine Preferences Unit).attempt
    match found, closed with
    | .error code, .ok _ => pure (.zero, if code = errNotFound then .ok false else .error code)
    | .error code, .error closeCode =>
      pure (.zero, .error (if code = errNotFound ∨ code = errFormat then closeCode else code))
    | .ok blob, closed =>
      match metadataDecode slot blob with
      | some metadata => pure (metadata, closed.map fun _ => true)
      | none => pure (.zero, closed.bind fun _ => .error errFormat)

/-- The same for a caller that drops the record when the read fails. -/
def metadataRead : Routine Preferences (Metadata × Bool) := do
  let (metadata, result) ← metadataLoad slot
  let present ← Program.conclude result
  pure (metadata, present)

/-- `h2_loader_metadata_write`. -/
def metadataWrite (metadata : Metadata) : Routine Preferences Unit :=
  match metadataEncode slot metadata with
  | none => Program.fail errInvalidArg
  | some data => transaction probe fun pref => pref.withSlot slot (some data)

/-- `h2_loader_metadata_clear`. -/
def metadataClear : Routine Preferences Unit :=
  transaction
    (probe.recovering fun code => if code = errNotFound then pure () else Program.fail code)
    fun pref => pref.withSlot slot none

/-- `h2_loader_metadata_from_stage`. -/
def metadataFromStage (stage : Metadata) : Except Int Metadata :=
  if metadataValidate .stage stage ∧ stage.valid then .ok stage else .error errInvalidArg

/-- `h2_loader_metadata_image_equal`. -/
def metadataImageEqual (a b : Metadata) : Bool :=
  a.valid && b.valid && a.imageSize = b.imageSize && a.role = b.role &&
    a.imageChecksum.string = b.imageChecksum.string && a.version.string = b.version.string &&
    a.board.string = b.board.string && a.target.string = b.target.string

@[simp] theorem Preferences.slot_withSlot (pref : Preferences) (slot : Slot)
    (value : Option Bytes) : (pref.withSlot slot value).slot slot = value := by
  cases slot <;> rfl

variable {slot}

theorem Preferences.slot_withSlot_of_ne (pref : Preferences) {other : Slot} (value : Option Bytes)
    (different : other ≠ slot) :
    (pref.withSlot slot value).slot other = pref.slot other := by
  cases slot <;> cases other <;> first | rfl | exact absurd rfl different

theorem blobLayout_exact : blobLayout.Exact :=
  (u32_exact.pair <| .pair u32_exact <| .pair u32_exact <|
    .pair u32_exact <| .pair u32_exact <| .pair u64_exact <|
    .pair u64_exact <| .pair (layout_exact _) <| .pair (layout_exact _) <|
    .pair (layout_exact _) <| .pair (layout_exact _) (layout_exact _)).map
    (fun _ => rfl) (fun _ => rfl)

theorem Metadata.metadata_blob (slot : Slot) (metadata : Metadata) :
    (metadata.blob slot).metadata = metadata := by
  obtain ⟨valid, _, _, _, _, _, _, _, _⟩ := metadata
  cases valid <;> rfl

variable {metadata : Metadata}

theorem metadataEncode_some (encoded : metadataEncode slot metadata = some data) :
    metadataValidate slot metadata = true ∧ data = blobLayout.encode (metadata.blob slot) := by
  unfold metadataEncode at encoded
  split at encoded
  · rename_i valid
    exact ⟨valid, (Option.some.inj encoded).symm⟩
  · cases encoded

theorem metadataDecode_some (decoded : metadataDecode slot data = some metadata) :
    metadata = (blobLayout.decode data).metadata ∧ metadata.Terminated ∧
      metadataValidate slot metadata = true := by
  unfold metadataDecode at decoded
  split at decoded
  · cases decoded
  · dsimp only at decoded
    split at decoded
    · rename_i accepted
      cases decoded
      exact ⟨rfl, accepted.2.2.2.2⟩
    · cases decoded

theorem metadataDecode_encode_eq {other : Metadata}
    (encoded : metadataEncode slot metadata = some data)
    (decoded : metadataDecode slot data = some other) : other = metadata := by
  obtain ⟨-, rfl⟩ := metadataEncode_some encoded
  rw [(metadataDecode_some decoded).1, blobLayout_exact.decode_encode, Metadata.metadata_blob]

theorem metadataDecode_encode (terminated : metadata.Terminated)
    (encoded : metadataEncode slot metadata = some data) :
    metadataDecode slot data = some metadata := by
  obtain ⟨valid, rfl⟩ := metadataEncode_some encoded
  have size : (blobLayout.encode (metadata.blob slot)).length = blobLayout.width :=
    blobLayout_exact.size _
  have same := Metadata.metadata_blob slot metadata
  have flag : (metadata.blob slot).valid ≤ 1 := by
    unfold Metadata.blob
    dsimp only
    split <;> decide
  unfold metadataDecode
  rw [if_neg (not_not_intro size)]
  dsimp only
  rw [blobLayout_exact.decode_encode, same, if_pos ⟨rfl, rfl, rfl, flag, terminated, valid⟩]

/-- Bytes that are accepted for a slot are those of the record that they are read as. -/
theorem metadataEncode_decode (decoded : metadataDecode slot data = some metadata) :
    metadataEncode slot metadata = some data := by
  have valid := (metadataDecode_some decoded).2.2
  unfold metadataDecode at decoded
  split at decoded
  · cases decoded
  · rename_i width
    dsimp only at decoded
    split at decoded
    · rename_i accepted
      obtain ⟨magic, format, word, flag, -⟩ := accepted
      cases decoded
      have restored : (blobLayout.decode data).metadata.blob slot = blobLayout.decode data := by
        generalize blobLayout.decode data = blob at magic format word flag
        have bit : (if blob.valid = 0 then (0 : UInt32) else 1) = blob.valid := by
          split
          · rename_i unset
            exact unset.symm
          · rename_i set
            have low : blob.valid.toNat ≤ 1 := flag
            have high : blob.valid.toNat ≠ 0 := fun zero => set (UInt32.toNat_inj.1 zero)
            exact UInt32.toNat_inj.1 (show 1 = blob.valid.toNat by omega)
        cases blob
        simp_all [Metadata.blob, Blob.metadata]
      unfold metadataEncode
      rw [if_pos valid, restored, blobLayout_exact.encode_decode _ (not_not.1 width)]
    · cases decoded

/-- The bytes name the slot that they are accepted for. -/
theorem metadataDecode_word (decoded : metadataDecode slot data = some metadata) :
    (blobLayout.decode data).slot = slot.word := by
  obtain ⟨-, rfl⟩ := metadataEncode_some (metadataEncode_decode decoded)
  rw [blobLayout_exact.decode_encode]
  rfl

/-- A record that encoding accepts reads back as itself exactly if the last byte of each of its
character arrays is zero: `text_valid` looks for a terminator anywhere in an array, an empty
checksum or an invalid record is not looked at, and decoding asks for a zero in the last byte. The
bytes that decoding accepts are those of the record they are read as, and name one slot. -/
theorem metadata_round_trip_iff (slot : Slot) (metadata : Metadata) (data : Bytes) :
    (metadataEncode slot metadata = some data →
      (metadataDecode slot data = some metadata ↔ metadata.Terminated)) ∧
    (metadataDecode slot data = some metadata → metadataEncode slot metadata = some data) ∧
    ∀ other, metadataDecode slot data ≠ none → metadataDecode other data ≠ none → other = slot := by
  refine ⟨?_, ?_, ?_⟩
  · intro encoded
    constructor
    · intro decoded
      exact (metadataDecode_some decoded).2.1
    · intro terminated
      exact metadataDecode_encode terminated encoded
  · intro decoded
    exact metadataEncode_decode decoded
  · intro other accepted also
    obtain ⟨first, decoded⟩ := Option.ne_none_iff_exists'.1 accepted
    obtain ⟨second, decoded'⟩ := Option.ne_none_iff_exists'.1 also
    have same := (metadataDecode_word decoded').symm.trans (metadataDecode_word decoded)
    cases slot <;> cases other <;> first | rfl | exact absurd same (by decide)

namespace Sample

/-- A record of partition 1 whose version is the string of one character, in an array with a last
byte. -/
def record (last : UInt8) : Metadata where
  valid := true
  packageChecksum := .zero _
  packageSize := 0
  imageChecksum := .copy _ (List.replicate 64 97)
  imageSize := 1
  role := .app
  version := .ofBytes _ (49 :: List.replicate (identityTextMax - 2) 0 ++ [last])
  board := .copy _ [98]
  target := .copy _ [116]

end Sample

/-- The version ends after one character, and the array has another one in its last byte: the record
is encoded, and can not be read back. -/
theorem metadata_unreadable :
    textValid (Sample.record 120).version = true ∧
      ∃ data, metadataEncode .partition1 (Sample.record 120) = some data ∧
        metadataDecode .partition1 data = none := by
  refine ⟨by decide +kernel, blobLayout.encode ((Sample.record 120).blob .partition1), ?_, ?_⟩
  · unfold metadataEncode
    rw [if_pos (by decide +kernel)]
  · decide +kernel

/-- The same record with zeros after the version reads back. -/
theorem metadata_round_trip_iff_zeroed :
    ∃ data, metadataEncode .partition1 (Sample.record 0) = some data ∧
      metadataDecode .partition1 data = some (Sample.record 0) := by
  have encoded : metadataEncode .partition1 (Sample.record 0) =
      some (blobLayout.encode ((Sample.record 0).blob .partition1)) := by
    unfold metadataEncode
    rw [if_pos (by decide +kernel)]
  exact ⟨_, encoded, ((metadata_round_trip_iff _ _ _).1 encoded).2 (by decide +kernel)⟩

theorem metadataEncode_zero (slot : Slot) :
    metadataEncode slot .zero = some (blobLayout.encode (Metadata.zero.blob slot)) := rfl

theorem Metadata.zero_terminated : Metadata.zero.Terminated := by
  decide

section Rules

variable {admits : Answer → Prop} {onFail : Int → Preferences → Prop}
  {onReset : Preferences → Prop} {pref : Preferences}

/-- Reading a record never writes. -/
theorem leaves_metadataLoad {γ : Type} (view : Preferences → γ) (slot : Slot) :
    Leaves view (metadataLoad slot) := by
  refine .bind (leaves_probe view).attempt fun opened => ?_
  cases opened with
  | error code => exact .pure _
  | ok _ =>
    refine .bind (leaves_lookup view _).attempt fun found =>
      .bind (leaves_probe view).attempt fun closed => ?_
    cases found with
    | error code => cases closed <;> exact .pure _
    | ok blob =>
      dsimp only
      split <;> exact .pure _

/-- A read returns the stored record, or says that there is none when there is none or the
platform says so. -/
theorem ensures_metadataLoad {onReturn : Metadata × Except Int Bool → Preferences → Prop}
    (absent : pref.slot slot = none ∨ Answer.Reports admits errNotFound →
      onReturn (.zero, .ok false) pref)
    (decoded : ∀ blob metadata, pref.slot slot = some blob →
      metadataDecode slot blob = some metadata → onReturn (metadata, .ok true) pref)
    (fails : ∀ metadata code, onReturn (metadata, .error code) pref) (resets : onReset pref) :
    Ensures admits (metadataLoad slot) onReturn onFail onReset pref := by
  apply Ensures.bind
  apply Ensures.attempt
  refine ensures_probe ?_ (fun code reports => .pure ?_) resets
  · apply Ensures.bind
    apply Ensures.attempt
    refine ensures_lookup (fun blob found => ?_) (fun code missing => ?_) resets
    · apply Ensures.bind
      apply Ensures.attempt
      cases read : metadataDecode slot blob with
      | none =>
        refine ensures_probe ?_ (fun code _ => ?_) resets
        all_goals
          dsimp only
          rw [read]
          exact .pure (fails _ _)
      | some metadata =>
        refine ensures_probe ?_ (fun code _ => ?_) resets <;> dsimp only <;> rw [read]
        · exact .pure (decoded blob metadata found read)
        · exact .pure (fails _ _)
    · apply Ensures.bind
      apply Ensures.attempt
      refine ensures_probe (.pure ?_) (fun _ _ => .pure (fails _ _)) resets
      split
      · rename_i same
        exact absent (missing.imp And.right fun reports => same ▸ reports)
      · exact fails _ _
  · split
    · rename_i same
      exact absent (.inr (same ▸ reports))
    · exact fails _ _

theorem ensures_metadataRead {onReturn : Metadata × Bool → Preferences → Prop}
    (absent : pref.slot slot = none ∨ Answer.Reports admits errNotFound →
      onReturn (.zero, false) pref)
    (decoded : ∀ blob metadata, pref.slot slot = some blob →
      metadataDecode slot blob = some metadata → onReturn (metadata, true) pref)
    (fails : ∀ code, onFail code pref) (resets : onReset pref) :
    Ensures admits (metadataRead slot) onReturn onFail onReset pref :=
  .bind (ensures_metadataLoad (fun missing => .bind (.ret (.pure (absent missing))))
    (fun blob metadata found read => .bind (.ret (.pure (decoded blob metadata found read))))
    (fun _ code => .bind (.fail (fails code))) resets)

/-- A working platform reads a record, unless it does not decode. -/
theorem works_metadataLoad {onReturn : Metadata × Except Int Bool → Preferences → Prop}
    (absent : pref.slot slot = none → onReturn (.zero, .ok false) pref)
    (stored : ∀ blob, pref.slot slot = some blob →
      onReturn (match metadataDecode slot blob with
        | some metadata => (metadata, .ok true)
        | none => (.zero, .error errFormat)) pref) :
    Ensures Answer.Works (metadataLoad slot) onReturn onFail onReset pref := by
  intro answers works time
  simp only [metadataLoad, Bind.bind, Program.andThen, Program.attempt, lookup, Program.read,
    probe_works works]
  cases found : pref.slot slot with
  | none => exact absent found
  | some blob =>
    have returns := stored blob found
    cases read : metadataDecode slot blob <;>
    · rw [read] at returns
      simp only [Pure.pure, Program.ret, read]
      exact returns

theorem ensures_metadataWrite
    (returns : ∀ data, metadataEncode slot metadata = some data →
      onReturn () (pref.withSlot slot (some data))) (failsBefore : ∀ code, onFail code pref)
    (failsAfter : ∀ code data, metadataEncode slot metadata = some data →
      onFail code (pref.withSlot slot (some data))) (resetsBefore : onReset pref)
    (resetsAfter : ∀ data, metadataEncode slot metadata = some data →
      onReset (pref.withSlot slot (some data))) :
    Ensures admits (metadataWrite slot metadata) onReturn onFail onReset pref := by
  unfold metadataWrite
  cases encoded : metadataEncode slot metadata with
  | none => exact .fail (failsBefore _)
  | some data =>
    exact ensures_transaction (leaves_probe id) (returns data encoded) failsBefore
      (fun code => failsAfter code data encoded) resetsBefore (resetsAfter data encoded)

/-- A working write of a record that passes the check succeeds. -/
theorem achieves_metadataWrite (encoded : metadataEncode slot metadata = some data)
    (returns : onReturn () (pref.withSlot slot (some data))) :
    Achieves Answer.Works (metadataWrite slot metadata) onReturn pref := by
  unfold metadataWrite
  rw [encoded]
  exact achieves_transaction (achieves_probe rfl) returns

theorem ensures_metadataClear (returns : onReturn () (pref.withSlot slot none))
    (failsBefore : ∀ code, onFail code pref)
    (failsAfter : ∀ code, onFail code (pref.withSlot slot none)) (resetsBefore : onReset pref)
    (resetsAfter : onReset (pref.withSlot slot none)) :
    Ensures admits (metadataClear slot) onReturn onFail onReset pref := by
  refine ensures_transaction ?_ returns failsBefore failsAfter resetsBefore resetsAfter
  refine .bind (leaves_probe id).attempt fun result => ?_
  cases result with
  | ok _ => exact .ret _
  | error code =>
    dsimp only
    split
    · exact .pure _
    · exact .fail _

theorem achieves_metadataClear (returns : onReturn () (pref.withSlot slot none)) :
    Achieves Answer.Works (metadataClear slot) onReturn pref := by
  refine achieves_transaction ?_ returns
  apply Ensures.recovering
  exact Achieves.ensures (achieves_probe rfl)

end Rules

end Gizos.Loader
