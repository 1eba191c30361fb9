import Gizos.Bundle.Installer

/-! # Where the tar state machine stands

The place of the state machine in the archive, and what it knows apart from that. Contents that
are taken go to the buffers and the storage.
-/
namespace Gizos.Bundle

open Fault Pal

namespace TarState

/-- Where the state machine stands in the archive, apart from what the next bytes are. -/
def cursor (state : TarState) : Bytes × Nat × Nat × Nat × Bool × Bool :=
  (state.header, state.remaining, state.paddingRemaining, state.zeroBlocks, state.done,
    state.dataDigest)

/-- What the state machine knows apart from where it stands. -/
def payload (state : TarState) : TarState :=
  { state with
    kind := .header
    header := []
    remaining := 0
    paddingRemaining := 0
    zeroBlocks := 0
    done := false }

/-- Content bytes go into the data digest, if there is one. -/
def hashing (data : Bytes) (state : TarState) : TarState :=
  if state.hashingDataEntry then { state with hashed := state.hashed ++ data } else state

/-- Content bytes have been taken. -/
def advance (crc32 : Crc32Api) (data : Bytes) (state : TarState) : TarState :=
  { state with
    entryCrc32 := crc32.update state.entryCrc32 data
    remaining := state.remaining - data.length }

theorem stands_hashing (data : Bytes) (state : TarState) :
    ((state.hashing data).kind, (state.hashing data).cursor) = (state.kind, state.cursor) := by
  unfold hashing
  split <;> rfl

end TarState

/-- What follows the contents of an entry with some padding. -/
def kindAfter (padding : Nat) : TarKind := if 0 < padding then .padding else .header

/-- What follows the header of an entry. -/
def kindOf (entry : Entry) : TarKind := if entry.size = 0 then .header else .file

namespace InstallOptions

variable {options : InstallOptions} {state : TarState} {store : Storage} {admits : Answer → Prop}
  {onReturn : Unit → TarState × Storage → Prop} {onFail : Int → TarState × Storage → Prop}
  {onReset : TarState × Storage → Prop}

/-- Contents go to the buffers and the storage, and change no other variable. -/
theorem leaves_putContent {γ : Type} (view : TarState → γ)
    (pixa : ∀ state data, view { state with pixaData := data } = view state)
    (checksum : ∀ state data, view { state with checksumData := data } = view state)
    (state : TarState) (data : Bytes) :
    Leaves (fun state : TarState × Storage => view state.1) (options.putContent state data) := by
  have file : Leaves (fun state : TarState × Storage => view state.1) (putFile state data) := by
    unfold putFile
    split
    · exact .bind (.on fun _ _ => rfl) fun _ => .update fun _ => pixa _ _
    · split
      · exact .recovering (.on fun _ _ => rfl) fun _ => .fail _
      · exact .fail _
  unfold putContent
  split
  · exact .bind (.require _ _) fun _ => .update fun _ => checksum _ _
  · split
    · exact .on fun _ _ => rfl
    · exact .fail _
  · exact .pure _
  · exact file
  · exact file

/-- The end of an entry, after the change to the data digest that comes first. -/
theorem ensures_finishRehashed
    (ends : ∀ later, (∃ hashed hashing, later =
        { state with hashed := hashed, hashingDataEntry := hashing }) →
      Ensures admits (match later.output with
      | .checksum => options.finishChecksumEntry.withCleanup (assign afterContent)
      | .app => options.finishAppEntry later.appEntry
      | .skip => assign afterContent
      | .fs | .none => do
        options.verifyManifestEntry.recovering options.giveUp
        (options.finishFile later).withCleanup
          (assign fun state => afterContent { state with pixaData := [] }))
      onReturn onFail onReset (later, store)) :
    Ensures admits options.finishFileEntry onReturn onFail onReset (state, store) := by
  refine .bind (.update (.bind (.read (ends _ ?_))))
  dsimp only
  split
  · exact ⟨_, _, rfl⟩
  · exact ⟨_, _, rfl⟩

theorem ensures_unchecked (unchecked : options.manifest = none)
    (returns : onReturn () (state, store)) :
    Ensures admits (options.verifyManifestEntry.recovering options.giveUp) onReturn onFail onReset
      (state, store) := by
  refine .recovering ?_
  unfold verifyManifestEntry
  rw [unchecked]
  exact .pure returns

end InstallOptions

end Gizos.Bundle
