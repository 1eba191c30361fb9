import Gizos.Tally
import Gizos.Runtime.Publication

/-! # Pinned banks

Every reader that counted itself into a slot is counted there, so a slot whose count is zero is held
by no reader, and the writer only changes a slot that is neither active nor held.
-/
namespace Gizos.Runtime

namespace Publication

variable {κ : Type} {state after : Publication κ} {index : Nat} {entry : Reader} {slot : Slot}

/-! ### What a step changes -/

variable {action : ReaderAction} {change : Reader → Reader}

/-- Whether a reader counted itself into a slot. -/
def counts (slot : Slot) (entry : Reader) : Nat :=
  if entry.phase = .counted slot ∨ entry.phase = .leaving slot ∨ entry.phase = .holding slot then 1
  else 0

/-- The slot that the writer may change. -/
def target : Writer → Option Slot
  | .wiping slot _ => some slot
  | .stamping slot _ => some slot
  | .filling slot _ => some slot
  | _ => none

/-- What one step of a reader changes: the reader itself and the reader counts. It begins to hold
only the active slot, and sees only the bank it holds. -/
structure ReaderMoves (state : Publication κ) (index : Nat) (entry : Reader)
    (change : Reader → Reader) (after : Publication κ) : Prop where
  /-- The other parts of the state stay. -/
  frame : after = { state with
    readers := state.readers.modify index change
    readerCount := after.readerCount }
  /-- Only the active slot begins to be held. -/
  holds : ∀ slot, (change entry).phase = .holding slot →
    entry.phase = .holding slot ∨ slot = state.activeIndex ∧ entry.phase = .counted slot
  /-- Only the bank that is held is seen. -/
  sees : (change entry).seen = entry.seen ∨ ∃ slot, entry.phase = .holding slot ∧
    (change entry).phase = .holding slot ∧
    (change entry).seen = entry.seen ++ [(state.banks slot).generation]

theorem readerStep_moves (stepped : state.readerStep index action entry.phase = some after) :
    ∃ change, ReaderMoves state index entry change after := by
  unfold readerStep at stepped
  split at stepped <;> cases stepped
  · exact ⟨_, rfl, fun _ held => (by cases held), .inl rfl⟩
  · exact ⟨_, rfl, fun _ held => (by cases held), .inl rfl⟩
  · rename_i slot counted
    refine ⟨_, rfl, fun other held => ?_, .inl rfl⟩
    by_cases current : slot = state.activeIndex
    · simp only [current, if_true] at held
      cases held
      exact .inr ⟨rfl, counted.trans (by rw [current])⟩
    · simp only [current, if_false] at held
      cases held
  · exact ⟨_, rfl, fun _ held => (by cases held), .inl rfl⟩
  · rename_i slot holding
    exact ⟨_, rfl, fun _ held => .inl held, .inr ⟨slot, holding, holding, rfl⟩⟩
  · rename_i slot holding
    refine ⟨_, rfl, fun other held => ?_, .inl rfl⟩
    by_cases none_left : state.readerCount slot = 0
    · simp [none_left] at held
    · simp [none_left] at held
  · exact ⟨_, rfl, fun _ held => (by cases held), .inl rfl⟩

/-! ### Readers are counted -/

/-- The reader counts are right: every reader that counted itself in is counted. -/
structure Counted (state : Publication κ) : Prop where
  few : state.readers.length < 2 ^ 32
  exact : ∀ slot, state.readerCount slot = tally (counts slot) state.readers
  sound : ∀ entry ∈ state.readers, ∀ slot, entry.phase ≠ .undoing slot

theorem counts_le_one (slot : Slot) (entry : Reader) : counts slot entry ≤ 1 := by
  unfold counts
  split <;> omega

theorem Counted.lt (counted : Counted state) (slot : Slot) :
    tally (counts slot) state.readers < 2 ^ 32 :=
  Nat.lt_of_le_of_lt (tally_le_length (counts_le_one slot)) counted.few

theorem Counted.unheld (counted : Counted state) (free : state.readerCount slot = 0)
    (entry : Reader) (member : entry ∈ state.readers) : entry.phase ≠ .holding slot := by
  intro holding
  have weight : counts slot entry = 1 := by simp [counts, holding]
  have bound : counts slot entry ≤ tally (counts slot) state.readers := le_tally member
  rw [← counted.exact slot] at bound
  omega

section

variable (counted : Counted state) (found : state.readers[index]? = some entry)
  (readers : after.readers = state.readers.modify index change)
  (sound : ∀ slot, (change entry).phase ≠ .undoing slot)

include counted found readers sound

theorem Counted.modify (follows : ∀ slot, after.readerCount slot =
      (state.readerCount slot + counts slot (change entry) + 2 ^ 32 - counts slot entry) % 2 ^ 32) :
    Counted after := by
  have few : after.readers.length < 2 ^ 32 := by
    rw [readers, List.length_modify]
    exact counted.few
  refine ⟨few, fun slot => ?_, fun member among slot => ?_⟩
  · have shift := @tally_modify _ (state.readers) (counts slot) index entry change found
    rw [← readers] at shift
    have bound : tally (counts slot) after.readers ≤ after.readers.length :=
      tally_le_length (counts_le_one slot)
    rw [follows slot, counted.exact slot]
    omega
  · rw [readers] at among
    rcases mem_modify_entry found among with old | rfl
    · exact counted.sound member old slot
    · exact sound slot

theorem Counted.steady (same : after.readerCount = state.readerCount)
    (weights : ∀ slot, counts slot (change entry) = counts slot entry) : Counted after := by
  refine counted.modify found readers sound fun slot => ?_
  have bound := counted.lt slot
  rw [same, weights slot, counted.exact slot]
  omega

/-- A reader that enters or leaves a slot adds what it weighs there then to the count. -/
theorem Counted.crosses {delta : Nat}
    (adds : after.readerCount = (state.readerCountAdd slot delta).readerCount)
    (weights : ∀ other, counts other (change entry) =
      (counts other entry + if other = slot then delta else 0) % 2 ^ 32) : Counted after := by
  refine counted.modify found readers sound fun other => ?_
  have bound := counted.lt other
  have exact := counted.exact other
  have added : after.readerCount other = if other = slot then
      (state.readerCount other + delta) % 2 ^ 32 else state.readerCount other := congrFun adds other
  have small := counts_le_one other entry
  rw [added, weights other]
  split <;> omega

end

theorem Counted.of_readerStep (counted : Counted state) (found : state.readers[index]? = some entry)
    (stepped : state.readerStep index action entry.phase = some after) : Counted after := by
  have member := List.mem_of_getElem? found
  unfold readerStep at stepped
  split at stepped <;> cases stepped
  · rename_i idle
    exact counted.steady found rfl (by simp) rfl (by simp [counts, idle])
  · rename_i slot loaded
    refine counted.crosses found rfl (by simp) rfl fun other => ?_
    by_cases own : slot = other <;> simp [counts, loaded, own, eq_comm]
  · rename_i slot isCounted
    refine counted.steady found rfl (fun other => ?_) rfl fun other => ?_
    · by_cases current : slot = state.activeIndex <;> simp [current]
    · by_cases current : slot = state.activeIndex <;> simp [counts, current, isCounted]
  · rename_i slot leaving
    refine counted.crosses found rfl (by simp) rfl fun other => ?_
    by_cases own : slot = other <;> simp [counts, leaving, own, minusOne, eq_comm]
  · rename_i slot holding
    exact counted.steady found rfl (counted.sound entry member) rfl fun _ => rfl
  · rename_i slot holding
    -- A reader that holds a slot is counted, so the count is not zero.
    have positive : state.readerCount slot ≠ 0 := fun free =>
      counted.unheld free entry member holding
    refine counted.crosses found rfl (by simp [positive]) rfl fun other => ?_
    by_cases own : slot = other
    · subst own
      simp [counts, holding, positive, minusOne]
    · simp [counts, holding, positive, own, Ne.symm own]
  · rename_i slot undoing
    exact absurd undoing (counted.sound entry member slot)

/-! ### The writer keeps off the banks that are held -/

/-- The slot that the writer changes is neither active nor held. -/
structure Guarded (state : Publication κ) : Prop where
  inactive : ∀ slot, target state.writer = some slot → slot ≠ state.activeIndex
  /-- No reader holds it. -/
  unheld : ∀ slot, target state.writer = some slot → ∀ entry ∈ state.readers,
    entry.phase ≠ .holding slot
  offset : ∀ offset sends, state.writer = .scanning offset sends → 1 ≤ offset

/-- The steps of the writer, each with where the writer has to be for it. -/
inductive Writes (state : Publication κ) : Publication κ → Prop where
  | append (idle : state.writer = .idle) : Writes state state.append
  | markDirty (idle : state.writer = .idle) : Writes state { state with dirty := true }
  | drop (event : Nat) (idle : state.writer = .idle) :
      Writes state { state with pending := state.pending.erase event }
  | publish (sends : Bool) (idle : state.writer = .idle) :
      Writes state { state with writer := .scanning 1 sends }
  | enqueue (idle : state.writer = .idle) (clean : state.dirty = false) :
      Writes state { state with writer := .sending state.pending }
  | claim {offset : Nat} {sends : Bool} (scanning : state.writer = .scanning offset sends)
      (small : offset < 3) (free : state.readerCount (Fin.ofNat 3 (state.activeIndex + offset)) =
        0) :
      Writes state { state with
        writer := .wiping (Fin.ofNat 3 (state.activeIndex + offset)) sends }
  | skip {offset : Nat} {sends : Bool} (scanning : state.writer = .scanning offset sends) :
      Writes state { state with writer := .scanning (offset + 1) sends }
  | defer {offset : Nat} {sends : Bool} (scanning : state.writer = .scanning offset sends) :
      Writes state { state with writer := .idle }
  | wipe {slot : Slot} {sends : Bool} (writing : state.writer = .wiping slot sends) :
      Writes state { state.setBank slot {} with writer := .stamping slot sends }
  | stamp {slot : Slot} {sends : Bool} (writing : state.writer = .stamping slot sends) :
      Writes state { state.setBank slot { state.banks slot with
          generation := state.generation + 1
          eventSequenceCeiling := state.ceiling } with
        generation := state.generation + 1
        writer := .filling slot sends }
  | fill {slot : Slot} {sends : Bool} (entries : List κ)
      (writing : state.writer = .filling slot sends) :
      Writes state (state.setBank slot { state.banks slot with entries })
  | switch {slot : Slot} {sends : Bool} (writing : state.writer = .filling slot sends) :
      Writes state { state with
        activeIndex := slot
        dirty := false
        writer := if sends then .sending state.pending else .idle }
  | send {event : Nat} {rest : List Nat} (sending : state.writer = .sending (event :: rest)) :
      Writes state { state with queue := state.queue ++ [event], writer := .sending rest }
  | stop {todo : List Nat} (sending : state.writer = .sending todo) :
      Writes state { state with pending := [], writer := .idle }

theorem writerStep_writes {action : WriterAction κ}
    (stepped : state.writerStep action = some after) : Writes state after := by
  unfold writerStep at stepped
  split at stepped
  · split at stepped <;> cases stepped
    exact .append (And.left ‹_›)
  · split at stepped <;> cases stepped
    exact .markDirty ‹_›
  · split at stepped <;> cases stepped
    exact .drop _ ‹_›
  · split at stepped <;> cases stepped
    exact .publish _ ‹_›
  · split at stepped <;> cases stepped
    rename_i ready
    exact .enqueue ready.1 ready.2
  · split at stepped
    · rename_i offset sends scanning
      split at stepped <;> cases stepped
      · rename_i small
        by_cases free : state.readerCount (Fin.ofNat 3 (state.activeIndex + offset)) = 0
        · simp only [free, if_true]
          exact .claim scanning small free
        · simp only [free, if_false]
          exact .skip scanning
      · exact .defer scanning
    · cases stepped
  · split at stepped <;> cases stepped
    exact .wipe ‹_›
  · split at stepped <;> cases stepped
    exact .stamp ‹_›
  · split at stepped <;> cases stepped
    exact .fill _ ‹_›
  · split at stepped <;> cases stepped
    exact .switch ‹_›
  · split at stepped
    · split at stepped <;> cases stepped
      · exact .send ‹_›
      · exact .stop ‹_›
    · cases stepped
      exact .stop ‹_›
    · cases stepped

theorem append_writer : state.append.writer = state.writer := by
  unfold append
  split <;> rfl

theorem Writes.frame (writes : Writes state after) :
    after.readers = state.readers ∧ after.readerCount = state.readerCount ∧
      ∀ other, target state.writer ≠ some other → after.banks other = state.banks other := by
  have set (slot : Slot) (bank : Bank κ) (written : target state.writer = some slot) (other : Slot)
      (apart : target state.writer ≠ some other) :
      (state.setBank slot bank).banks other = state.banks other :=
    if_neg fun own : other = slot => apart (by rw [own, written])
  cases writes with
  | append =>
    unfold Publication.append
    split <;> exact ⟨rfl, rfl, fun _ _ => rfl⟩
  | wipe writing | stamp writing | fill _ writing =>
    exact ⟨rfl, rfl, set _ _ (by rw [writing]; rfl)⟩
  | _ => exact ⟨rfl, rfl, fun _ _ => rfl⟩

theorem candidate_ne (active : Slot) (offset : Nat) (positive : 1 ≤ offset) (small : offset < 3) :
    Fin.ofNat 3 (active + offset) ≠ active := by
  intro same
  have value : (active.val + offset) % 3 = active.val := congrArg Fin.val same
  omega

theorem Guarded.of_readerStep (guarded : Guarded state) (found : state.readers[index]? = some entry)
    (stepped : state.readerStep index action entry.phase = some after) : Guarded after := by
  obtain ⟨change, moves⟩ := readerStep_moves stepped
  have member := List.mem_of_getElem? found
  have writer : after.writer = state.writer := by rw [moves.frame]
  have active : after.activeIndex = state.activeIndex := by rw [moves.frame]
  have readers : after.readers = state.readers.modify index change := by rw [moves.frame]
  constructor
  · rw [writer, active]
    exact guarded.inactive
  · intro slot written reader among holding
    rw [writer] at written
    rw [readers] at among
    rcases mem_modify_entry found among with old | rfl
    · exact guarded.unheld slot written reader old holding
    · rcases moves.holds slot holding with held | ⟨current, -⟩
      · exact guarded.unheld slot written entry member held
      · exact guarded.inactive slot written current
  · rw [writer]
    exact guarded.offset

theorem Guarded.of_no_target (none_written : target state.writer = none)
    (offset : ∀ offset sends, state.writer = .scanning offset sends → 1 ≤ offset) :
    Guarded state where
  inactive slot written := by rw [none_written] at written; cases written
  unheld slot written := by rw [none_written] at written; cases written
  offset := offset

theorem Guarded.same_target (guarded : Guarded state) (readers : after.readers = state.readers)
    (active : after.activeIndex = state.activeIndex)
    (writes : target after.writer = target state.writer)
    (offset : ∀ offset sends, after.writer = .scanning offset sends → 1 ≤ offset) :
    Guarded after where
  inactive := by
    rw [writes, active]
    exact guarded.inactive
  unheld := by
    rw [writes, readers]
    exact guarded.unheld
  offset := offset

theorem Guarded.of_writes (guarded : Guarded state) (counted : Counted state)
    (writes : Writes state after) : Guarded after := by
  have idle {later : Publication κ} (free : later.writer = .idle) : Guarded later :=
    .of_no_target (by rw [free]; rfl) fun _ _ scans => by rw [free] at scans; cases scans
  have sending {later : Publication κ} (todo : List Nat) (sends : later.writer = .sending todo) :
      Guarded later :=
    .of_no_target (by rw [sends]; rfl) fun _ _ scans => by rw [sends] at scans; cases scans
  cases writes with
  | append free => exact idle (append_writer.trans free)
  | markDirty free | drop _ free => exact idle free
  | publish sends free =>
    exact .of_no_target rfl fun _ _ scans => by cases scans; exact Nat.le_refl 1
  | enqueue | send => exact sending _ rfl
  | @claim offset sends scanning small free =>
    have positive := guarded.offset offset sends scanning
    constructor
    · intro slot written
      cases written
      exact candidate_ne state.activeIndex offset positive small
    · intro slot written
      cases written
      exact counted.unheld free
    · intro _ _ scans
      cases scans
  | @skip offset => exact .of_no_target rfl fun _ _ scans => by cases scans; omega
  | defer | stop => exact idle rfl
  | wipe writing | stamp writing =>
    exact guarded.same_target rfl rfl (by rw [writing]; rfl) fun _ _ scans => by cases scans
  | fill => exact guarded.same_target rfl rfl rfl guarded.offset
  | @switch slot sends =>
    cases sends with
    | true => exact sending _ rfl
    | false => exact idle rfl

end Publication

end Gizos.Runtime
