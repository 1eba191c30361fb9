import Mathlib.Algebra.Order.Group.Nat

/-! # State publication

How the input writer publishes state banks to readers that pin them, and hands out events. Every
atomic access of `h2_runtime_state.c` is one step, and the steps of one writer, of the readers, of
other producers of events and of the consumer interleave in any order.

A sequence number is kept as the number of the draw that gave it, and a generation as the number of
its publication. The code sees only their values, which wrap around at 32 and at 64 bits.
-/
namespace Gizos.Runtime

/-- The 32-bit value of a draw. -/
def sequenceValue (draw : Nat) : Nat := draw % 2 ^ 32

/-- The 64-bit value of a generation. -/
def generationValue (publication : Nat) : Nat := publication % 2 ^ 64

/-- `h2_runtime_sequence_after`. -/
def sequenceAfter (left right : Nat) : Bool :=
  if left = 0 ∨ right = 0 then left ≠ 0 && right = 0
  else 0 < (left + 2 ^ 32 - right) % 2 ^ 32 && (left + 2 ^ 32 - right) % 2 ^ 32 < 2 ^ 31

/-- `h2_runtime_state_bank_t`. -/
structure Bank (κ : Type) where
  /-- What is published about the components. -/
  entries : List κ := []
  generation : Nat := 0
  /-- The newest event that the bank covers. -/
  eventSequenceCeiling : Nat := 0
deriving Repr, DecidableEq

/-- One of `H2_RUNTIME_STATE_SLOT_COUNT` slots. -/
abbrev Slot : Type := Fin 3

/-- Where a reader is in `h2_runtime_state_read_begin` and `h2_runtime_state_read_end`. -/
inductive Phase where
  /-- Outside of both. -/
  | idle
  /-- It read the active index. -/
  | loaded (slot : Slot)
  /-- It counted itself. -/
  | counted (slot : Slot)
  /-- The active index had changed; it is about to count itself out. -/
  | leaving (slot : Slot)
  /-- The read began. -/
  | holding (slot : Slot)
  /-- It counted itself out of a slot that had no reader. -/
  | undoing (slot : Slot)
deriving Repr, DecidableEq

/-- A reader, with the generations it saw, the oldest first. -/
structure Reader where
  /-- Where it is. -/
  phase : Phase := .idle
  /-- The generations it saw. -/
  seen : List Nat := []
deriving Repr, DecidableEq

/-- Where the writer is in `h2_runtime_state_publish` and `enqueue_pending_events`. The flag says
whether the pending events are sent after the publication. -/
inductive Writer where
  /-- Outside of both. -/
  | idle
  /-- Looking for a slot without readers. -/
  | scanning (offset : Nat) (sends : Bool)
  /-- About to clear a slot. -/
  | wiping (slot : Slot) (sends : Bool)
  /-- About to set the generation and the ceiling. -/
  | stamping (slot : Slot) (sends : Bool)
  | filling (slot : Slot) (sends : Bool)
  /-- Sending events. -/
  | sending (todo : List Nat)
deriving Repr, DecidableEq

/-- The state publication and the events of the input. -/
structure Publication (κ : Type) where
  activeIndex : Slot := 0
  /-- How many readers count themselves in, wrapping at 32 bits. -/
  readerCount : Slot → Nat := fun _ => 0
  banks : Slot → Bank κ := fun _ => {}
  readers : List Reader
  writer : Writer := .idle
  /-- How many banks were prepared. -/
  generation : Nat := 0
  /-- The newest event of the input. -/
  ceiling : Nat := 0
  /-- Whether the state changed since it was published. -/
  dirty : Bool := false
  /-- The events that wait for publication, by their draw. -/
  pending : List Nat := []
  /-- How many events can wait. -/
  capacity : Nat
  /-- The events of the input in the queue, by their draw, the oldest first. -/
  queue : List Nat := []
  /-- The next draw of a sequence number. -/
  nextSequence : Nat := 1

/-- The atomic steps of a reader. -/
inductive ReaderAction where
  /-- It reads the active index. -/
  | load
  /-- It counts itself in. -/
  | count
  /-- It compares the active index with the slot it counted itself into. -/
  | recheck
  /-- It counts itself out of a slot that is no longer active. -/
  | leave
  /-- It looks at the bank it holds. -/
  | look
  /-- `h2_runtime_state_read_end`. -/
  | readEnd
  /-- It takes its count back. -/
  | undo
deriving Repr, DecidableEq

/-- The atomic steps of the writer. -/
inductive WriterAction (κ : Type) where
  /-- `append_input_event`. -/
  | append
  /-- `h2_runtime_state_mark_dirty`. -/
  | markDirty
  /-- A pending event is given up. -/
  | drop (event : Nat)
  /-- `h2_runtime_state_publish` is called. -/
  | publish (sends : Bool)
  /-- `enqueue_pending_events` is called for a state that did not change. -/
  | enqueue
  /-- It looks at the reader count of the next slot. -/
  | scan
  /-- It clears the slot. -/
  | wipe
  /-- It sets the generation and the ceiling. -/
  | stamp
  /-- It fills the slot, or some of it. -/
  | fill (entries : List κ)
  /-- It makes the slot the active one. -/
  | switch
  /-- It sends the next event; the queue takes it or is full. -/
  | send (taken : Bool)
deriving Repr, DecidableEq

/-- The atomic steps. -/
inductive Action (κ : Type) where
  /-- A step of a reader. -/
  | reader (index : Nat) (action : ReaderAction)
  /-- A step of the writer. -/
  | writer (action : WriterAction κ)
  /-- Another producer draws a sequence number. -/
  | draw
  /-- The consumer takes an event. -/
  | take
deriving Repr, DecidableEq

namespace Publication

variable {κ : Type} (state : Publication κ)

/-- `reader_count_add`. -/
def readerCountAdd (slot : Slot) (delta : Nat) : Publication κ :=
  { state with readerCount := fun other =>
      if other = slot then (state.readerCount other + delta) % 2 ^ 32 else state.readerCount other }

/-- Adding this is taking one off a 32-bit counter. -/
def minusOne : Nat := 2 ^ 32 - 1

/-- Puts a reader into another phase. -/
def setPhase (reader : Nat) (phase : Phase) : Publication κ :=
  { state with readers := state.readers.modify reader fun entry => { entry with phase } }

/-- One step of a reader in a phase. -/
def readerStep (index : Nat) :
    ReaderAction → Phase → Option (Publication κ)
  | .load, .idle => some (state.setPhase index (.loaded state.activeIndex))
  | .count, .loaded slot => some ((state.readerCountAdd slot 1).setPhase index (.counted slot))
  | .recheck, .counted slot =>
    some (state.setPhase index (if slot = state.activeIndex then .holding slot else .leaving slot))
  | .leave, .leaving slot => some ((state.readerCountAdd slot minusOne).setPhase index .idle)
  | .look, .holding slot =>
    some { state with readers := state.readers.modify index fun entry =>
      { entry with seen := entry.seen ++ [(state.banks slot).generation] } }
  | .readEnd, .holding slot =>
    some ((state.readerCountAdd slot minusOne).setPhase index
      (if state.readerCount slot = 0 then .undoing slot else .idle))
  | .undo, .undoing slot => some ((state.readerCountAdd slot 1).setPhase index .idle)
  | _, _ => none

/-- `append_input_event`, as far as it concerns sequence numbers. -/
def append : Publication κ :=
  let drawn := { state with nextSequence := state.nextSequence + 1 }
  -- The value zero is skipped.
  if sequenceValue state.nextSequence = 0 then drawn
  else
    { drawn with
      pending := state.pending ++ [state.nextSequence]
      ceiling := if sequenceAfter (sequenceValue state.nextSequence) (sequenceValue state.ceiling)
        then state.nextSequence else state.ceiling
      dirty := true }

/-- Changes one bank. -/
def setBank (slot : Slot) (bank : Bank κ) : Publication κ :=
  { state with banks := fun other => if other = slot then bank else state.banks other }

/-- One step of the writer. -/
def writerStep : WriterAction κ → Option (Publication κ)
  | .append =>
    if state.writer = .idle ∧ state.pending.length < state.capacity then some state.append else none
  | .markDirty => if state.writer = .idle then some { state with dirty := true } else none
  | .drop event =>
    if state.writer = .idle then some { state with pending := state.pending.erase event } else none
  | .publish sends =>
    if state.writer = .idle then some { state with writer := .scanning 1 sends } else none
  | .enqueue =>
    if state.writer = .idle ∧ state.dirty = false then
      some { state with writer := .sending state.pending }
    else none
  | .scan =>
    match state.writer with
    | .scanning offset sends =>
      if offset < 3 then
        let candidate : Slot := Fin.ofNat 3 (state.activeIndex + offset)
        some { state with
          writer := if state.readerCount candidate = 0 then .wiping candidate sends
            else .scanning (offset + 1) sends }
      else some { state with writer := .idle }
    | _ => none
  | .wipe =>
    match state.writer with
    | .wiping slot sends => some { state.setBank slot {} with writer := .stamping slot sends }
    | _ => none
  | .stamp =>
    match state.writer with
    | .stamping slot sends =>
      some { state.setBank slot { state.banks slot with
          generation := state.generation + 1
          eventSequenceCeiling := state.ceiling } with
        generation := state.generation + 1
        writer := .filling slot sends }
    | _ => none
  | .fill entries =>
    match state.writer with
    | .filling slot _ => some (state.setBank slot { state.banks slot with entries })
    | _ => none
  | .switch =>
    match state.writer with
    | .filling slot sends =>
      some { state with
        activeIndex := slot
        dirty := false
        writer := if sends then .sending state.pending else .idle }
    | _ => none
  | .send taken =>
    match state.writer with
    | .sending (event :: rest) =>
      if taken then some { state with queue := state.queue ++ [event], writer := .sending rest }
      else some { state with pending := [], writer := .idle }
    | .sending [] => some { state with pending := [], writer := .idle }
    | _ => none

/-- One step. -/
def step : Action κ → Option (Publication κ)
  | .reader index action =>
    match state.readers[index]? with
    | some entry => state.readerStep index action entry.phase
    | none => none
  | .writer action => state.writerStep action
  | .draw => some { state with nextSequence := state.nextSequence + 1 }
  | .take =>
    match state.queue with
    | _ :: rest => some { state with queue := rest }
    | [] => none

/-- The publication after initialization, with any number of readers. -/
def start (κ : Type) (readers capacity : Nat) : Publication κ where
  readers := List.replicate readers {}
  capacity := capacity

/-- The states that some interleaving leads to. -/
inductive Reachable (start : Publication κ) : Publication κ → Prop where
  | start : Reachable start start
  | step {before after : Publication κ} (action : Action κ) (earlier : Reachable start before)
      (stepped : before.step action = some after) : Reachable start after

end Publication

end Gizos.Runtime
