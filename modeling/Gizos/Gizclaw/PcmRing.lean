import Gizos.Codec
import Mathlib.Logic.Relation

/-! # PCM ring

One producer and one consumer share a byte buffer through two free-running indices, words of
`width` bits that are reduced modulo the capacity when a byte is stored or fetched. The threads
interleave between any two accesses to shared memory: an index is loaded, bytes are copied one by
one, and the release store of an index publishes what was copied. A thread's own index is stored by
nobody else, so the two loads of a call are one step.
-/
namespace Gizos.Gizclaw.PcmRing

/-- What a call returns. -/
inductive Result where
  | ok
  | invalidArg
  | closed
  | wouldBlock
deriving DecidableEq, Repr

/-- The ring in memory. -/
structure Ring where
  bytes : Nat → UInt8
  writeIndex : Nat
  readIndex : Nat
  closed : Bool

/-- Where the producer stands in `write`. -/
inductive Producer where
  | returned (answer : Result)
  /-- The arguments are in order and the ring was open. -/
  | admitted (pcm : Bytes)
  /-- The bytes of `done` are in the buffer, those of `rest` are still to be copied. -/
  | copying (write : Nat) (done rest : Bytes)

/-- Where the consumer stands in `read`. -/
inductive Consumer where
  | returned (answer : Result)
  /-- Too few bytes were available; the closed flag decides the answer. -/
  | short
  | copying (read : Nat) (done : Bytes) (left : Nat)

/-- The ring and its two threads, with the bytes of every call that returned `ok`. -/
structure State where
  ring : Ring
  producer : Producer
  consumer : Consumer
  published : Bytes
  received : Bytes

/-- A ring after `init`; the allocated bytes are arbitrary. -/
def init (bytes : Nat → UInt8) : State :=
  ⟨⟨bytes, 0, 0, false⟩, .returned .ok, .returned .ok, [], []⟩

/-- The cell of byte `i` of a call that starts at an index: up to the end of the buffer first, then
from its beginning. -/
def cell (capacity index i : Nat) : Nat :=
  let offset := index % capacity
  if i < capacity - offset then offset + i else i - (capacity - offset)

/-- The difference of two indices, as `size_t` computes it. -/
def distance (width write read : Nat) : Nat := (write + 2 ^ width - read) % 2 ^ width

/-- A write checks its arguments and the closed flag. -/
def enterWrite (capacity : Nat) (ring : Ring) (pcm : Bytes) : Producer :=
  if pcm.length = 0 ∨ capacity < pcm.length then .returned .invalidArg
  else if ring.closed then .returned .closed
  else .admitted pcm

/-- A write loads the indices and needs room for all its bytes. -/
def reserve (width capacity : Nat) (ring : Ring) (pcm : Bytes) : Producer :=
  let used := distance width ring.writeIndex ring.readIndex
  if capacity < used ∨ capacity - used < pcm.length then .returned .wouldBlock
  else .copying ring.writeIndex [] pcm

/-- A read loads the indices and needs all its bytes. -/
def enterRead (width capacity : Nat) (ring : Ring) (length : Nat) : Consumer :=
  if length = 0 ∨ capacity < length then .returned .invalidArg
  else if distance width ring.writeIndex ring.readIndex < length then .short
  else .copying ring.readIndex [] length

/-- One access to shared memory by either thread, or a call of `close`. -/
inductive Step (width capacity : Nat) (state : State) : State → Prop where
  | write {answer : Result} (pcm : Bytes) (ready : state.producer = .returned answer) :
      Step width capacity state { state with producer := enterWrite capacity state.ring pcm }
  | reserve {pcm : Bytes} (ready : state.producer = .admitted pcm) :
      Step width capacity state { state with producer := reserve width capacity state.ring pcm }
  | copyIn {write : Nat} {done rest : Bytes} {byte : UInt8}
      (ready : state.producer = .copying write done (byte :: rest)) :
      Step width capacity state { state with
        ring.bytes := Function.update state.ring.bytes (cell capacity write done.length) byte
        producer := .copying write (done ++ [byte]) rest }
  | publish {write : Nat} {done : Bytes} (ready : state.producer = .copying write done []) :
      Step width capacity state { state with
        ring.writeIndex := (write + done.length) % 2 ^ width
        producer := .returned .ok
        published := state.published ++ done }
  | read {answer : Result} (length : Nat) (ready : state.consumer = .returned answer) :
      Step width capacity state
        { state with consumer := enterRead width capacity state.ring length }
  | refuse (ready : state.consumer = .short) :
      Step width capacity state
        { state with consumer := .returned (if state.ring.closed then .closed else .wouldBlock) }
  | copyOut {read : Nat} {done : Bytes} {left : Nat}
      (ready : state.consumer = .copying read done (left + 1)) :
      Step width capacity state { state with
        consumer := .copying read
          (done ++ [state.ring.bytes (cell capacity read done.length)]) left }
  | release {read : Nat} {done : Bytes} (ready : state.consumer = .copying read done 0) :
      Step width capacity state { state with
        ring.readIndex := (read + done.length) % 2 ^ width
        consumer := .returned .ok
        received := state.received ++ done }
  | close : Step width capacity state { state with ring.closed := true }

/-- Steps of the two threads, in any interleaving. -/
abbrev Steps (width capacity : Nat) : State → State → Prop :=
  Relation.ReflTransGen (Step width capacity)

/-- The ring is a queue along every interleaving: what was read is what was written, in order, and
at most a buffer of it is unread. -/
def Fifo (width capacity : Nat) : Prop :=
  ∀ bytes state, Steps width capacity (init bytes) state →
    state.received <+: state.published ∧ state.published.length ≤ state.received.length + capacity

/-! ## Capacities that divide the word -/

/-- The bytes copied in by the call in progress. -/
def Producer.done : Producer → Bytes
  | .copying _ done _ => done
  | _ => []

/-- The bytes copied out by the call in progress. -/
def Consumer.done : Consumer → Bytes
  | .copying _ done _ => done
  | _ => []

/-- The bytes whose cells the producer has filled. -/
def State.stored (state : State) : Bytes := state.published ++ state.producer.done

/-- The indices count the bytes of finished calls, a call in progress has room for all its bytes,
and a stored byte that is still unread is in the cell of its position. -/
structure Sound (width capacity : Nat) (state : State) : Prop where
  writeIndex : state.ring.writeIndex = state.published.length % 2 ^ width
  readIndex : state.ring.readIndex = state.received.length % 2 ^ width
  ordered : state.received ++ state.consumer.done <+: state.published
  bounded : state.stored.length ≤ state.received.length + capacity
  writing : ∀ write done rest, state.producer = .copying write done rest →
    write = state.ring.writeIndex ∧ (state.stored ++ rest).length ≤ state.received.length + capacity
  reading : ∀ read done left, state.consumer = .copying read done left →
    read = state.ring.readIndex ∧ (state.received ++ done).length + left ≤ state.published.length
  cells : ∀ i, state.received.length ≤ i → (inside : i < state.stored.length) →
    state.ring.bytes (i % capacity) = state.stored[i]

section

variable {width capacity : Nat} (positive : 0 < capacity)

include positive in
/-- The two copies of a call run around the buffer. -/
theorem cell_eq {index i : Nat} (inside : i < capacity) :
    cell capacity index i = (index + i) % capacity := by
  have offset : index % capacity < capacity := Nat.mod_lt _ positive
  rw [← Nat.mod_add_mod, cell]
  by_cases first : i < capacity - index % capacity
  · have below : index % capacity + i < capacity := by omega
    rw [if_pos first]
    exact (Nat.mod_eq_of_lt below).symm
  · have round : index % capacity + i = capacity + (i - (capacity - index % capacity)) := by omega
    rw [if_neg first, round, Nat.add_mod_left]
    exact (Nat.mod_eq_of_lt (by omega)).symm

include positive in
/-- Reducing the index to a word first changes nothing when the capacity divides the word. -/
theorem cell_of_dvd (divides : capacity ∣ 2 ^ width) {count i : Nat} (inside : i < capacity) :
    cell capacity (count % 2 ^ width) i = (count + i) % capacity := by
  rw [cell_eq positive inside, Nat.add_mod, Nat.mod_mod_of_dvd _ divides, ← Nat.add_mod]

/-- The computed difference of the indices is the number of unread bytes. -/
theorem distance_eq {written taken : Nat} (ahead : taken ≤ written)
    (bounded : written - taken < 2 ^ width) :
    distance width (written % 2 ^ width) (taken % 2 ^ width) = written - taken := by
  have below : taken % 2 ^ width < 2 ^ width := Nat.mod_lt _ (Nat.two_pow_pos width)
  rw [distance, Nat.add_sub_assoc below.le, Nat.mod_add_mod]
  have whole := Nat.mod_add_div taken (2 ^ width)
  have moved : written + (2 ^ width - taken % 2 ^ width) =
      (written - taken) + 2 ^ width * (taken / 2 ^ width + 1) := by
    rw [Nat.mul_add]
    omega
  rw [moved, Nat.add_mul_mod_self_left, Nat.mod_eq_of_lt bounded]

/-- An empty ring is sound. -/
theorem Sound.init (bytes : Nat → UInt8) : Sound width capacity (init bytes) where
  writeIndex := (Nat.zero_mod _).symm
  readIndex := (Nat.zero_mod _).symm
  ordered := List.nil_prefix
  bounded := Nat.zero_le _
  writing _ _ _ := nofun
  reading _ _ _ := nofun
  cells _ _ inside := absurd inside (Nat.not_lt_zero _)

variable {state state' : State}

/-- What is published was stored. -/
theorem State.published_le (state : State) : state.published.length ≤ state.stored.length := by
  rw [stored, List.length_append]
  exact Nat.le_add_right _ _

/-- Positions less than a buffer apart have cells of their own. -/
theorem mod_ne_of_near (capacity : Nat) {i j : Nat} (before : i < j) (near : j < i + capacity) :
    i % capacity ≠ j % capacity := by
  intro same
  have divides : capacity ∣ j - i :=
    Nat.dvd_of_mod_eq_zero (Nat.sub_mod_eq_zero_of_mod_eq same.symm)
  have le := Nat.le_of_dvd (by omega) divides
  omega

/-- A shorter prefix goes on with the next byte. -/
theorem prefix_concat {xs ys : Bytes} (whole : xs <+: ys) (more : xs.length < ys.length) :
    xs ++ [ys[xs.length]] <+: ys := by
  obtain ⟨tail, rfl⟩ := whole
  cases tail with
  | nil => simp at more
  | cons next tail => simp

variable (addressable : capacity < 2 ^ width) (divides : capacity ∣ 2 ^ width)

section

variable (sound : Sound width capacity state)

include sound

/-- Nothing is read before it is published. -/
theorem Sound.taken_le : state.received.length ≤ state.published.length := by
  have le := sound.ordered.length_le
  rw [List.length_append] at le
  omega

/-- A producer that has copied nothing only has to know where its bytes would go. -/
theorem Sound.producer (producer : Producer) (empty : producer.done = [])
    (fits : ∀ write done rest, producer = .copying write done rest →
      write = state.ring.writeIndex ∧
        state.published.length + rest.length ≤ state.received.length + capacity) :
    Sound width capacity { state with producer := producer } := by
  have stored : State.stored { state with producer := producer } = state.published := by
    rw [State.stored, empty, List.append_nil]
  refine { sound with bounded := ?_, writing := ?_, cells := ?_ }
  · rw [stored]
    exact state.published_le.trans sound.bounded
  · intro write done rest copying
    rw [stored, List.length_append]
    exact fits write done rest copying
  · intro i unread inside
    simp only [stored] at inside ⊢
    rw [sound.cells i unread (inside.trans_le state.published_le)]
    exact List.getElem_append_left inside

/-- What the consumer holds has to continue what was received. -/
theorem Sound.consumer (consumer : Consumer)
    (ordered : state.received ++ consumer.done <+: state.published)
    (reading : ∀ read done left, consumer = .copying read done left →
      read = state.ring.readIndex ∧
        (state.received ++ done).length + left ≤ state.published.length) :
    Sound width capacity { state with consumer := consumer } :=
  { sound with ordered := ordered, reading := reading }

include addressable in
/-- The indices tell how many bytes are unread. -/
theorem Sound.distance_eq :
    distance width state.ring.writeIndex state.ring.readIndex =
      state.published.length - state.received.length := by
  have bounded := state.published_le.trans sound.bounded
  rw [sound.writeIndex, sound.readIndex]
  exact PcmRing.distance_eq sound.taken_le (by omega)

include addressable in
/-- A write that finds room is sound. -/
theorem Sound.reserve (pcm : Bytes) :
    Sound width capacity { state with producer := reserve width capacity state.ring pcm } := by
  unfold PcmRing.reserve
  simp only [sound.distance_eq addressable]
  split
  · exact sound.producer _ rfl nofun
  · refine sound.producer _ rfl ?_
    rintro _ _ _ ⟨⟩
    exact ⟨rfl, by omega⟩

include addressable in
/-- A read that finds its bytes is sound. -/
theorem Sound.enterRead (length : Nat) :
    Sound width capacity { state with consumer := enterRead width capacity state.ring length } := by
  have received : state.received ++ [] <+: state.published := by
    rw [List.append_nil]
    exact (List.prefix_append _ _).trans sound.ordered
  unfold PcmRing.enterRead
  simp only [sound.distance_eq addressable]
  split
  · exact sound.consumer _ received nofun
  split
  · exact sound.consumer _ received nofun
  · refine sound.consumer _ received ?_
    rintro _ _ _ ⟨⟩
    rw [List.append_nil]
    exact ⟨rfl, by omega⟩

include positive divides in
/-- A byte is copied into a cell that is free. -/
theorem Sound.copyIn {write : Nat} {done rest : Bytes} {byte : UInt8}
    (ready : state.producer = .copying write done (byte :: rest)) :
    Sound width capacity { state with
      ring.bytes := Function.update state.ring.bytes (cell capacity write done.length) byte
      producer := .copying write (done ++ [byte]) rest } := by
  obtain ⟨start, room⟩ := sound.writing _ _ _ ready
  have stored : state.stored = state.published ++ done := by rw [State.stored, ready]; rfl
  have ahead := sound.taken_le
  simp only [stored, List.length_append, List.length_cons] at room
  have position : cell capacity write done.length =
      (state.published.length + done.length) % capacity := by
    rw [start, sound.writeIndex]
    exact cell_of_dvd positive divides (by omega)
  refine { sound with bounded := ?_, writing := ?_, cells := ?_ }
  · simp only [State.stored, Producer.done, List.length_append, List.length_singleton]
    omega
  · rintro _ _ _ ⟨⟩
    simp only [State.stored, Producer.done, List.length_append, List.length_singleton]
    exact ⟨start, by omega⟩
  · intro i unread inside
    simp only [State.stored, Producer.done, ← List.append_assoc] at inside ⊢
    rw [position]
    by_cases last : i = state.published.length + done.length
    · subst last
      rw [Function.update_self]
      exact (List.getElem_concat_length (by rw [List.length_append]) _).symm
    · have earlier : i < (state.published ++ done).length := by
        simp only [List.length_append, List.length_singleton] at inside ⊢
        omega
      have apart : i % capacity ≠ (state.published.length + done.length) % capacity := by
        rw [List.length_append] at earlier
        change state.received.length ≤ i at unread
        exact mod_ne_of_near capacity earlier (by omega)
      rw [Function.update_of_ne apart, List.getElem_append_left earlier]
      simpa only [stored] using sound.cells i unread (by rw [stored]; exact earlier)

/-- The write index moves over what was copied in. -/
theorem Sound.publish {write : Nat} {done : Bytes}
    (ready : state.producer = .copying write done []) :
    Sound width capacity { state with
      ring.writeIndex := (write + done.length) % 2 ^ width
      producer := .returned .ok
      published := state.published ++ done } := by
  obtain ⟨start, -⟩ := sound.writing _ _ _ ready
  have stored : state.stored = state.published ++ done := by rw [State.stored, ready]; rfl
  have bounded := sound.bounded
  have cells := sound.cells
  simp only [stored] at bounded cells
  refine { sound with writeIndex := ?_, ordered := ?_, bounded := ?_, writing := nofun,
                      reading := ?_, cells := ?_ }
  · rw [start, sound.writeIndex, Nat.mod_add_mod, List.length_append]
  · exact sound.ordered.trans (List.prefix_append _ _)
  · simpa only [State.stored, Producer.done, List.append_nil] using bounded
  · intro read taken left copying
    obtain ⟨from', enough⟩ := sound.reading read taken left copying
    have longer : state.published.length ≤ (state.published ++ done).length := by simp
    exact ⟨from', enough.trans longer⟩
  · simpa only [State.stored, Producer.done, List.append_nil] using cells

include positive divides in
/-- The byte that is copied out is the next one. -/
theorem Sound.copyOut {read : Nat} {done : Bytes} {left : Nat}
    (ready : state.consumer = .copying read done (left + 1)) :
    Sound width capacity { state with
      consumer := .copying read
        (done ++ [state.ring.bytes (cell capacity read done.length)]) left } := by
  obtain ⟨start, enough⟩ := sound.reading _ _ _ ready
  have ordered : state.received ++ done <+: state.published := by
    simpa only [ready, Consumer.done] using sound.ordered
  have inside : (state.received ++ done).length < state.published.length := by omega
  have bounded := state.published_le.trans sound.bounded
  have near : done.length < capacity := by
    rw [List.length_append] at inside
    omega
  have fetched : state.ring.bytes (cell capacity read done.length) =
      state.published[(state.received ++ done).length] := by
    rw [start, sound.readIndex, cell_of_dvd positive divides near, ← List.length_append,
      sound.cells _ (by simp) (inside.trans_le state.published_le)]
    exact List.getElem_append_left inside
  refine sound.consumer _ ?_ ?_
  · rw [fetched, Consumer.done, ← List.append_assoc]
    exact prefix_concat ordered inside
  · rintro _ _ _ ⟨⟩
    rw [← List.append_assoc, List.length_append, List.length_singleton]
    exact ⟨start, by omega⟩

/-- The read index moves over what was copied out. -/
theorem Sound.release {read : Nat} {done : Bytes} (ready : state.consumer = .copying read done 0) :
    Sound width capacity { state with
      ring.readIndex := (read + done.length) % 2 ^ width
      consumer := .returned .ok
      received := state.received ++ done } := by
  obtain ⟨start, -⟩ := sound.reading _ _ _ ready
  have bounded := sound.bounded
  have further : state.received.length ≤ (state.received ++ done).length := by simp
  refine { sound with readIndex := ?_, ordered := ?_, bounded := ?_, writing := ?_,
                      reading := nofun, cells := ?_ }
  · rw [start, sound.readIndex, Nat.mod_add_mod, List.length_append]
  · simpa only [ready, Consumer.done, List.append_nil] using sound.ordered
  · exact bounded.trans (Nat.add_le_add_right further _)
  · intro write copied rest copying
    obtain ⟨from', room⟩ := sound.writing write copied rest copying
    exact ⟨from', room.trans (Nat.add_le_add_right further _)⟩
  · exact fun i unread inside => sound.cells i (further.trans unread) inside

include positive addressable divides in
/-- Every step of either thread keeps the queue. -/
theorem Sound.step (step : Step width capacity state state') : Sound width capacity state' := by
  cases step with
  | write pcm ready =>
    unfold enterWrite
    split
    · exact sound.producer _ rfl nofun
    split
    · exact sound.producer _ rfl nofun
    · exact sound.producer _ rfl nofun
  | reserve ready => exact sound.reserve addressable _
  | copyIn ready => exact sound.copyIn positive divides ready
  | publish ready => exact sound.publish ready
  | read length ready => exact sound.enterRead addressable length
  | refuse ready =>
    have received : state.received ++ [] <+: state.published := by
      simpa only [ready, Consumer.done] using sound.ordered
    exact sound.consumer _ received nofun
  | copyOut ready => exact sound.copyOut positive divides ready
  | release ready => exact sound.release ready
  | close => exact { sound with }

end

include positive addressable divides in
/-- The ring is a queue if the capacity divides the word. -/
theorem fifo_of_dvd : Fifo width capacity := by
  intro bytes state steps
  have sound : Sound width capacity state := by
    induction steps with
    | refl => exact .init bytes
    | tail _ step sound => exact sound.step positive addressable divides step
  exact ⟨(List.prefix_append _ _).trans sound.ordered, state.published_le.trans sound.bounded⟩

/-! ## Capacities that do not

A write computes its first cell once and goes on from there. When the index wraps inside the write
the next call starts from cell 0 again, which is another cell unless the capacity divides the
word. -/

/-- A call of `write` that finds the ring open and room for its bytes comes to copy them. -/
theorem write_steps (pcm : Bytes) {answer : Result} (idle : state.producer = .returned answer)
    (unclosed : state.ring.closed = false) (some : pcm.length ≠ 0)
    (room : distance width state.ring.writeIndex state.ring.readIndex + pcm.length ≤ capacity) :
    Steps width capacity state
      { state with producer := .copying state.ring.writeIndex [] pcm } := by
  have admitted : enterWrite capacity state.ring pcm = .admitted pcm := by
    rw [enterWrite, if_neg (by omega), if_neg (by simp [unclosed])]
  have reserved : reserve width capacity state.ring pcm =
      .copying state.ring.writeIndex [] pcm := by
    rw [PcmRing.reserve, if_neg (by omega)]
  have first : Step width capacity state { state with producer := .admitted pcm } := by
    rw [← admitted]
    exact .write pcm idle
  refine .tail (.single first) ?_
  rw [← reserved]
  exact .reserve rfl

include positive in
/-- A call of `read` for one byte that finds a byte returns it. -/
theorem read_steps {answer : Result} (idle : state.consumer = .returned answer)
    (some : 1 ≤ distance width state.ring.writeIndex state.ring.readIndex) :
    Steps width capacity state { state with
      ring.readIndex := (state.ring.readIndex + 1) % 2 ^ width
      consumer := .returned .ok
      received := state.received ++ [state.ring.bytes (state.ring.readIndex % capacity)] } := by
  have entered : enterRead width capacity state.ring 1 = .copying state.ring.readIndex [] 1 := by
    rw [PcmRing.enterRead, if_neg (by omega), if_neg (by omega)]
  have first : Step width capacity state
      { state with consumer := .copying state.ring.readIndex [] 1 } := by
    rw [← entered]
    exact .read 1 idle
  have place : cell capacity state.ring.readIndex 0 = state.ring.readIndex % capacity :=
    cell_eq positive positive
  have released := ((Relation.ReflTransGen.single first).tail (.copyOut rfl)).tail (.release rfl)
  rw [← place]
  exact released

/-- A ring through which only zeros have passed. -/
def zeros (width count : Nat) : State :=
  ⟨⟨fun _ => 0, count % 2 ^ width, count % 2 ^ width, false⟩, .returned .ok, .returned .ok,
    .replicate count 0, .replicate count 0⟩

include positive addressable in
/-- Any number of bytes can pass one by one. -/
theorem zeros_steps (count : Nat) : Steps width capacity (init fun _ => 0) (zeros width count) := by
  induction count with
  | zero =>
    exact .refl
  | succ count before =>
    have empty : distance width (count % 2 ^ width) (count % 2 ^ width) = 0 := by
      rw [PcmRing.distance_eq le_rfl (by omega), Nat.sub_self]
    have one : distance width ((count % 2 ^ width + 1) % 2 ^ width) (count % 2 ^ width) = 1 := by
      rw [Nat.mod_add_mod, PcmRing.distance_eq (by omega) (by omega)]
      omega
    have written : Steps width capacity (zeros width count)
        { zeros width count with producer := .copying (count % 2 ^ width) [] [0] } :=
      write_steps [0] rfl rfl nofun (empty.symm ▸ positive)
    have stored := (written.tail (.copyIn rfl)).tail (.publish rfl)
    have fetched := stored.trans (read_steps positive rfl one.ge)
    have same : Function.update (fun _ : Nat => (0 : UInt8)) (cell capacity (count % 2 ^ width) 0) 0
        = fun _ => 0 := Function.update_eq_self _ _
    refine before.trans ?_
    simpa [zeros, same, List.replicate_succ'] using fetched

include positive addressable in
/-- After a whole word of bytes but one, two bytes written together are read as two others. -/
theorem not_fifo_of_not_dvd (uneven : ¬ capacity ∣ 2 ^ width) : ¬ Fifo width capacity := by
  intro fifo
  have word : 0 < 2 ^ width := Nat.two_pow_pos width
  have several : 2 ≤ capacity := by
    by_contra few
    have one : capacity = 1 := by omega
    exact uneven (one ▸ Nat.one_dvd _)
  generalize last : 2 ^ width - 1 = count at *
  have empty : distance width (count % 2 ^ width) (count % 2 ^ width) = 0 := by
    rw [PcmRing.distance_eq le_rfl (by omega), Nat.sub_self]
  have two : distance width ((count % 2 ^ width + 2) % 2 ^ width) (count % 2 ^ width) = 2 := by
    rw [Nat.mod_add_mod, PcmRing.distance_eq (by omega) (by omega)]
    omega
  have one : distance width ((count % 2 ^ width + 2) % 2 ^ width)
      ((count % 2 ^ width + 1) % 2 ^ width) = 1 := by
    rw [Nat.mod_add_mod, Nat.mod_add_mod, PcmRing.distance_eq (by omega) (by omega)]
    omega
  have written : Steps width capacity (zeros width count)
      { zeros width count with producer := .copying (count % 2 ^ width) [] [0, 1] } :=
    write_steps [0, 1] rfl rfl nofun (empty.symm ▸ several)
  have stored := ((written.tail (.copyIn rfl)).tail (.copyIn rfl)).tail (.publish rfl)
  have fetched := stored.trans (read_steps positive rfl (one_le_two.trans two.ge))
  have again := fetched.trans (read_steps positive rfl one.ge)
  have wrapped : (count % 2 ^ width + 1) % 2 ^ width = 0 := by
    rw [Nat.mod_add_mod, ← last, Nat.sub_add_cancel word, Nat.mod_self]
  have apart : (0 : Nat) ≠ cell capacity (count % 2 ^ width) 1 := by
    rw [cell_eq positive (by omega), Nat.mod_eq_of_lt (show count < 2 ^ width by omega), ← last,
      Nat.sub_add_cancel word]
    exact fun divided => uneven (Nat.dvd_of_mod_eq_zero divided.symm)
  obtain ⟨ordered, -⟩ := fifo _ _ ((zeros_steps positive addressable count).trans again)
  have same := ordered.eq_of_length (by simp [zeros])
  simp only [zeros, wrapped] at same
  simp [Function.update_apply] at same
  exact apart same.2

end

/-- The ring is a queue forever exactly when its capacity divides the range of the indices. -/
theorem fifo_iff (width capacity : Nat) (positive : 0 < capacity)
    (addressable : capacity < 2 ^ width) : Fifo width capacity ↔ capacity ∣ 2 ^ width := by
  constructor
  · intro fifo
    by_contra uneven
    exact not_fifo_of_not_dvd positive addressable uneven fifo
  · exact fifo_of_dvd positive addressable

/-- A ring of one page is a queue. -/
theorem fifo_of_page : Fifo 32 4096 :=
  (fifo_iff 32 4096 (by decide) (by decide)).mpr (by decide)

/-- A buffer of twenty milliseconds of 16 kHz mono samples hands out a wrong byte after 4 GiB. -/
theorem not_fifo_of_frame : ¬ Fifo 32 640 :=
  not_fifo_of_not_dvd (by decide) (by decide) (by decide)

end Gizos.Gizclaw.PcmRing
