import Gizos.Runtime.Pinning

/-! # Consistent state publication

What holds under every interleaving: the writer never touches a bank that a reader holds, a reader
never sees the generations go back, and an event in the queue is covered by the active bank. The
counters wrap around, so each of the three bounds what its counter counts.
-/
namespace Gizos.Runtime

namespace Publication

variable {κ : Type} {state after : Publication κ} {index : Nat} {entry : Reader} {slot : Slot}

/-! ### Generations -/

/-- Generations grow, for the active slot and for each reader. -/
structure Ascending (state : Publication κ) : Prop where
  active : (state.banks state.activeIndex).generation ≤ state.generation
  /-- A bank that is being filled is the last one prepared. -/
  filling : ∀ slot sends, state.writer = .filling slot sends →
    (state.banks slot).generation = state.generation
  sorted : ∀ entry ∈ state.readers, entry.seen.Pairwise (· ≤ ·)
  /-- No reader saw a newer generation than the active one. -/
  seen : ∀ entry ∈ state.readers, ∀ generation ∈ entry.seen,
    generation ≤ (state.banks state.activeIndex).generation
  /-- A bank that is held is no newer than the active one, and no older than what was seen. -/
  held : ∀ entry ∈ state.readers, ∀ slot, entry.phase = .holding slot →
    (state.banks slot).generation ≤ (state.banks state.activeIndex).generation ∧
      ∀ generation ∈ entry.seen, generation ≤ (state.banks slot).generation

theorem Ascending.of_readerStep {action : ReaderAction} (ascending : Ascending state)
    (found : state.readers[index]? = some entry)
    (stepped : state.readerStep index action entry.phase = some after) : Ascending after := by
  obtain ⟨change, moves⟩ := readerStep_moves stepped
  have member := List.mem_of_getElem? found
  have writer : after.writer = state.writer := by rw [moves.frame]
  have active : after.activeIndex = state.activeIndex := by rw [moves.frame]
  have readers : after.readers = state.readers.modify index change := by rw [moves.frame]
  have banks : after.banks = state.banks := by rw [moves.frame]
  have generation : after.generation = state.generation := by rw [moves.frame]
  -- What the reader saw before and sees now is bounded by the active bank.
  have bounded : ∀ generation ∈ (change entry).seen,
      generation ≤ (state.banks state.activeIndex).generation := by
    intro generation among
    rcases moves.sees with same | ⟨slot, holding, -, more⟩
    · rw [same] at among
      exact ascending.seen entry member generation among
    · rw [more] at among
      rcases List.mem_append.mp among with old | new
      · exact ascending.seen entry member generation old
      · rw [List.mem_singleton.mp new]
        exact (ascending.held entry member slot holding).1
  constructor
  · rw [banks, active, generation]
    exact ascending.active
  · rw [banks, writer, generation]
    exact ascending.filling
  · rw [readers]
    intro reader among
    rcases mem_modify_entry found among with old | rfl
    · exact ascending.sorted reader old
    · rcases moves.sees with same | ⟨slot, holding, -, more⟩
      · rw [same]
        exact ascending.sorted entry member
      · rw [more, List.pairwise_append]
        refine ⟨ascending.sorted entry member, List.pairwise_singleton _ _, fun old among new => ?_⟩
        intro last
        rw [List.mem_singleton.mp last]
        exact (ascending.held entry member slot holding).2 old among
  · rw [readers, banks, active]
    intro reader among
    rcases mem_modify_entry found among with old | rfl
    · exact ascending.seen reader old
    · exact bounded
  · rw [readers, banks, active]
    intro reader among slot holding
    rcases mem_modify_entry found among with old | rfl
    · exact ascending.held reader old slot holding
    · rcases moves.holds slot holding with held | ⟨current, -⟩
      · have before := ascending.held entry member slot held
        refine ⟨before.1, fun generation among => ?_⟩
        rcases moves.sees with same | ⟨other, holding', -, more⟩
        · rw [same] at among
          exact before.2 generation among
        · rw [more] at among
          rcases List.mem_append.mp among with old | new
          · exact before.2 generation old
          · rw [List.mem_singleton.mp new]
            rw [held] at holding'
            cases holding'
            exact Nat.le_refl _
      · rw [current]
        exact ⟨Nat.le_refl _, bounded⟩

theorem Ascending.quiet (ascending : Ascending state) (guarded : Guarded state)
    (readers : after.readers = state.readers) (active : after.activeIndex = state.activeIndex)
    (banks : ∀ other, target state.writer ≠ some other → after.banks other = state.banks other)
    (generation : state.generation ≤ after.generation)
    (filling : ∀ slot sends, after.writer = .filling slot sends →
      (after.banks slot).generation = after.generation) : Ascending after := by
  have same : after.banks after.activeIndex = state.banks state.activeIndex := by
    rw [active]
    exact banks _ fun written => guarded.inactive _ written rfl
  have held : ∀ entry ∈ state.readers, ∀ slot, entry.phase = .holding slot →
      after.banks slot = state.banks slot := fun entry member slot holding =>
    banks slot fun written => guarded.unheld slot written entry member holding
  constructor
  · rw [same]
    exact ascending.active.trans generation
  · exact filling
  · rw [readers]
    exact ascending.sorted
  · rw [readers, same]
    exact ascending.seen
  · rw [readers, same]
    intro entry member slot holding
    rw [held entry member slot holding]
    exact ascending.held entry member slot holding

theorem Ascending.switch {sends : Bool} (ascending : Ascending state)
    (written : state.writer = .filling slot sends) (readers : after.readers = state.readers)
    (active : after.activeIndex = slot) (banks : after.banks = state.banks)
    (generation : after.generation = state.generation)
    (filling : ∀ slot sends, after.writer ≠ .filling slot sends) : Ascending after := by
  have newest := ascending.filling slot sends written
  have newer : (state.banks state.activeIndex).generation ≤ (state.banks slot).generation := by
    rw [newest]
    exact ascending.active
  constructor
  · rw [banks, active, generation, newest]
  · exact fun slot sends filled => absurd filled (filling slot sends)
  · rw [readers]
    exact ascending.sorted
  · rw [readers, banks, active]
    exact fun entry member generation among =>
      (ascending.seen entry member generation among).trans newer
  · rw [readers, banks, active]
    intro entry member other holding
    have before := ascending.held entry member other holding
    exact ⟨before.1.trans newer, before.2⟩

theorem Ascending.of_writes (ascending : Ascending state) (guarded : Guarded state)
    (writes : Writes state after) : Ascending after := by
  obtain ⟨readers, -, banks⟩ := writes.frame
  cases writes with
  | append idle =>
    have active : state.append.activeIndex = state.activeIndex := by
      unfold append
      split <;> rfl
    have generation : state.append.generation = state.generation := by
      unfold append
      simp only
      split <;> rfl
    refine ascending.quiet guarded readers active banks generation.ge fun _ _ filling => ?_
    rw [append_writer, idle] at filling
    cases filling
  | markDirty idle | drop _ idle =>
    exact ascending.quiet guarded readers rfl banks le_rfl ascending.filling
  | @stamp slot sends writing =>
    refine ascending.quiet guarded readers rfl banks (Nat.le_succ _) fun _ _ filling => ?_
    cases filling
    simp [setBank]
  | @fill slot sends entries writing =>
    refine ascending.quiet guarded readers rfl banks le_rfl fun other sends filling => ?_
    have before := ascending.filling other sends filling
    by_cases own : other = slot
    · simpa [setBank, own] using own ▸ before
    · simpa [setBank, own] using before
  | @switch slot sends writing =>
    refine ascending.switch writing rfl rfl rfl rfl fun _ _ filling => ?_
    cases sends <;> cases filling
  | _ => exact ascending.quiet guarded readers rfl banks le_rfl fun _ _ filling => by cases filling

/-! ### Sequence numbers -/

/-- A draw that is not far before another one is not after it. -/
theorem not_sequenceAfter_of_le {early late : Nat} (real : sequenceValue early ≠ 0)
    (known : sequenceValue late ≠ 0) (order : early ≤ late) (close : late - early ≤ 2 ^ 31) :
    sequenceAfter (sequenceValue early) (sequenceValue late) = false := by
  unfold sequenceAfter
  unfold sequenceValue at *
  rw [if_neg (not_or.mpr ⟨real, known⟩)]
  by_cases same : early = late
  · simp [same]
  · have distance : (early % 2 ^ 32 + 2 ^ 32 - late % 2 ^ 32) % 2 ^ 32 =
        2 ^ 32 - (late - early) := by omega
    rw [distance]
    have far : ¬2 ^ 32 - (late - early) < 2 ^ 31 := by omega
    simp only [Bool.and_eq_false_iff, decide_eq_false_iff_not]
    exact .inr far

/-- An event that a ceiling covers: it was drawn before, or the values have it so. -/
def Covered (ceiling event : Nat) : Prop :=
  sequenceValue event ≠ 0 ∧
    (event ≤ ceiling ∨ sequenceAfter (sequenceValue event) (sequenceValue ceiling) = false)

/-- The ceiling after an event is appended. -/
def raised (next ceiling : Nat) : Nat :=
  if sequenceAfter (sequenceValue next) (sequenceValue ceiling) then next else ceiling

theorem covered_raised {next ceiling : Nat} (real : sequenceValue next ≠ 0) :
    Covered (raised next ceiling) next := by
  refine ⟨real, ?_⟩
  unfold raised
  split
  · exact .inl le_rfl
  · rename_i behind
    exact .inr (Bool.eq_false_iff.mpr behind)

/-- The ceiling rises to a number that no event has had. -/
theorem Covered.raised {next ceiling event : Nat} (covered : Covered ceiling event)
    (drawn : event < next) : Covered (raised next ceiling) event := by
  unfold Publication.raised
  split
  · exact ⟨covered.1, .inl drawn.le⟩
  · exact covered

/-- An event that may be sent: the ceiling covers it, and the active bank does. -/
structure Cleared (state : Publication κ) (event : Nat) : Prop where
  drawn : event < state.nextSequence
  ceiling : Covered state.ceiling event
  active : Covered (state.banks state.activeIndex).eventSequenceCeiling event

/-- Every event in the queue is covered by the active bank. -/
structure Sequenced (state : Publication κ) : Prop where
  drawn : state.ceiling < state.nextSequence
  real : state.ceiling = 0 ∨ sequenceValue state.ceiling ≠ 0
  active : (state.banks state.activeIndex).eventSequenceCeiling ≤ state.ceiling
  /-- The ceiling of the active bank is a sequence number, or there is none yet. -/
  known : (state.banks state.activeIndex).eventSequenceCeiling = 0 ∨
    sequenceValue (state.banks state.activeIndex).eventSequenceCeiling ≠ 0
  pending : ∀ event ∈ state.pending, event < state.nextSequence ∧ Covered state.ceiling event
  /-- When the state is published the active bank covers them. -/
  clean : state.dirty = false → ∀ event ∈ state.pending,
    Covered (state.banks state.activeIndex).eventSequenceCeiling event
  /-- A bank that is being filled has the ceiling. -/
  filling : ∀ slot sends, state.writer = .filling slot sends →
    (state.banks slot).eventSequenceCeiling = state.ceiling
  sending : ∀ todo, state.writer = .sending todo → ∀ event ∈ todo, Cleared state event
  queue : ∀ event ∈ state.queue, Cleared state event

/-- A step that touches neither the events nor the active bank. -/
theorem Sequenced.quiet (sequenced : Sequenced state)
    (ceiling : after.ceiling = state.ceiling) (next : state.nextSequence ≤ after.nextSequence)
    (bank : after.banks after.activeIndex = state.banks state.activeIndex)
    (pending : ∀ event ∈ after.pending, event ∈ state.pending)
    (queue : ∀ event ∈ after.queue, event ∈ state.queue)
    (clean : after.dirty = false → state.dirty = false)
    (filling : ∀ slot sends, after.writer = .filling slot sends →
      (after.banks slot).eventSequenceCeiling = state.ceiling)
    (sending : ∀ todo, after.writer = .sending todo → ∀ event ∈ todo, Cleared state event) :
    Sequenced after := by
  have cleared : ∀ event, Cleared state event → Cleared after event := fun event before => by
    refine ⟨Nat.lt_of_lt_of_le before.drawn next, ?_, ?_⟩
    · rw [ceiling]
      exact before.ceiling
    · rw [bank]
      exact before.active
  constructor
  · rw [ceiling]
    exact Nat.lt_of_lt_of_le sequenced.drawn next
  · rw [ceiling]
    exact sequenced.real
  · rw [bank, ceiling]
    exact sequenced.active
  · rw [bank]
    exact sequenced.known
  · intro event member
    have ⟨drawn, covered⟩ := sequenced.pending event (pending event member)
    rw [ceiling]
    exact ⟨Nat.lt_of_lt_of_le drawn next, covered⟩
  · rw [bank]
    exact fun published event member =>
      sequenced.clean (clean published) event (pending event member)
  · rw [ceiling]
    exact filling
  · exact fun todo sends event member => cleared event (sending todo sends event member)
  · exact fun event member => cleared event (sequenced.queue event (queue event member))

theorem Sequenced.of_readerStep {action : ReaderAction} (sequenced : Sequenced state)
    (stepped : state.readerStep index action entry.phase = some after) : Sequenced after := by
  obtain ⟨change, moves⟩ := readerStep_moves stepped
  rw [moves.frame]
  exact sequenced.quiet rfl le_rfl rfl (fun _ => id) (fun _ => id)
    id sequenced.filling sequenced.sending

theorem Sequenced.append (sequenced : Sequenced state) (idle : state.writer = .idle) :
    Sequenced state.append := by
  by_cases skipped : sequenceValue state.nextSequence = 0
  · have same : state.append = { state with nextSequence := state.nextSequence + 1 } := by
      simp [Publication.append, skipped]
    rw [same]
    exact sequenced.quiet rfl (Nat.le_succ _) rfl (fun _ => id) (fun _ => id)
      id sequenced.filling sequenced.sending
  · have same : state.append = { state with
        nextSequence := state.nextSequence + 1
        pending := state.pending ++ [state.nextSequence]
        ceiling := raised state.nextSequence state.ceiling
        dirty := true } := by
      simp [Publication.append, skipped, raised]
    have bounds : state.ceiling ≤ raised state.nextSequence state.ceiling ∧
        raised state.nextSequence state.ceiling ≤ state.nextSequence := by
      have drawn := sequenced.drawn
      unfold raised
      split <;> omega
    rw [same]
    constructor
    · exact Nat.lt_succ_of_le bounds.2
    · unfold raised
      split
      · exact .inr skipped
      · exact sequenced.real
    · exact sequenced.active.trans bounds.1
    · exact sequenced.known
    · intro event member
      rcases List.mem_append.mp member with old | new
      · have ⟨drawn, covered⟩ := sequenced.pending event old
        exact ⟨Nat.lt_succ_of_lt drawn, covered.raised drawn⟩
      · rw [List.mem_singleton.mp new]
        exact ⟨Nat.lt_succ_self _, covered_raised skipped⟩
    · intro clean
      cases clean
    · intro slot sends filling
      rw [show state.writer = .filling slot sends from filling] at idle
      cases idle
    · intro todo sending
      rw [show state.writer = .sending todo from sending] at idle
      cases idle
    · intro event member
      have before := sequenced.queue event member
      exact ⟨Nat.lt_succ_of_lt before.drawn, before.ceiling.raised before.drawn, before.active⟩

theorem Sequenced.of_writes (sequenced : Sequenced state) (guarded : Guarded state)
    (writes : Writes state after) : Sequenced after := by
  obtain ⟨-, -, banks⟩ := writes.frame
  have active : after.banks state.activeIndex = state.banks state.activeIndex :=
    banks _ fun written => guarded.inactive _ written rfl
  cases writes with
  | append idle => exact sequenced.append idle
  | markDirty =>
    exact sequenced.quiet rfl le_rfl rfl (fun _ => id) (fun _ => id)
      (fun clean => by cases clean) sequenced.filling sequenced.sending
  | drop event =>
    exact sequenced.quiet rfl le_rfl rfl (fun _ member => List.mem_of_mem_erase member)
      (fun _ => id) id sequenced.filling sequenced.sending
  | enqueue idle clean =>
    exact sequenced.quiet rfl le_rfl rfl (fun _ => id) (fun _ => id)
      id (fun _ _ filling => by cases filling)
      fun _ sending event member => by
        cases sending
        have ⟨drawn, covered⟩ := sequenced.pending event member
        exact ⟨drawn, covered, sequenced.clean clean event member⟩
  | @stamp slot sends writing =>
    refine sequenced.quiet rfl le_rfl active (fun _ => id) (fun _ => id)
      id (fun _ _ filling => ?_) fun _ sending => by cases sending
    cases filling
    simp [setBank]
  | @fill slot sends entries writing =>
    refine sequenced.quiet rfl le_rfl active (fun _ => id) (fun _ => id)
      id (fun other sends filling => ?_) sequenced.sending
    have before := sequenced.filling other sends filling
    by_cases own : other = slot
    · simpa [setBank, own] using own ▸ before
    · simpa [setBank, own] using before
  | @switch slot sends writing =>
    have filled := sequenced.filling slot sends writing
    have covers : ∀ event ∈ state.pending,
        Covered (state.banks slot).eventSequenceCeiling event := by
      rw [filled]
      exact fun event member => (sequenced.pending event member).2
    constructor
    · exact sequenced.drawn
    · exact sequenced.real
    · exact filled.le
    · change (state.banks slot).eventSequenceCeiling = 0 ∨ _
      rw [filled]
      exact sequenced.real
    · exact sequenced.pending
    · exact fun _ => covers
    · intro _ _ filling
      cases sends <;> cases filling
    · intro todo sending
      cases sends with
      | true =>
        cases sending
        exact fun event member => ⟨(sequenced.pending event member).1,
          (sequenced.pending event member).2, covers event member⟩
      | false => cases sending
    · intro event member
      have ⟨drawn, covered, _⟩ := sequenced.queue event member
      exact ⟨drawn, covered, by simpa only [filled] using covered⟩
  | @send event rest sending =>
    have todo := sequenced.sending _ sending
    constructor
    · exact sequenced.drawn
    · exact sequenced.real
    · exact sequenced.active
    · exact sequenced.known
    · exact sequenced.pending
    · exact sequenced.clean
    · intro _ _ filling
      cases filling
    · intro _ later event member
      cases later
      exact { todo event (List.mem_cons_of_mem _ member) with }
    · intro event member
      rcases List.mem_append.mp member with old | new
      · exact { sequenced.queue event old with }
      · rw [List.mem_singleton.mp new]
        exact { todo _ List.mem_cons_self with }
  | stop =>
    exact sequenced.quiet rfl le_rfl rfl (fun _ member => by cases member) (fun _ => id)
      id (fun _ _ filling => by cases filling) fun _ sending => by cases sending
  | _ =>
    exact sequenced.quiet rfl le_rfl active (fun _ => id) (fun _ => id)
      id (fun _ _ filling => by cases filling) fun _ sending => by cases sending

/-! ### Every interleaving -/

/-- What holds in every state of a run. -/
structure Consistent (state : Publication κ) : Prop where
  counted : Counted state
  guarded : Guarded state
  ascending : Ascending state
  sequenced : Sequenced state

theorem Consistent.of_step {action : Action κ} (consistent : Consistent state)
    (stepped : state.step action = some after) : Consistent after := by
  cases action with
  | reader index action =>
    simp only [step] at stepped
    cases found : state.readers[index]? with
    | none => simp [found] at stepped
    | some entry =>
      simp only [found] at stepped
      exact ⟨consistent.counted.of_readerStep found stepped,
        consistent.guarded.of_readerStep found stepped,
        consistent.ascending.of_readerStep found stepped,
        consistent.sequenced.of_readerStep stepped⟩
  | writer action =>
    have writes := writerStep_writes stepped
    obtain ⟨readers, counts, -⟩ := writes.frame
    have counted : Counted after := by
      constructor
      · rw [readers]
        exact consistent.counted.few
      · rw [readers, counts]
        exact consistent.counted.exact
      · rw [readers]
        exact consistent.counted.sound
    exact ⟨counted, consistent.guarded.of_writes consistent.counted writes,
      consistent.ascending.of_writes consistent.guarded writes,
      consistent.sequenced.of_writes consistent.guarded writes⟩
  | draw =>
    cases stepped
    obtain ⟨counted, guarded, ascending, sequenced⟩ := consistent
    exact ⟨{ counted with },
      { guarded with },
      { ascending with },
      sequenced.quiet rfl (Nat.le_succ _) rfl (fun _ => id) (fun _ => id) id sequenced.filling
        sequenced.sending⟩
  | take =>
    simp only [step] at stepped
    split at stepped <;> cases stepped
    rename_i event rest queued
    obtain ⟨counted, guarded, ascending, sequenced⟩ := consistent
    exact ⟨{ counted with },
      { guarded with },
      { ascending with },
      sequenced.quiet rfl le_rfl rfl (fun _ => id)
        (fun _ member => by rw [queued]; exact List.mem_cons_of_mem _ member) id
        sequenced.filling sequenced.sending⟩

theorem consistent_start {readers capacity : Nat} (few : readers < 2 ^ 32) :
    Consistent (start κ readers capacity) := by
  have fresh : ∀ entry ∈ (start κ readers capacity).readers, entry = {} := fun entry member =>
    List.eq_of_mem_replicate member
  have uncounted (slot : Slot) : tally (counts slot) (start κ readers capacity).readers = 0 := by
    have none_counts : ∀ entry ∈ (start κ readers capacity).readers, counts slot entry = 0 := by
      intro entry member
      rw [fresh entry member]
      rfl
    rw [tally_congr none_counts, tally_zero]
  refine ⟨⟨?_, fun slot => (uncounted slot).symm, fun entry member slot => ?_⟩,
    .of_no_target rfl (fun _ _ scans => by cases scans), ?_, ?_⟩
  · simpa [start] using few
  · rw [fresh entry member]
    exact nofun
  · constructor
    · exact le_rfl
    · intro _ _ filling
      cases filling
    · intro entry member
      rw [fresh entry member]
      exact List.Pairwise.nil
    · intro entry member generation among
      rw [fresh entry member] at among
      cases among
    · intro entry member slot holding
      rw [fresh entry member] at holding
      cases holding
  · constructor
    · exact Nat.zero_lt_one
    · exact .inl rfl
    · exact le_rfl
    · exact .inl rfl
    · exact nofun
    · exact fun _ => nofun
    · intro _ _ filling
      cases filling
    · intro _ sending
      cases sending
    · exact nofun

theorem Reachable.consistent {readers capacity : Nat} (few : readers < 2 ^ 32)
    (run : Reachable (Publication.start κ readers capacity) state) : Consistent state := by
  induction run with
  | start => exact consistent_start few
  | step action _ stepped consistent => exact consistent.of_step stepped

theorem Consistent.untouched {action : Action κ} (consistent : Consistent state)
    (stepped : state.step action = some after) (member : entry ∈ state.readers)
    (holding : entry.phase = .holding slot) : after.banks slot = state.banks slot := by
  cases action with
  | reader index action =>
    simp only [step] at stepped
    split at stepped
    · obtain ⟨change, moves⟩ := readerStep_moves stepped
      rw [moves.frame]
    · cases stepped
  | writer action =>
    obtain ⟨-, -, banks⟩ := (writerStep_writes stepped).frame
    exact banks slot fun written =>
      consistent.guarded.unheld slot written entry member holding
  | draw =>
    cases stepped
    rfl
  | take =>
    simp only [step] at stepped
    split at stepped <;> cases stepped
    rfl

/-- With fewer readers than a counter counts, a bank that is held is not modified, whatever step
comes next. Until the generations wrap around a reader sees them in order. And an event in the queue
is not after the ceiling of the active bank, unless more than half of the sequence numbers were
drawn since. -/
theorem publication_consistent {readers capacity : Nat} (few : readers < 2 ^ 32)
    (run : Reachable (start κ readers capacity) state) :
    (∀ action after, state.step action = some after → ∀ entry ∈ state.readers, ∀ slot,
        entry.phase = .holding slot → after.banks slot = state.banks slot) ∧
      (state.generation < 2 ^ 64 → ∀ entry ∈ state.readers,
        (entry.seen.map generationValue).Pairwise (· ≤ ·)) ∧
      ∀ event ∈ state.queue, state.nextSequence - (event + 1) ≤ 2 ^ 31 →
        sequenceAfter (sequenceValue event)
          (sequenceValue (state.banks state.activeIndex).eventSequenceCeiling) = false := by
  have consistent := run.consistent few
  refine ⟨fun action after stepped entry member slot holding =>
    consistent.untouched stepped member holding, fun unwrapped entry member => ?_,
    fun event queued recent => ?_⟩
  · have ascending := consistent.ascending
    have exact : entry.seen.map generationValue = entry.seen := by
      refine (List.map_congr_left fun generation among => ?_).trans (List.map_id _)
      refine Nat.mod_eq_of_lt ?_
      calc generation
        _ ≤ (state.banks state.activeIndex).generation :=
          ascending.seen entry member generation among
        _ ≤ state.generation := ascending.active
        _ < 2 ^ 64 := unwrapped
    rw [exact]
    exact ascending.sorted entry member
  · have sequenced := consistent.sequenced
    have ⟨real, order⟩ := (sequenced.queue event queued).active
    have drawn := sequenced.drawn
    have active := sequenced.active
    rcases order with before | behind
    · have known : sequenceValue (state.banks state.activeIndex).eventSequenceCeiling ≠ 0 := by
        rcases sequenced.known with none_yet | known
        · have zero : event = 0 := by omega
          exact absurd (by rw [zero]; rfl) real
        · exact known
      exact not_sequenceAfter_of_le real known before (by omega)
    · exact behind

/-- Takes steps one after the other; a step that cannot be taken is left out. -/
def execute (state : Publication κ) (actions : List (Action κ)) : Publication κ :=
  actions.foldl (fun state action => (state.step action).getD state) state

theorem Reachable.execute {start : Publication κ} (run : Reachable start state)
    (actions : List (Action κ)) : Reachable start (state.execute actions) := by
  induction actions generalizing state with
  | nil => exact run
  | cons action rest later =>
    have next : Reachable start ((state.step action).getD state) := by
      cases stepped : state.step action with
      | none => exact run
      | some after => exact .step action run stepped
    exact later next

theorem Reachable.draws {start : Publication κ} (run : Reachable start state) (number : Nat) :
    Reachable start { state with nextSequence := state.nextSequence + number } := by
  induction number with
  | zero => exact run
  | succ number earlier => exact .step .draw earlier rfl

/-- The steps that publish one more event and send it. -/
def publishEvent (taken : Bool) : List (Action Unit) :=
  [.writer .append, .writer (.publish true), .writer .scan, .writer .wipe, .writer .stamp,
    .writer .switch, .writer (.send taken), .writer (.send false)]

/-- An event waits in the queue while half of the sequence numbers are drawn: the ceiling of the
active bank is then before it. -/
theorem event_after_ceiling : ∃ state : Publication Unit, Reachable (start Unit 0 1) state ∧
    state.queue = [1] ∧ sequenceAfter (sequenceValue 1)
      (sequenceValue (state.banks state.activeIndex).eventSequenceCeiling) = true := by
  have sent := (@Reachable.start _ (start Unit 0 1)).execute (publishEvent true) |>.draws (2 ^ 30)
  have refused := (sent.execute (publishEvent false)).draws (2 ^ 30)
  exact ⟨_, refused.execute (publishEvent false), by decide +kernel⟩

/-- A reader holds a bank that was active while another one is published. -/
@[irreducible] def heldWhilePublished : Publication Unit :=
  (start Unit 1 1).execute ([.reader 0 .load, .reader 0 .count, .reader 0 .recheck,
    .reader 0 .look] ++ publishEvent true ++ [.reader 0 .look])

theorem publication_consistent_held : heldWhilePublished.queue = [1] ∧
    heldWhilePublished.readers = [{ phase := .holding 0, seen := [0, 0] }] ∧
    (∀ action after, heldWhilePublished.step action = some after →
      after.banks 0 = heldWhilePublished.banks 0) ∧
    sequenceAfter (sequenceValue 1) (sequenceValue
      (heldWhilePublished.banks heldWhilePublished.activeIndex).eventSequenceCeiling) = false := by
  have queued : heldWhilePublished.queue = [1] := by decide +kernel
  have readers : heldWhilePublished.readers = [{ phase := .holding 0, seen := [0, 0] }] := by
    decide +kernel
  have recent : heldWhilePublished.nextSequence - (1 + 1) ≤ 2 ^ 31 := by decide +kernel
  have few : 1 < 2 ^ 32 := by decide
  have reachable : Reachable (start Unit 1 1) heldWhilePublished := by
    unfold heldWhilePublished
    exact Reachable.start.execute _
  obtain ⟨untouched, -, covered⟩ := publication_consistent few reachable
  refine ⟨queued, readers, fun action after stepped => ?_, covered 1 ?_ recent⟩
  · exact untouched action after stepped _ (by rw [readers]; exact List.mem_cons_self) 0 rfl
  · rw [queued]
    exact List.mem_cons_self

end Publication

end Gizos.Runtime
