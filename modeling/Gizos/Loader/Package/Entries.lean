import Gizos.Bundle.Contents
import Gizos.Loader.Package.Validator

/-! # The validator entry by entry

Fed a stream in any pieces, the validator is where it would be if every complete entry had
been handed to it in one go. `entryStep` is that step, `foldEntries` the run over a list of
entries, and `Reads` says how far into its next entry a validator is.
-/
namespace Gizos.Loader.LayoutValidator

open Gizos.Bundle

variable {digest : DigestApi} {appEntryPath : Bytes}

variable {v after begun taken : LayoutValidator} {entry : Entry}
  {block content bytes data rest : Bytes} {entries : List (Entry × Bytes)}

/-- One whole entry: start, content, end and padding. -/
def entryStep (digest : DigestApi) (appEntryPath : Bytes) (v : LayoutValidator)
    (entry : Entry × Bytes) : Except Int LayoutValidator := do
  let v ← startEntry digest appEntryPath v entry.1
  if v.readingHeader then .ok v
  else
    let v ← absorb v entry.2
    let v ← finishContent digest { v with remaining := 0 }
    .ok { v with paddingRemaining := 0, readingPadding := false, readingHeader := true }

/-- The validator after whole entries. -/
def foldEntries (digest : DigestApi) (appEntryPath : Bytes) (entries : List (Entry × Bytes)) :
    Except Int LayoutValidator :=
  entries.foldlM (entryStep digest appEntryPath) start

/-- The validator is between entries, before the end of the archive. -/
structure Settled (v : LayoutValidator) : Prop where
  header : v.header = []
  zeroBlocks : v.zeroBlocks = 0
  readingHeader : v.readingHeader = true
  readingPadding : v.readingPadding = false
  remaining : v.remaining = 0
  paddingRemaining : v.paddingRemaining = 0
  done : v.done = false

/-- The stream position, which only the consuming functions move. -/
def position (v : LayoutValidator) : Bytes × Nat × Bool × Entry × Nat × Nat :=
  (v.header, v.zeroBlocks, v.done, v.entry, v.remaining, v.paddingRemaining)

/-- Absorbing content does not move the stream position or the reading mode. -/
theorem absorb_position {piece : Bytes} (absorbed : absorb v piece = .ok after) :
    after.position = v.position ∧ after.readingHeader = v.readingHeader ∧
      after.readingPadding = v.readingPadding := by
  unfold absorb at absorbed
  split at absorbed
  · split at absorbed
    · cases absorbed
    · cases absorbed; exact ⟨rfl, rfl, rfl⟩
  · split at absorbed
    · split at absorbed
      · cases absorbed
      · cases absorbed; exact ⟨rfl, rfl, rfl⟩
    · split at absorbed
      · cases absorbed; exact ⟨rfl, rfl, rfl⟩
      · split at absorbed
        all_goals cases absorbed; exact ⟨rfl, rfl, rfl⟩

/-- Ending an entry's content does not move the stream position or the reading mode. -/
theorem finishContent_position (finished : finishContent digest v = .ok after) :
    after.position = v.position ∧ after.readingHeader = v.readingHeader ∧
      after.readingPadding = v.readingPadding := by
  unfold finishContent at finished
  split at finished
  · split at finished
    · cases finished
    · split at finished
      · cases finished; exact ⟨rfl, rfl, rfl⟩
      · cases finished
  · split at finished
    · unfold finishChecksum at finished
      split at finished
      · cases finished
      · cases finished; exact ⟨rfl, rfl, rfl⟩
    · split at finished
      · cases finished; exact ⟨rfl, rfl, rfl⟩
      · split at finished
        · split at finished
          · cases finished
          · cases finished; exact ⟨rfl, rfl, rfl⟩
        · cases finished; exact ⟨rfl, rfl, rfl⟩

/-- Content absorbed in two pieces is content absorbed at once. -/
theorem absorb_append {middle : LayoutValidator} {first second : Bytes}
    (absorbed : absorb v first = .ok middle) :
    absorb middle second = absorb v (first ++ second) := by
  unfold absorb at absorbed
  by_cases manifest : v.entry.path = manifestPath
  · simp only [manifest, if_true] at absorbed
    split at absorbed
    · cases absorbed
    · cases absorbed
      simp [absorb, manifest, Nat.add_assoc]
  simp only [manifest, if_false] at absorbed
  by_cases checksum : v.entry.path = checksumPath
  · simp only [checksum, if_true] at absorbed
    split at absorbed
    · cases absorbed
    · cases absorbed
      have other : checksumPath ≠ manifestPath := by decide
      simp [absorb, checksum, other, Nat.add_assoc]
  simp only [checksum, if_false] at absorbed
  split at absorbed
  · rename_i data
    cases absorbed
    simp [absorb, manifest, checksum, data]
  · rename_i data
    split at absorbed
    · rename_i image
      cases absorbed
      simp only [absorb, manifest, checksum, data, image, if_false]
      simp
    · rename_i image
      cases absorbed
      simp only [absorb, manifest, checksum, data, image, if_false]

theorem absorb_remaining (v : LayoutValidator) (piece : Bytes) (remaining : Nat) :
    absorb { v with remaining } piece =
      (absorb v piece).map fun after => { after with remaining } := by
  unfold absorb
  split
  · split <;> rfl
  · split
    · split <;> rfl
    · split
      · rfl
      · split <;> rfl

/-- Hashing a path does not move the stream position or the reading mode. -/
theorem hashDataPath_position (hashed : hashDataPath v entry = .ok after) :
    after.position = v.position ∧ after.readingPadding = v.readingPadding := by
  unfold hashDataPath at hashed
  split at hashed
  · split at hashed
    · cases hashed
    · cases hashed; exact ⟨rfl, rfl⟩
  · cases hashed; exact ⟨rfl, rfl⟩

/-- What starting an entry sets, and what it leaves to the content. -/
structure Started (v : LayoutValidator) (entry : Entry) (after : LayoutValidator) : Prop where
  /-- The stream position is at the start of the entry's content. -/
  position : after.position =
    (v.header, v.zeroBlocks, v.done, entry, entry.size, tarPadding entry.size)
  readingPadding : after.readingPadding = false
  readingHeader : after.readingHeader = true ↔ entry.size = 0

theorem startEntry_started (header : HeaderBlock block entry)
    (begun : startEntry digest appEntryPath v entry = .ok after) : Started v entry after := by
  unfold startEntry at begun
  dsimp only at begun
  split at begun
  · unfold startManifest at begun
    split at begun
    · cases begun
    · cases begun
      exact ⟨rfl, rfl, by simp; omega⟩
  split at begun
  · unfold startChecksum at begun
    split at begun
    · cases begun
    · split at begun
      · cases begun
      · cases begun
        exact ⟨rfl, rfl, by simp; omega⟩
  split at begun
  · rename_i directory
    have empty := (tarParseHeader_safe header.parsed).2 directory.2
    unfold startDirectory at begun
    split at begun
    · cases begun
      exact ⟨rfl, rfl, by simp [empty]⟩
    · split at begun
      · cases begun
      · cases begun
        exact ⟨rfl, rfl, by simp [empty]⟩
  split at begun
  · unfold startData at begun
    split at begun
    · cases begun
    split at begun
    · cases begun
    split at begun
    · cases begun
    obtain ⟨hashed, path, begun⟩ := bind_eq_ok.mp begun
    obtain ⟨inspection, -, begun⟩ := bind_eq_ok.mp begun
    obtain ⟨same, padding⟩ := hashDataPath_position path
    cases begun
    exact ⟨same, padding, by simp⟩
  split at begun
  · unfold startApp at begun
    split at begun
    · cases begun
    dsimp only at begun
    split at begun
    · split at begun
      · cases begun
      · cases begun
        exact ⟨rfl, rfl, by simp; omega⟩
    · cases begun
      exact ⟨rfl, rfl, by simp; omega⟩
  · cases begun

/-- A settled validator has nothing to reset before the next entry. -/
theorem Settled.reset (settled : Settled v) : { v with header := [], zeroBlocks := 0 } = v := by
  obtain ⟨header, zeroBlocks, -, -, -, -, -⟩ := settled
  cases v
  simp_all

theorem entryStep_settled {entry : Entry × Bytes} (settled : Settled v)
    (header : HeaderBlock block entry.1)
    (stepped : entryStep digest appEntryPath v entry = .ok after) : Settled after := by
  obtain ⟨begun, start, stepped⟩ := bind_eq_ok.mp stepped
  obtain ⟨position, padding, next⟩ := startEntry_started header start
  simp only [LayoutValidator.position, Prod.mk.injEq] at position
  obtain ⟨sameHeader, sameZero, sameDone, -, left, pad⟩ := position
  split at stepped
  · rename_i straight
    cases stepped
    have empty := next.mp straight
    rw [empty] at left pad
    exact ⟨sameHeader.trans settled.header, sameZero.trans settled.zeroBlocks, straight, padding,
      left, pad, sameDone.trans settled.done⟩
  · obtain ⟨absorbed, taken, stepped⟩ := bind_eq_ok.mp stepped
    obtain ⟨finished, ended, stepped⟩ := bind_eq_ok.mp stepped
    have first := (absorb_position taken).1
    have second := (finishContent_position ended).1
    simp only [LayoutValidator.position, Prod.mk.injEq] at first second
    cases stepped
    refine ⟨?_, ?_, rfl, rfl, second.2.2.2.2.1, rfl, ?_⟩
    · exact second.1.trans (first.1.trans (sameHeader.trans settled.header))
    · exact second.2.1.trans (first.2.1.trans (sameZero.trans settled.zeroBlocks))
    · exact second.2.2.1.trans (first.2.2.1.trans (sameDone.trans settled.done))

theorem entryStep_inv (header : HeaderBlock block entry)
    (stepped : entryStep digest appEntryPath v (entry, content) = .ok after) :
    ∃ begun, startEntry digest appEntryPath v entry = .ok begun ∧
      ((entry.size = 0 ∧ after = begun) ∨
        0 < entry.size ∧ ∃ taken ended, absorb begun content = .ok taken ∧
          finishContent digest { taken with remaining := 0 } = .ok ended ∧
          after = { ended with
            paddingRemaining := 0, readingPadding := false, readingHeader := true }) := by
  obtain ⟨begun, start, stepped⟩ := bind_eq_ok.mp stepped
  refine ⟨begun, start, ?_⟩
  split at stepped
  · rename_i straight
    cases stepped
    exact .inl ⟨(startEntry_started header start).readingHeader.mp straight, rfl⟩
  · rename_i waits
    obtain ⟨taken, absorbed, stepped⟩ := bind_eq_ok.mp stepped
    obtain ⟨ended, finished, stepped⟩ := bind_eq_ok.mp stepped
    cases stepped
    have positive : 0 < entry.size := by
      by_contra empty
      exact waits ((startEntry_started header start).readingHeader.mpr (by omega))
    exact .inr ⟨positive, taken, ended, absorbed, finished, rfl⟩

/-- One more entry extends the run over whole entries. -/
theorem foldEntries_snoc {entry : Entry × Bytes}
    (folded : foldEntries digest appEntryPath entries = .ok v)
    (stepped : entryStep digest appEntryPath v entry = .ok after) :
    foldEntries digest appEntryPath (entries ++ [entry]) = .ok after := by
  unfold foldEntries at folded ⊢
  rw [List.foldlM_append, folded]
  exact bind_eq_ok.mpr ⟨v, rfl, bind_eq_ok.mpr ⟨after, stepped, rfl⟩⟩

/-- Content taken so far, which may be none. -/
def Absorbed (v : LayoutValidator) (content : Bytes) (after : LayoutValidator) : Prop :=
  (content = [] ∧ after = v) ∨ absorb v content = .ok after

theorem Absorbed.position (absorbed : Absorbed v content after) :
    after.position = v.position ∧ after.readingHeader = v.readingHeader ∧
      after.readingPadding = v.readingPadding := by
  obtain ⟨-, rfl⟩ | taken := absorbed
  · exact ⟨rfl, rfl, rfl⟩
  · exact absorb_position taken

/-- A further piece is absorbed as if all of the content came at once. -/
theorem Absorbed.absorb_append {middle : LayoutValidator} {piece : Bytes}
    (absorbed : Absorbed v content middle) :
    absorb middle piece = absorb v (content ++ piece) := by
  obtain ⟨rfl, rfl⟩ | taken := absorbed
  · rfl
  · exact LayoutValidator.absorb_append taken

/-- Where a validator is after some bytes of a stream that starts with these entries. -/
inductive Reads (digest : DigestApi) (appEntryPath : Bytes) :
    LayoutValidator → Bytes → List (Entry × Bytes) → Prop where
  /-- Inside a header block. -/
  | header {v : LayoutValidator} {bytes header : Bytes} {zeros : Nat}
    {entries : List (Entry × Bytes)} (settled : Settled v)
    (folded : foldEntries digest appEntryPath entries = .ok v)
    (wrote : Wrote bytes zeros entries) (few : zeros < 2) (short : header.length < 512) :
    Reads digest appEntryPath { v with header, zeroBlocks := zeros } (bytes ++ header) entries
  /-- Inside the content of an entry. -/
  | content {v begun taken : LayoutValidator} {bytes block content : Bytes} {zeros left : Nat}
    {entry : Entry} {entries : List (Entry × Bytes)} (settled : Settled v)
    (folded : foldEntries digest appEntryPath entries = .ok v)
    (wrote : Wrote bytes zeros entries) (few : zeros < 2) (opened : HeaderBlock block entry)
    (start : startEntry digest appEntryPath v entry = .ok begun)
    (reading : begun.readingHeader = false) (absorbed : Absorbed begun content taken)
    (split : content.length + left = entry.size) (positive : 0 < left) :
    Reads digest appEntryPath { taken with remaining := left } (bytes ++ (block ++ content)) entries
  /-- Inside the padding after an entry. -/
  | padding {v begun taken ended : LayoutValidator} {bytes block content padding : Bytes}
    {zeros left : Nat} {entry : Entry} {entries : List (Entry × Bytes)} (settled : Settled v)
    (folded : foldEntries digest appEntryPath entries = .ok v)
    (wrote : Wrote bytes zeros entries) (few : zeros < 2) (opened : HeaderBlock block entry)
    (start : startEntry digest appEntryPath v entry = .ok begun)
    (reading : begun.readingHeader = false) (absorbed : absorb begun content = .ok taken)
    (whole : content.length = entry.size)
    (finished : finishContent digest { taken with remaining := 0 } = .ok ended)
    (split : padding.length + left = tarPadding entry.size) (positive : 0 < left) :
    Reads digest appEntryPath { ended with readingPadding := true, paddingRemaining := left }
      (bytes ++ (block ++ (content ++ padding))) entries
  /-- Behind the end of the archive, where only zeros may follow. -/
  | done {v : LayoutValidator} {bytes tail : Bytes} {entries : List (Entry × Bytes)}
    (settled : Settled v) (folded : foldEntries digest appEntryPath entries = .ok v)
    (wrote : Wrote bytes 2 entries) (zeros : tail.all (· = 0)) :
    Reads digest appEntryPath { v with zeroBlocks := 2, done := true } (bytes ++ tail) entries

theorem entryStep_content {ended : LayoutValidator}
    (start : startEntry digest appEntryPath v entry = .ok begun)
    (reading : begun.readingHeader = false) (absorbed : absorb begun content = .ok taken)
    (finished : finishContent digest { taken with remaining := 0 } = .ok ended) :
    entryStep digest appEntryPath v (entry, content) =
      .ok { ended with paddingRemaining := 0, readingPadding := false, readingHeader := true } := by
  refine bind_eq_ok.mpr ⟨begun, start, ?_⟩
  rw [reading]
  exact bind_eq_ok.mpr ⟨taken, absorbed, bind_eq_ok.mpr ⟨ended, finished, rfl⟩⟩

theorem take_ne_nil {limit : Nat} (room : 0 < limit) (more : data ≠ []) :
    data.take (min limit data.length) ≠ [] := by
  rw [← List.take_take, List.take_length, Ne, List.take_eq_nil_iff]
  exact not_or.mpr ⟨room.ne', more⟩

section

variable {zeros : Nat} (settled : Settled v)
  (folded : foldEntries digest appEntryPath entries = .ok v) (wrote : Wrote bytes zeros entries)
  (few : zeros < 2)

include settled folded wrote few

/-- A validator that has just completed an entry is between entries. -/
theorem reads_entry {padding : Bytes} (opened : HeaderBlock block entry)
    (stepped : entryStep digest appEntryPath v (entry, content) = .ok after)
    (whole : content.length = entry.size) (padded : padding.length = tarPadding entry.size) :
    Reads digest appEntryPath after (bytes ++ (block ++ (content ++ padding)))
      (entries ++ [(entry, content)]) := by
  have settled' := entryStep_settled settled opened stepped
  have between : Reads digest appEntryPath { after with header := [], zeroBlocks := 0 } _ _ :=
    .header settled' (foldEntries_snoc folded stepped) (wrote.entry few opened whole padded)
      (by decide) (by simp)
  rw [settled'.reset, List.append_nil] at between
  exact between

/-- A zero block is counted, and the second one in a row ends the archive. -/
theorem reads_zero (zero : ZeroBlock block) :
    Reads digest appEntryPath
      { v with header := [], zeroBlocks := zeros + 1, done := v.done || zeros + 1 ≥ 2 }
      (bytes ++ block) entries := by
  have counted := wrote.zero zero
  obtain rfl | rfl : zeros = 0 ∨ zeros = 1 := by omega
  · have next : Reads digest appEntryPath { v with header := [], zeroBlocks := 1 }
        (bytes ++ block ++ []) entries :=
      .header settled folded counted (by decide) (by simp)
    simpa [settled.done] using next
  · have last : Reads digest appEntryPath { v with zeroBlocks := 2, done := true }
        (bytes ++ block ++ []) entries := .done settled folded counted (by simp)
    simpa [settled.header] using last

/-- A started entry is either complete at once or waits for its content. -/
theorem reads_started (opened : HeaderBlock block entry)
    (start : startEntry digest appEntryPath v entry = .ok begun) :
    ∃ later, Reads digest appEntryPath begun (bytes ++ block) (entries ++ later) := by
  obtain ⟨position, -, next⟩ := startEntry_started opened start
  simp only [LayoutValidator.position, Prod.mk.injEq] at position
  by_cases straight : begun.readingHeader = true
  · have empty := next.mp straight
    have stepped : entryStep digest appEntryPath v (entry, []) = .ok begun :=
      bind_eq_ok.mpr ⟨begun, start, if_pos straight⟩
    have complete := reads_entry settled folded wrote few opened stepped (by simp [empty])
      (show ([] : Bytes).length = tarPadding entry.size by simp [empty, tarPadding])
    exact ⟨_, by simpa using complete⟩
  · have reading : begun.readingHeader = false := by simpa using straight
    have positive : 0 < entry.size := by
      by_contra none
      exact straight (next.mpr (by omega))
    have waiting : Reads digest appEntryPath { begun with remaining := entry.size }
        (bytes ++ (block ++ [])) entries :=
      .content settled folded wrote few opened start reading (.inl ⟨rfl, rfl⟩) (by simp) positive
    have same : { begun with remaining := entry.size } = begun := by rw [← position.2.2.2.2.1]
    rw [same] at waiting
    exact ⟨[], by simpa using waiting⟩

theorem consumeHeader_reads {header : Bytes} (short : header.length < 512)
    (consumed : consumeHeader digest appEntryPath { v with header, zeroBlocks := zeros } data =
      .ok (after, rest)) :
    ∃ taken later, data = taken ++ rest ∧ (data ≠ [] → taken ≠ []) ∧
      Reads digest appEntryPath after (bytes ++ header ++ taken) (entries ++ later) := by
  unfold consumeHeader at consumed
  dsimp only at consumed
  set take := min (512 - header.length) data.length with taken
  have whole := (List.take_append_drop take data).symm
  have some : data ≠ [] → data.take take ≠ [] := take_ne_nil (by omega)
  split at consumed
  · rename_i unfinished
    cases consumed
    refine ⟨data.take take, [], whole, some, ?_⟩
    rw [List.append_nil, List.append_assoc]
    exact .header settled folded wrote few unfinished
  · rename_i full
    have size : (header ++ data.take take).length = 512 := by
      simp only [List.length_append, List.length_take] at full ⊢
      omega
    obtain ⟨started, parsed, consumed⟩ := bind_eq_ok.mp consumed
    cases consumed
    obtain ⟨found, block, parsed⟩ := bind_eq_ok.mp parsed
    cases found with
    | none =>
      have zero : ZeroBlock (header ++ data.take take) := ⟨size, block⟩
      cases parsed
      refine ⟨data.take take, [], whole, some, ?_⟩
      rw [List.append_nil, List.append_assoc]
      exact reads_zero (v := v) settled folded wrote few zero
    | some entry =>
      have opened : HeaderBlock (header ++ data.take take) entry := ⟨size, block⟩
      dsimp only at parsed
      split at parsed
      · cases parsed
      rw [settled.reset] at parsed
      obtain ⟨later, reads⟩ := reads_started settled folded wrote few opened parsed
      refine ⟨data.take take, later, whole, some, ?_⟩
      rw [List.append_assoc]
      exact reads

variable (opened : HeaderBlock block entry)
  (start : startEntry digest appEntryPath v entry = .ok begun)
  (reading : begun.readingHeader = false)

include opened start reading

/-- An entry whose content is complete either waits for its padding or is done. -/
theorem reads_finished (absorbed : absorb begun content = .ok taken)
    (whole : content.length = entry.size)
    (ended : finishEntry digest { taken with remaining := 0 } = .ok after) :
    ∃ later, Reads digest appEntryPath after (bytes ++ (block ++ content)) (entries ++ later) := by
  obtain ⟨finished, content', ended⟩ := bind_eq_ok.mp ended
  obtain ⟨position, padding, -⟩ := startEntry_started opened start
  have first := absorb_position absorbed
  have second := finishContent_position content'
  have left : finished.paddingRemaining = tarPadding entry.size := by
    have begunLeft : begun.paddingRemaining = tarPadding entry.size :=
      congrArg (·.2.2.2.2.2) position
    have takenLeft : taken.paddingRemaining = begun.paddingRemaining :=
      congrArg (·.2.2.2.2.2) first.1
    have finishedLeft : finished.paddingRemaining = taken.paddingRemaining :=
      congrArg (·.2.2.2.2.2) second.1
    rw [finishedLeft, takenLeft, begunLeft]
  split at ended
  · rename_i more
    cases ended
    have waiting : Reads digest appEntryPath
        { finished with readingPadding := true, paddingRemaining := tarPadding entry.size }
        (bytes ++ (block ++ (content ++ []))) entries :=
      .padding settled folded wrote few opened start reading absorbed whole content' (by simp)
        (left ▸ more)
    rw [← left] at waiting
    exact ⟨[], by simpa using waiting⟩
  · rename_i none
    cases ended
    have stepped := entryStep_content start reading absorbed content'
    have padded : ([] : Bytes).length = tarPadding entry.size := by
      rw [List.length_nil]
      omega
    have complete := reads_entry settled folded wrote few opened stepped whole padded
    have idle : finished.readingPadding = false :=
      second.2.2.trans (first.2.2.trans padding)
    have same : { finished with
        paddingRemaining := 0, readingPadding := false, readingHeader := true } =
        { finished with readingHeader := true } := by
      rw [← idle, show 0 = finished.paddingRemaining by omega]
    rw [same, List.append_nil] at complete
    exact ⟨_, complete⟩

theorem consumeFile_reads {left : Nat} (absorbed : Absorbed begun content taken)
    (split : content.length + left = entry.size) (positive : 0 < left)
    (consumed : consumeFile digest { taken with remaining := left } data = .ok (after, rest)) :
    ∃ piece later, data = piece ++ rest ∧ (data ≠ [] → piece ≠ []) ∧
      Reads digest appEntryPath after (bytes ++ (block ++ content) ++ piece)
        (entries ++ later) := by
  unfold consumeFile at consumed
  dsimp only at consumed
  set take := min left data.length with taking
  have whole := (List.take_append_drop take data).symm
  have some : data ≠ [] → data.take take ≠ [] := take_ne_nil positive
  rw [absorb_remaining, absorbed.absorb_append] at consumed
  cases grew : absorb begun (content ++ data.take take) with
  | error code => rw [grew] at consumed; cases consumed
  | ok grown =>
    rw [grew] at consumed
    replace consumed : (if left - take = 0 then do
        let v ← finishEntry digest { grown with remaining := left - take }
        .ok (v, data.drop take)
      else .ok ({ grown with remaining := left - take }, data.drop take)) = .ok (after, rest) :=
      consumed
    have length : (content ++ data.take take).length + (left - take) = entry.size := by
      simp only [List.length_append, List.length_take]
      omega
    have regroup : bytes ++ (block ++ content) ++ data.take take =
        bytes ++ (block ++ (content ++ data.take take)) := by simp
    split_ifs at consumed with complete
    · obtain ⟨finished, ended, consumed⟩ := bind_eq_ok.mp consumed
      cases consumed
      rw [complete] at ended length
      obtain ⟨later, reads⟩ :=
        reads_finished settled folded wrote few opened start reading grew length ended
      exact ⟨data.take take, later, whole, some, regroup ▸ reads⟩
    · cases consumed
      refine ⟨data.take take, [], whole, some, ?_⟩
      rw [regroup, List.append_nil]
      exact .content settled folded wrote few opened start reading (.inr grew) length (by omega)

theorem consumePadding_reads {ended : LayoutValidator} {padding : Bytes} {left : Nat}
    (absorbed : absorb begun content = .ok taken)
    (whole : content.length = entry.size)
    (finished : finishContent digest { taken with remaining := 0 } = .ok ended)
    (split : padding.length + left = tarPadding entry.size) (positive : 0 < left)
    (consumed : consumePadding { ended with readingPadding := true, paddingRemaining := left }
      data = (after, rest)) :
    ∃ piece later, data = piece ++ rest ∧ (data ≠ [] → piece ≠ []) ∧ Reads digest appEntryPath after
      (bytes ++ (block ++ (content ++ padding)) ++ piece) (entries ++ later) := by
  unfold consumePadding at consumed
  dsimp only at consumed
  set take := min left data.length with taking
  have parts := (List.take_append_drop take data).symm
  have some : data ≠ [] → data.take take ≠ [] := take_ne_nil positive
  have length : (padding ++ data.take take).length + (left - take) = tarPadding entry.size := by
    simp only [List.length_append, List.length_take]
    omega
  have regroup : bytes ++ (block ++ (content ++ padding)) ++ data.take take =
      bytes ++ (block ++ (content ++ (padding ++ data.take take))) := by simp
  split_ifs at consumed with complete
  · cases consumed
    have stepped : entryStep digest appEntryPath v (entry, content) =
        .ok { ended with paddingRemaining := 0, readingPadding := false, readingHeader := true } :=
      entryStep_content start reading absorbed finished
    have padded : (padding ++ data.take take).length = tarPadding entry.size := by omega
    have reads := reads_entry settled folded wrote few opened stepped whole padded
    refine ⟨data.take take, [(entry, content)], parts, some, ?_⟩
    rw [regroup, complete]
    exact reads
  · cases consumed
    refine ⟨data.take take, [], parts, some, ?_⟩
    rw [regroup, List.append_nil]
    exact .padding settled folded wrote few opened start reading absorbed whole finished length
      (by omega)

end

/-- One pass of the loop brings the validator on by what it took, and takes something. -/
theorem Reads.consume (reads : Reads digest appEntryPath v bytes entries)
    (running : v.done = false) (consumed : consume digest appEntryPath v data = .ok (after, rest)) :
    ∃ piece later, data = piece ++ rest ∧ (data ≠ [] → piece ≠ []) ∧
      Reads digest appEntryPath after (bytes ++ piece) (entries ++ later) := by
  unfold LayoutValidator.consume at consumed
  cases reads with
  | header settled folded wrote few short =>
    rw [if_pos settled.readingHeader] at consumed
    exact consumeHeader_reads settled folded wrote few short consumed
  | content settled folded wrote few opened start reading absorbed split positive =>
    have mode := absorbed.position.2
    have padding := (startEntry_started opened start).readingPadding
    rw [if_neg (by simp [mode.1, reading]), if_neg (by simp [mode.2, padding])] at consumed
    exact consumeFile_reads settled folded wrote few opened start reading absorbed split positive
      consumed
  | padding settled folded wrote few opened start reading absorbed whole finished split positive =>
    have mode := (finishContent_position finished).2.1.trans (absorb_position absorbed).2.1
    rw [if_neg (by simpa [reading] using mode)] at consumed
    exact consumePadding_reads settled folded wrote few opened start reading absorbed whole finished
      split positive (Except.ok.inj consumed)
  | done => cases running

/-- A validator that has seen the end of the archive is behind it, not inside an entry. -/
theorem Reads.ended (reads : Reads digest appEntryPath v bytes entries) (ended : v.done = true) :
    ∃ settled front tail, Settled settled ∧ foldEntries digest appEntryPath entries = .ok settled ∧
      Wrote front 2 entries ∧ tail.all (· = 0) ∧ bytes = front ++ tail ∧
      v = { settled with zeroBlocks := 2, done := true } := by
  have running {w : LayoutValidator} (settled : Settled w) (same : v.done = w.done) : False := by
    rw [ended, settled.done] at same
    cases same
  have started {w begun : LayoutValidator} {block : Bytes} {entry : Entry}
      (settled : Settled w) (opened : HeaderBlock block entry)
      (start : startEntry digest appEntryPath w entry = .ok begun)
      (same : v.done = begun.done) : False :=
    running settled (same.trans (congrArg (·.2.2.1) (startEntry_started opened start).position))
  cases reads with
  | header settled => exact (running settled rfl).elim
  | content settled _ _ _ opened start _ absorbed =>
    exact (started settled opened start (congrArg (·.2.2.1) absorbed.position.1)).elim
  | padding settled _ _ _ opened start _ absorbed _ finished =>
    have done := congrArg (·.2.2.1) (absorb_position absorbed).1
    have done' := congrArg (·.2.2.1) (finishContent_position finished).1
    exact (started settled opened start (done'.trans done)).elim
  | done settled folded wrote tail => exact ⟨_, _, _, settled, folded, wrote, tail, rfl, rfl⟩

/-- Behind the end of the archive any number of zeros may follow. -/
theorem Reads.zeros {v : LayoutValidator} {bytes data : Bytes} {entries : List (Entry × Bytes)}
    (reads : Reads digest appEntryPath v bytes entries) (ended : v.done = true)
    (zeros : data.all (· = 0)) : Reads digest appEntryPath v (bytes ++ data) entries := by
  obtain ⟨settled, front, tail, between, folded, wrote, clear, rfl, rfl⟩ := reads.ended ended
  rw [List.append_assoc]
  exact .done between folded wrote (by rw [List.all_append, clear, zeros]; rfl)

theorem Reads.feedLoop {fuel : Nat} {v after : LayoutValidator} {bytes data : Bytes}
    {entries : List (Entry × Bytes)} (reads : Reads digest appEntryPath v bytes entries)
    (fed : feedLoop digest appEntryPath fuel v data = .ok after) :
    ∃ later, Reads digest appEntryPath after (bytes ++ data) (entries ++ later) := by
  induction fuel generalizing v bytes data entries with
  | zero => cases fed
  | succ fuel ih =>
    unfold LayoutValidator.feedLoop at fed
    split_ifs at fed with ended zeros empty
    · cases fed
      exact ⟨[], by simpa using reads.zeros ended zeros⟩
    · cases fed
      exact ⟨[], by simpa [empty] using reads⟩
    · obtain ⟨⟨next, rest⟩, consumed, more⟩ := bind_eq_ok.mp fed
      obtain ⟨piece, first, rfl, -, reads⟩ := reads.consume (by simpa using ended) consumed
      obtain ⟨second, reads⟩ := ih reads more
      exact ⟨first ++ second, by simpa using reads⟩

section

variable (reads : Reads digest appEntryPath v bytes entries)

include reads

theorem Reads.pieces {pieces : List Bytes}
    (fed : pieces.foldlM (feed digest appEntryPath) v = .ok after) :
    ∃ later, Reads digest appEntryPath after (bytes ++ pieces.flatten) (entries ++ later) := by
  induction pieces generalizing v bytes entries with
  | nil =>
    cases fed
    exact ⟨[], by simpa using reads⟩
  | cons piece pieces ih =>
    obtain ⟨next, one, fed⟩ := bind_eq_ok.mp fed
    obtain ⟨first, reads⟩ := reads.feedLoop one
    obtain ⟨second, reads⟩ := ih reads fed
    exact ⟨first ++ second, by simpa using reads⟩

theorem Reads.consume_shorter (running : v.done = false) (more : data ≠ [])
    (consumed : LayoutValidator.consume digest appEntryPath v data = .ok (after, rest)) :
    rest.length < data.length := by
  obtain ⟨piece, later, rfl, some, -⟩ := reads.consume running consumed
  have taken := List.length_pos_iff.mpr (some more)
  rw [List.length_append]
  omega

theorem Reads.feedLoop_fuel {fuel : Nat} (enough : data.length < fuel) :
    LayoutValidator.feedLoop digest appEntryPath (fuel + 1) v data =
      LayoutValidator.feedLoop digest appEntryPath fuel v data := by
  induction fuel generalizing v bytes data entries with
  | zero => omega
  | succ fuel ih =>
    rw [LayoutValidator.feedLoop, LayoutValidator.feedLoop]
    split_ifs with ended zeros empty
    · rfl
    · rfl
    · rfl
    · cases consumed : LayoutValidator.consume digest appEntryPath v data with
      | error code => rfl
      | ok result =>
        have running : v.done = false := by simpa using ended
        have shorter := reads.consume_shorter running empty consumed
        obtain ⟨piece, later, -, -, next⟩ := reads.consume running consumed
        exact ih next (by omega)

end

theorem reads_start : Reads digest appEntryPath start [] [] := by
  have settled : Settled start := ⟨rfl, rfl, rfl, rfl, rfl, rfl, rfl⟩
  have first : Reads digest appEntryPath { start with header := [], zeroBlocks := 0 } ([] ++ [])
      [] := .header settled rfl .start (by decide) (by simp)
  exact first

/-- The pieces the validator has taken, when it accepts, are a whole stream. -/
theorem accepted_contents {pieces : List Bytes}
    (fed : pieces.foldlM (feed digest appEntryPath) start = .ok v) (accepted : finish v = .ok ()) :
    ∃ entries settled, Contents pieces.flatten entries ∧
      foldEntries digest appEntryPath entries = .ok settled ∧
      v = { settled with zeroBlocks := 2, done := true } := by
  obtain ⟨entries, reads⟩ := reads_start.pieces fed
  have ended : v.done = true := by
    unfold finish at accepted
    split at accepted
    · cases accepted
    · rename_i complete
      by_contra running
      exact complete (.inl running)
  obtain ⟨settled, front, tail, -, folded, wrote, -, bytes, state⟩ := reads.ended ended
  rw [List.nil_append] at bytes folded wrote
  refine ⟨entries, settled, ?_, folded, state⟩
  rw [bytes]
  exact wrote.contents tail

end Gizos.Loader.LayoutValidator
