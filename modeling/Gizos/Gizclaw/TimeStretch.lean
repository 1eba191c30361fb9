import Mathlib.Data.List.TakeDrop
import Mathlib.Tactic.Ring

/-! # Time stretching

`h2_gizclaw_time_stretch.c` plays speech faster or slower without changing its pitch: each step
crossfades a piece of the buffered source with the end of the piece before, at the offset where the
two are most alike. Whatever the rates, every source sample is accounted for once; at the rate of
1000 the pieces meet exactly and the output is the source.
-/
namespace Gizos.Gizclaw.TimeStretch

/-- A PCM sample. -/
abbrev Sample := BitVec 16

/-- `H2_GIZCLAW_STRETCH_SEQUENCE`. -/
def sequence : Nat := 640

/-- `H2_GIZCLAW_STRETCH_OVERLAP`. -/
def overlapSize : Nat := 128

/-- `H2_GIZCLAW_STRETCH_SEEK`. -/
def seek : Nat := 240

/-- `H2_GIZCLAW_STRETCH_STEP`. -/
def stepSize : Nat := sequence - overlapSize

/-- `H2_GIZCLAW_STRETCH_INPUT`. -/
def inputSize : Nat := 2048

/-- `H2_GIZCLAW_STRETCH_RATE_MIN`. -/
def rateMin : Nat := 500

/-- `H2_GIZCLAW_STRETCH_RATE_MAX`. -/
def rateMax : Nat := 2000

/-- `h2_gizclaw_stretch_t`. The part of the buffer that is in use, `count` samples of it, is
`input`. -/
structure Stretch where
  input : List Sample
  overlap : List Sample
  resume : Int
  carry : Nat
  primed : Bool
  pushed : BitVec 64
  reported : BitVec 64
deriving DecidableEq, Repr

namespace Stretch

/-- `h2_gizclaw_stretch_reset`. -/
def reset (s : Stretch) : Stretch :=
  { s with input := [], resume := 0, carry := 0, primed := false, pushed := 0, reported := 0 }

/-- The samples that are taken, and the state after them. -/
def push (s : Stretch) (samples : List Sample) : List Sample × Stretch :=
  let taken := samples.take (inputSize - s.input.length)
  (taken, { s with input := s.input ++ taken, pushed := s.pushed + BitVec.ofNat 64 taken.length })

end Stretch

/-- How far two samples are apart. -/
def difference (left right : Sample) : Nat := (left.toInt - right.toInt).natAbs

/-- The sum of absolute differences, 16 samples at a time, until it cannot win. No sum of 128
differences of 16-bit samples leaves 32 bits. -/
def sumOfDifferences (best : Nat) : (blocks sad : Nat) → (candidate overlap : List Sample) → Nat
  | 0, sad, _, _ => sad
  | blocks + 1, sad, candidate, overlap =>
    if sad < best then
      sumOfDifferences best blocks
        (sad + (List.zipWith difference (candidate.take 16) (overlap.take 16)).sum)
        (candidate.drop 16) (overlap.drop 16)
    else sad

/-- One turn of the loop of `best_offset`: the offset that is best so far and its sum. -/
def betterOffset (candidates overlap : List Sample) (best : Nat × Nat) (offset : Nat) : Nat × Nat :=
  let sad := sumOfDifferences best.2 (overlapSize / 16) 0 (candidates.drop offset) overlap
  if sad < best.2 then (offset, sad) else best

/-- `best_offset`. -/
def bestOffset (candidates overlap : List Sample) : Nat :=
  ((List.range seek).foldl (betterOffset candidates overlap) (0, 2 ^ 32 - 1)).1

/-- Fades from the overlap over to the segment. -/
def crossfade (overlap segment : List Sample) : List Sample :=
  (List.range overlapSize).map fun i =>
    BitVec.ofInt 16 (((overlap.getD i 0).toInt * (overlapSize - i : Int) +
      (segment.getD i 0).toInt * i).tdiv overlapSize)

/-- What a step or a flush emits, and how many source samples it stands for. -/
structure Emission where
  samples : List Sample
  source : Nat
deriving DecidableEq, Repr

namespace Stretch

/-- The rate as a step uses it, times its size, and what the last step left over. -/
def total (s : Stretch) (ratePermille : Nat) : Nat :=
  stepSize * min (max ratePermille rateMin) rateMax + s.carry

/-- The first overlap is the next source itself. -/
def carried (s : Stretch) : List Sample :=
  if s.primed then s.overlap else s.input.take overlapSize

/-- The source samples that a step stands for. -/
def advance (s : Stretch) (ratePermille : Nat) : Nat := s.total ratePermille / 1000

/-- What a step does with enough input. -/
def emit (s : Stretch) (ratePermille : Nat) : Emission × Stretch :=
  let advance := s.advance ratePermille
  let offset := bestOffset s.input s.carried
  let segment := s.input.drop offset
  (⟨crossfade s.carried segment ++
      (segment.drop overlapSize).take (sequence - 2 * overlapSize), advance⟩,
    { s with
      input := s.input.drop advance
      overlap := (segment.drop (sequence - overlapSize)).take overlapSize
      resume := ((offset + sequence : Nat) : Int) - advance
      carry := s.total ratePermille % 1000
      primed := true
      reported := s.reported + BitVec.ofNat 64 advance })

/-- `h2_gizclaw_stretch_step`. -/
def step (s : Stretch) (ratePermille : Nat) : Option (Emission × Stretch) :=
  if s.input.length < max (seek + sequence) (s.advance ratePermille) then none
  else some (s.emit ratePermille)

/-- `h2_gizclaw_stretch_flush`. -/
def flush (s : Stretch) : Emission × Stretch :=
  let samples :=
    if s.primed then s.overlap ++ s.input.drop (min s.resume.toNat s.input.length) else s.input
  (⟨samples, (s.pushed - s.reported).toNat⟩, s.reset)

end Stretch

/-- A call before the flush. -/
inductive Call where
  | push (samples : List Sample)
  | step (ratePermille : Nat)

/-- A run: the state, the samples that were taken, what was emitted, and the source samples that
this was reported to stand for. -/
structure Playback where
  state : Stretch
  taken : List Sample
  output : List Sample
  source : Nat

namespace Playback

/-- What a call emits is played. -/
def emitted (p : Playback) (emission : Emission × Stretch) : Playback :=
  { p with
    state := emission.2
    output := p.output ++ emission.1.samples
    source := p.source + emission.1.source }

/-- What a call does to a run. -/
def call (p : Playback) : Call → Playback
  | .push samples =>
    let (taken, state) := p.state.push samples
    { p with state, taken := p.taken ++ taken }
  | .step ratePermille => ((p.state.step ratePermille).map p.emitted).getD p

/-- Calls from reset on, then a flush. -/
def play (s : Stretch) (calls : List Call) : Playback :=
  let p := calls.foldl call ⟨s.reset, [], [], 0⟩
  p.emitted p.state.flush

/-- A step leaves everything as it was or has enough input. -/
theorem call_step (p : Playback) (ratePermille : Nat) :
    p.call (.step ratePermille) = p ∨
      max (seek + sequence) (p.state.advance ratePermille) ≤ p.state.input.length ∧
        p.call (.step ratePermille) = p.emitted (p.state.emit ratePermille) := by
  by_cases short : p.state.input.length < max (seek + sequence) (p.state.advance ratePermille)
  · exact .inl (by rw [call, Stretch.step, if_pos short]; rfl)
  · exact .inr ⟨Nat.le_of_not_lt short, by rw [call, Stretch.step, if_neg short]; rfl⟩

/-- The counters agree with the buffer, also when they have wrapped around. -/
structure Accounted (p : Playback) : Prop where
  source : p.source + p.state.input.length = p.taken.length
  counters : p.state.pushed = p.state.reported + BitVec.ofNat 64 p.state.input.length
  room : p.state.input.length ≤ inputSize

/-- A push counts what it takes. -/
theorem Accounted.push {p : Playback} (accounted : p.Accounted) (samples : List Sample) :
    (p.call (.push samples)).Accounted where
  source := by
    have source := accounted.source
    simp only [call, Stretch.push, List.length_append]
    omega
  counters := by
    simp only [call, Stretch.push, List.length_append, BitVec.ofNat_add, accounted.counters,
      BitVec.add_assoc]
  room := by
    have room := accounted.room
    simp only [call, Stretch.push, List.length_append, List.length_take]
    omega

/-- A step reports what it advances by. -/
theorem Accounted.step {p : Playback} (accounted : p.Accounted) (ratePermille : Nat) :
    (p.call (.step ratePermille)).Accounted := by
  rcases p.call_step ratePermille with same | ⟨enough, moved⟩
  · rwa [same]
  · have source := accounted.source
    have room := accounted.room
    have parts : p.state.input.length = p.state.advance ratePermille +
        (p.state.input.length - p.state.advance ratePermille) := by omega
    rw [moved]
    constructor
    · simp only [emitted, Stretch.emit, List.length_drop]
      omega
    · simp only [emitted, Stretch.emit, List.length_drop, BitVec.add_assoc, ← BitVec.ofNat_add,
        ← parts]
      exact accounted.counters
    · simp only [emitted, Stretch.emit, List.length_drop]
      omega

/-- The flush reports what is buffered. -/
theorem Accounted.settled {p : Playback} (accounted : p.Accounted) :
    (p.state.pushed - p.state.reported).toNat = p.state.input.length := by
  have small : p.state.input.length < 2 ^ 64 := accounted.room.trans_lt (by decide)
  rw [accounted.counters, BitVec.add_comm, BitVec.add_sub_cancel, BitVec.toNat_ofNat,
    Nat.mod_eq_of_lt small]

/-- At the rate of 1000: what is buffered is what was not emitted yet, and the carried overlap is
its beginning. -/
structure Seamless (p : Playback) : Prop where
  output : p.output ++ p.state.input = p.taken
  carry : p.state.carry = 0
  overlap : p.state.primed = true → p.state.overlap = p.state.input.take overlapSize
  resume : p.state.primed = true → p.state.resume = overlapSize
  buffered : p.state.primed = true → overlapSize ≤ p.state.input.length

end Playback

/-- Samples do not differ from themselves. -/
theorem sum_difference_self (samples : List Sample) :
    (List.zipWith difference samples samples).sum = 0 := by
  induction samples with
  | nil => rfl
  | cons sample rest ih =>
    rw [List.zipWith_cons_cons, List.sum_cons, ih, difference, sub_self, Int.natAbs_zero]

/-- A candidate that begins with the overlap does not differ from it. -/
theorem sumOfDifferences_take (best blocks : Nat) (candidate : List Sample) :
    sumOfDifferences best blocks 0 candidate (candidate.take (16 * blocks)) = 0 := by
  induction blocks generalizing candidate with
  | zero => rfl
  | succ blocks ih =>
    have front : (candidate.take (16 * (blocks + 1))).take 16 = candidate.take 16 := by
      rw [List.take_take, min_eq_left (by omega)]
    have back : (candidate.take (16 * (blocks + 1))).drop 16 =
        (candidate.drop 16).take (16 * blocks) := by
      rw [List.drop_take, show 16 * (blocks + 1) - 16 = 16 * blocks by omega]
    rw [sumOfDifferences, front, back, sum_difference_self, ih]
    exact ite_self 0

/-- Where the source goes on as the overlap does, no other offset wins. -/
theorem bestOffset_take (candidates : List Sample) :
    bestOffset candidates (candidates.take overlapSize) = 0 := by
  have kept : ∀ offsets : List Nat,
      offsets.foldl (betterOffset candidates (candidates.take overlapSize)) (0, 0) = (0, 0) := by
    intro offsets
    induction offsets with
    | nil => rfl
    | cons offset rest ih =>
      rw [List.foldl_cons, betterOffset, if_neg (Nat.not_lt_zero _), ih]
  have first : betterOffset candidates (candidates.take overlapSize) (0, 2 ^ 32 - 1) 0 =
      (0, 0) := by
    have same := sumOfDifferences_take (2 ^ 32 - 1) (overlapSize / 16) candidates
    rw [show 16 * (overlapSize / 16) = overlapSize from rfl] at same
    rw [betterOffset, List.drop_zero, same, if_pos (by decide)]
  rw [bestOffset, seek, List.range_succ_eq_map, List.foldl_cons, first, kept]

/-- A crossfade between equal samples changes nothing. -/
theorem crossfade_take {segment : List Sample} (long : overlapSize ≤ segment.length) :
    crossfade (segment.take overlapSize) segment = segment.take overlapSize := by
  apply List.ext_getElem
  · simp [crossfade, long]
  · intro i inside _
    have small : i < overlapSize := by simpa [crossfade] using inside
    have weighted : ∀ x : Int, (x * (overlapSize - i : Int) + x * i).tdiv overlapSize = x := by
      intro x
      rw [← mul_add, sub_add_cancel]
      exact Int.mul_tdiv_cancel x (by decide)
    have bound : i < segment.length := by omega
    simp [crossfade, small, bound, weighted]

namespace Playback

/-- A push goes on behind what is buffered. -/
theorem Seamless.push {p : Playback} (seamless : p.Seamless) (samples : List Sample) :
    (p.call (.push samples)).Seamless where
  output := by simp only [call, Stretch.push, ← List.append_assoc, seamless.output]
  carry := seamless.carry
  overlap primed :=
    (seamless.overlap primed).trans (List.take_append_of_le_length (seamless.buffered primed)).symm
  resume := seamless.resume
  buffered primed := by
    have buffered := seamless.buffered primed
    simp only [call, Stretch.push, List.length_append]
    omega

/-- A step at the rate of 1000 emits the next samples and keeps the rest. -/
theorem Seamless.step {p : Playback} (seamless : p.Seamless) : (p.call (.step 1000)).Seamless := by
  rcases p.call_step 1000 with same | ⟨enough, moved⟩
  · rwa [same]
  · have total : p.state.total 1000 = stepSize * 1000 := by
      rw [Stretch.total, seamless.carry]
      rfl
    have advance : p.state.advance 1000 = stepSize := by
      rw [Stretch.advance, total]
      rfl
    have carried : p.state.carried = p.state.input.take overlapSize := by
      unfold Stretch.carried
      split
      · exact seamless.overlap ‹_›
      · rfl
    have long : seek + sequence ≤ p.state.input.length := (le_max_left _ _).trans enough
    have emitted : p.state.input.take overlapSize ++
        (p.state.input.drop overlapSize).take (sequence - 2 * overlapSize) =
          p.state.input.take stepSize := List.take_add.symm
    rw [moved, Playback.emitted, Stretch.emit, advance, total, carried, bestOffset_take,
      List.drop_zero, crossfade_take (le_trans (by decide) long), emitted]
    refine ⟨?_, rfl, fun _ => rfl, fun _ => rfl, fun _ => ?_⟩
    · dsimp only
      rw [List.append_assoc, List.take_append_drop, seamless.output]
    · simp only [List.length_drop]
      exact Nat.le_sub_of_add_le (le_trans (by decide) long)

/-- Every step and the flush together report the samples that were pushed. At the rate of 1000 they
emit them. -/
theorem play_conserves (s : Stretch) (calls : List Call) :
    (play s calls).source = (play s calls).taken.length ∧
      ((∀ ratePermille, .step ratePermille ∈ calls → ratePermille = 1000) →
        (play s calls).output = (play s calls).taken) := by
  have accounted : (calls.foldl call ⟨s.reset, [], [], 0⟩).Accounted := by
    refine List.foldlRecOn calls call ⟨rfl, rfl, Nat.zero_le _⟩ fun p accounted next _ => ?_
    cases next with
    | push samples => exact accounted.push samples
    | step ratePermille => exact accounted.step ratePermille
  refine ⟨?_, fun unit => ?_⟩
  · simp only [play, emitted, Stretch.flush, accounted.settled, accounted.source]
  · have seamless : (calls.foldl call ⟨s.reset, [], [], 0⟩).Seamless := by
      refine List.foldlRecOn calls call ⟨rfl, rfl, nofun, nofun, nofun⟩
        fun p seamless next member => ?_
      cases next with
      | push samples => exact seamless.push samples
      | step ratePermille =>
        rw [unit ratePermille member]
        exact seamless.step
    dsimp only [play, emitted, Stretch.flush]
    split
    · rename_i primed
      rw [seamless.overlap primed, seamless.resume primed, Int.toNat_natCast,
        min_eq_left (seamless.buffered primed), List.take_append_drop, seamless.output]
    · exact seamless.output

end Playback

end Gizos.Gizclaw.TimeStretch
