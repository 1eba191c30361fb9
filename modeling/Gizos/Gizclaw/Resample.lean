import Mathlib.Algebra.Order.Floor.Div
import Mathlib.GroupTheory.GroupAction.Ring
import Mathlib.Tactic.Ring

/-! # Resampling

`h2_gizclaw_resample.c` brings mono PCM onto the 16 kHz grid of the player. Output `k` lies
`(phase + k * rate) / 16000` source samples after the first one, stepped in integers; it is a
filter's value on the window of source samples around that place. How the source is cut into pushes
decides when an output is produced, and nothing else.
-/
namespace Gizos.Gizclaw.Resample

/-- `H2_GIZCLAW_RESAMPLE_OUTPUT_RATE`. -/
def outputRate : Nat := 16000

/-- `H2_GIZCLAW_RESAMPLE_RATE_MIN`. -/
def rateMin : Nat := 8000

/-- `H2_GIZCLAW_RESAMPLE_RATE_MAX`. -/
def rateMax : Nat := 48000

/-- `H2_GIZCLAW_RESAMPLE_INPUT_MAX`. -/
def inputMax : Nat := 1152

/-- `H2_GIZCLAW_RESAMPLE_HALF_MAX`. -/
def halfMax : Nat := 48

/-- `KERNEL_ZEROS`. -/
def kernelZeros : Nat := 16

/-- The size of the array `buf`. -/
def bufSize : Nat := inputMax + 2 * halfMax + 8

/-- `output_at`, as a function of the rate, of the place between two samples and of the window. -/
abbrev Filter := (rate num : Nat) → (window : List Int) → Int

/-- `h2_gizclaw_resample_t`; `buf` is the part of the array that is in use. -/
structure Resampler where
  rate : Nat
  half : Nat
  whole : Nat
  num : Nat
  buf : List Int
  positive : 0 < rate
  fraction : num < outputRate

/-- Half the window, which is wider when the rate goes down. -/
def halfOf (rate : Nat) : Nat :=
  if outputRate < rate then (kernelZeros * rate + outputRate - 1) / outputRate else kernelZeros

/-- `h2_gizclaw_resample_reset`. -/
def reset (rate phase : Nat) : Option Resampler :=
  if accepted : rateMin ≤ rate ∧ rate ≤ rateMax ∧ phase < rate then
    if rate = outputRate then
      if phase = 0 then some ⟨rate, 0, 0, 0, [], by omega, by decide⟩ else none
    else
      some ⟨rate, halfOf rate, halfOf rate + phase / outputRate, phase % outputRate,
        List.replicate (halfOf rate) 0, by omega, Nat.mod_lt _ (by decide)⟩
  else none

/-- The samples from `whole + 1 - half` to `whole + half`. -/
def window (samples : List Int) (half whole : Nat) : List Int :=
  (samples.drop (whole + 1 - half)).take (2 * half)

namespace Resampler

/-- `h2_gizclaw_resample_capacity`. -/
def capacity (r : Resampler) (count : Nat) : Nat :=
  if r.rate = outputRate then count else (count + r.half) * outputRate / r.rate + 2

/-- The next output. -/
def outputAt (r : Resampler) (filter : Filter) : Int :=
  filter r.rate r.num (window r.buf r.half r.whole)

/-- The place of the output after it. -/
def advance (r : Resampler) : Resampler :=
  { r with
    whole := r.whole + (r.num + r.rate) / outputRate
    num := (r.num + r.rate) % outputRate
    fraction := Nat.mod_lt _ (by decide) }

/-- The loop of a push and of a flush: outputs as long as they lie before a sample. -/
def produce (r : Resampler) (filter : Filter) (limit : Nat) : List Int × Resampler :=
  if r.whole < limit then
    let (outputs, r') := r.advance.produce filter limit
    (r.outputAt filter :: outputs, r')
  else ([], r)
termination_by limit * outputRate - (r.whole * outputRate + r.num)
decreasing_by
  have positive := r.positive
  have fraction := r.fraction
  simp only [advance, outputRate] at *
  omega

/-- Keeps only what the next window reaches back to. -/
def trim (r : Resampler) : Resampler :=
  let drop := min (r.whole + 1 - r.half) r.buf.length
  { r with buf := r.buf.drop drop, whole := r.whole - drop }

/-- `h2_gizclaw_resample_push`. -/
def push (filter : Filter) (r : Resampler) (samples : List Int) : List Int × Resampler :=
  if r.rate = outputRate then (samples, r)
  else
    let (outputs, r') := { r with buf := r.buf ++ samples }.produce filter
      ((r.buf ++ samples).length - r.half)
    (outputs, r'.trim)

/-- `h2_gizclaw_resample_flush`. -/
def flush (filter : Filter) (r : Resampler) : List Int × Resampler :=
  if r.rate = outputRate then ([], r)
  else
    let (outputs, r') :=
      { r with buf := r.buf ++ List.replicate r.half 0 }.produce filter r.buf.length
    (outputs, { r' with buf := r.buf })

/-- Pushes one after the other. -/
def pushAll (filter : Filter) (r : Resampler) : List (List Int) → List Int × Resampler
  | [] => ([], r)
  | samples :: rest =>
    let (outputs, r') := r.push filter samples
    let (later, r'') := r'.pushAll filter rest
    (outputs ++ later, r'')

/-- The outputs of some pushes and a flush. -/
def play (filter : Filter) (r : Resampler) (pushes : List (List Int)) : List Int :=
  let (outputs, r') := r.pushAll filter pushes
  outputs ++ (r'.flush filter).1

end Resampler

/-! What the outputs are, whatever the pushes. -/

section Outputs

variable (filter : Filter) (rate phase : Nat)

/-- Where output `k` lies among the samples with `half` zeros in front, times 16000. -/
def place (half k : Nat) : Nat := half * outputRate + phase + k * rate

/-- Output `k`, from the samples with the zeros. -/
def output (half : Nat) (samples : List Int) (k : Nat) : Int :=
  filter rate (place rate phase half k % outputRate)
    (window samples half (place rate phase half k / outputRate))

/-- How many outputs lie before sample `m`. -/
def total (m : Nat) : Nat := (outputRate * m - phase) ⌈/⌉ rate

end Outputs

variable {filter : Filter} {rate phase half k m n : Nat} {all input samples : List Int}
  {r : Resampler}

/-- The outputs before a sample are counted exactly. -/
theorem total_le_iff (positive : 0 < rate) :
    total rate phase m ≤ k ↔ outputRate * m ≤ phase + k * rate := by
  rw [total, ceilDiv_le_iff_le_mul positive, mul_comm rate]
  omega

/-- More samples, more outputs. -/
theorem total_mono (positive : 0 < rate) (more : m ≤ n) :
    total rate phase m ≤ total rate phase n := by
  have reached := (total_le_iff positive).1 (le_refl (total rate phase n))
  exact (total_le_iff positive).2 ((Nat.mul_le_mul_left _ more).trans reached)

/-- A complete window is the same in all samples. -/
theorem window_of_isPrefix {dropped whole : Nat} (near : half ≤ whole + 1)
    (complete : whole + half < samples.length) (piece : samples <+: all.drop dropped) :
    window samples half whole = window all half (whole + dropped) := by
  obtain ⟨more, split⟩ := piece
  rw [window, window, show whole + dropped + 1 - half = dropped + (whole + 1 - half) by omega,
    ← List.drop_drop, ← split, List.drop_append_of_le_length (by omega),
    List.take_append_of_le_length (by rw [List.length_drop]; omega)]

namespace Resampler

/-- Output `k` is the next one, and the buffer is a piece of all samples. -/
structure Stands (rate phase half : Nat) (all : List Int) (k dropped : Nat) (r : Resampler) :
    Prop where
  sameRate : r.rate = rate
  sameHalf : r.half = half
  piece : r.buf <+: all.drop dropped
  here : (r.whole + dropped) * outputRate + r.num = place rate phase half k
  near : half ≤ r.whole + 1

namespace Stands

variable {dropped limit : Nat} (stands : Stands rate phase half all k dropped r)

include stands

/-- The rate is not zero. -/
theorem positive : 0 < rate := stands.sameRate ▸ r.positive

/-- The next output is one further. -/
theorem advance : Stands rate phase half all (k + 1) dropped r.advance := by
  obtain ⟨rfl, rfl, piece, here, near⟩ := stands
  refine ⟨rfl, rfl, piece, ?_, ?_⟩
  · have whole := Nat.div_add_mod' (r.num + r.rate) outputRate
    simp only [Resampler.advance, place, Nat.add_mul] at here ⊢
    omega
  · exact near.trans (Nat.succ_le_succ (Nat.le_add_right _ _))

/-- The output is the one of all samples. -/
theorem outputAt (complete : r.whole + half < r.buf.length) :
    r.outputAt filter = output filter rate phase half all k := by
  obtain ⟨rfl, rfl, piece, here, near⟩ := stands
  have fraction := r.fraction
  have whole : place r.rate phase r.half k / outputRate = r.whole + dropped := by
    simp only [outputRate] at *
    omega
  have num : place r.rate phase r.half k % outputRate = r.num := by
    simp only [outputRate] at *
    omega
  rw [Resampler.outputAt, output, whole, num, window_of_isPrefix near complete piece]

/-- The loop goes on as long as outputs lie before the limit. -/
theorem whole_lt_iff : r.whole < limit ↔ k < total rate phase (limit + dropped - half) := by
  have fraction := r.fraction
  have here := stands.here
  rw [← not_le, ← not_le, total_le_iff stands.positive]
  simp only [place, outputRate] at *
  omega

/-- The loop produces the outputs that lie before the limit. -/
theorem produce (inside : limit ≤ r.buf.length - half)
    (fewer : k ≤ total rate phase (limit + dropped - half)) :
    (List.range k).map (output filter rate phase half all) ++ (r.produce filter limit).1 =
        (List.range (total rate phase (limit + dropped - half))).map
          (output filter rate phase half all) ∧
      (r.produce filter limit).2.buf = r.buf ∧
      Stands rate phase half all (total rate phase (limit + dropped - half)) dropped
        (r.produce filter limit).2 := by
  obtain ⟨count, same⟩ := Nat.exists_eq_add_of_le fewer
  rw [same]
  induction count generalizing k r with
  | zero =>
    have done : ¬r.whole < limit := by
      rw [stands.whole_lt_iff]
      omega
    rw [Resampler.produce, if_neg done]
    exact ⟨List.append_nil _, rfl, stands⟩
  | succ count ih =>
    have undone : r.whole < limit := by
      rw [stands.whole_lt_iff]
      omega
    obtain ⟨outputs, buf, last⟩ := ih stands.advance inside (by omega) (by omega)
    rw [Resampler.produce, if_pos undone]
    rw [stands.outputAt (by omega)]
    rw [List.range_succ, List.map_append, List.append_assoc] at outputs
    rw [show k + (count + 1) = k + 1 + count by omega]
    exact ⟨outputs, buf, last⟩

/-- What the next window does not reach back to may go. -/
theorem trim (taps : 0 < half) :
    Stands rate phase half all k (dropped + min (r.whole + 1 - half) r.buf.length) r.trim := by
  obtain ⟨rfl, rfl, piece, here, near⟩ := stands
  refine ⟨rfl, rfl, ?_, ?_, ?_⟩ <;> simp only [Resampler.trim]
  · rw [← List.drop_drop]
    exact piece.drop _
  · rw [← here]
    congr 2
    omega
  · omega

end Stands

/-- The state after some input. -/
structure Tracks (rate phase half : Nat) (all input : List Int) (dropped : Nat) (r : Resampler) :
    Prop
    extends Stands rate phase half all (total rate phase (input.length - half)) dropped r where
  buf : r.buf = (List.replicate half 0 ++ input).drop dropped
  inside : dropped ≤ half + input.length
  taps : 0 < half
  room : r.buf.length ≤ 2 * half

variable {dropped : Nat}

/-- A push produces the outputs whose windows it completes. -/
theorem Tracks.push (tracks : Tracks rate phase half all input dropped r)
    (other : rate ≠ outputRate)
    (filter : Filter) (further : List.replicate half 0 ++ (input ++ samples) <+: all) :
    (List.range (total rate phase (input.length - half))).map (output filter rate phase half all) ++
        (r.push filter samples).1 =
      (List.range (total rate phase ((input ++ samples).length - half))).map
        (output filter rate phase half all) ∧
    ∃ dropped', Tracks rate phase half all (input ++ samples) dropped'
      (r.push filter samples).2 := by
  obtain ⟨⟨rfl, rfl, piece, here, near⟩, buf, inside, taps, room⟩ := tracks
  have buffered : r.buf ++ samples =
      (List.replicate r.half 0 ++ (input ++ samples)).drop dropped := by
    rw [buf, ← List.append_assoc]
    exact (List.drop_append_of_le_length (by simpa using inside)).symm
  have length : (r.buf ++ samples).length = r.half + (input ++ samples).length - dropped := by
    rw [buffered, List.length_drop, List.length_append, List.length_replicate]
  have grows : input.length ≤ (input ++ samples).length := by simp
  have stands : Stands r.rate phase r.half all _ dropped { r with buf := r.buf ++ samples } :=
    ⟨rfl, rfl, buffered ▸ further.drop dropped, here, near⟩
  have fewer := @total_mono r.rate phase _ _ r.positive (Nat.sub_le_sub_right grows r.half)
  have limit : total r.rate phase ((r.buf ++ samples).length - r.half + dropped - r.half) =
      total r.rate phase ((input ++ samples).length - r.half) := by
    rcases le_total dropped (input ++ samples).length with before | beyond
    · rw [length]
      congr 1
      omega
    · have none := not_lt.1 (mt stands.whole_lt_iff.2 (Nat.not_lt_zero _))
      rw [length, show r.half + (input ++ samples).length - dropped - r.half = 0 by omega]
      exact le_antisymm (none.trans fewer) (total_mono r.positive (by omega))
  have produced := @Stands.produce filter _ _ _ _ _ _ _ _ stands (le_refl _) (limit ▸ fewer)
  rw [limit] at produced
  rw [Resampler.push, if_neg other]
  generalize Resampler.produce _ filter _ = produced at *
  obtain ⟨outputs, kept, last⟩ := produced
  refine ⟨outputs, _, last.trim taps, ?_, ?_, taps, ?_⟩
  all_goals simp only [Resampler.trim, kept, last.sameHalf, List.length_drop]
  · rw [buffered, List.drop_drop]
  · omega
  · have reached := (total_le_iff r.positive).1 (le_refl
      (total r.rate phase ((input ++ samples).length - r.half)))
    have ahead := last.here
    have fraction := produced.2.fraction
    simp only [place, Nat.add_mul, outputRate, length] at ahead reached fraction ⊢
    omega

/-- Some pushes produce outputs of what they bring together. -/
theorem Tracks.pushAll (other : rate ≠ outputRate) (filter : Filter) : ∀ (pushes : List (List Int))
    {input : List Int} {dropped : Nat} {r : Resampler}, Tracks rate phase half all input dropped r →
    List.replicate half 0 ++ (input ++ pushes.flatten) <+: all →
    (List.range (total rate phase (input.length - half))).map (output filter rate phase half all) ++
        (r.pushAll filter pushes).1 =
      (List.range (total rate phase ((input ++ pushes.flatten).length - half))).map
        (output filter rate phase half all) ∧
    ∃ dropped', Tracks rate phase half all (input ++ pushes.flatten) dropped'
      (r.pushAll filter pushes).2
  | [], input, dropped, r, tracks, _ => by
    rw [List.flatten_nil, List.append_nil]
    exact ⟨List.append_nil _, dropped, tracks⟩
  | samples :: rest, input, dropped, r, tracks, further => by
    rw [List.flatten_cons, ← List.append_assoc input] at further ⊢
    obtain ⟨outputs, _, tracks⟩ := tracks.push other filter
      (.trans ⟨rest.flatten, by simp⟩ further : _ ++ (input ++ samples) <+: all)
    obtain ⟨outputs', tracks⟩ := Tracks.pushAll other filter rest tracks further
    rw [Resampler.pushAll]
    rw [← List.append_assoc, outputs]
    exact ⟨outputs', tracks⟩

/-- The totals of two moments bound what is produced between them. -/
theorem Tracks.capacity (tracks : Tracks rate phase half all input dropped r)
    (other : rate ≠ outputRate)
    (filter : Filter) (further : List.replicate half 0 ++ (input ++ samples) <+: all) :
    (r.push filter samples).1.length ≤ r.capacity samples.length := by
  have lengths := congrArg List.length (tracks.push other filter further).1
  obtain ⟨⟨rfl, rfl, -, -, -⟩, -, -, -, -⟩ := tracks
  rw [Resampler.capacity, if_neg other]
  have reached := (total_le_iff r.positive).1 (le_refl (total r.rate phase (input.length - r.half)))
  have bound := (@total_le_iff r.rate phase (total r.rate phase (input.length - r.half) +
    ((samples.length + r.half) * outputRate / r.rate + 1)) ((input ++ samples).length - r.half)
      r.positive).2 (by
      have room := Nat.lt_div_mul_add r.positive (a := (samples.length + r.half) * outputRate)
      simp only [List.length_append, Nat.add_mul, outputRate] at *
      omega)
  simp only [List.length_append, List.length_map, List.length_range] at lengths bound
  omega

/-- The window fits the array. -/
theorem halfOf_bounds (small : rate ≤ rateMax) : 0 < halfOf rate ∧ halfOf rate ≤ halfMax := by
  simp only [rateMax] at small
  unfold halfOf
  split <;> simp only [outputRate, kernelZeros, halfMax] at * <;> omega

/-- A reset stands before the first output. -/
theorem tracks_reset (other : rate ≠ outputRate) (started : reset rate phase = some r)
    (begins : List.replicate (halfOf rate) 0 <+: all) :
    rate ≤ rateMax ∧ Tracks rate phase (halfOf rate) all [] 0 r := by
  unfold reset at started
  split at started
  · rename_i accepted
    cases started
    have none : total rate phase 0 = 0 := by simp [total]
    refine ⟨accepted.2.1, ⟨rfl, rfl, begins, ?_, ?_⟩, by simp, Nat.zero_le _,
      (halfOf_bounds accepted.2.1).1, ?_⟩
    · simp only [List.length_nil, Nat.zero_sub, none, place, outputRate]
      omega
    · exact (Nat.le_add_right _ _).trans (Nat.le_succ _)
    · simp only [List.length_replicate]
      omega
  · exact nomatch started

/-- At the rate of the player the samples pass through. -/
theorem pushAll_of_outputRate (same : r.rate = outputRate) :
    ∀ pushes, r.pushAll filter pushes = (pushes.flatten, r)
  | [] => rfl
  | samples :: rest => by
    rw [pushAll, push, if_pos same]
    dsimp only
    rw [pushAll_of_outputRate same rest, List.flatten_cons]

/-- A flush produces what a push of half a window of zeros would. -/
theorem flush_eq_push (other : r.rate ≠ outputRate) :
    (r.flush filter).1 = (r.push filter (List.replicate r.half 0)).1 := by
  rw [flush, push, if_neg other, if_neg other, List.length_append, List.length_replicate,
    Nat.add_sub_cancel]

/-- Pushes and a flush give the outputs that lie before the end of the source. -/
theorem play_eq (other : rate ≠ outputRate) (started : reset rate phase = some r)
    (pushes : List (List Int)) :
    r.play filter pushes =
      (List.range (total rate phase pushes.flatten.length)).map
        (output filter rate phase (halfOf rate) (List.replicate (halfOf rate) 0 ++
          (pushes.flatten ++ List.replicate (halfOf rate) 0))) := by
  obtain ⟨-, tracks⟩ := tracks_reset other started (List.prefix_append _
    (pushes.flatten ++ List.replicate (halfOf rate) 0))
  obtain ⟨outputs, _, tracks⟩ := Tracks.pushAll other filter pushes tracks
    ⟨_, List.append_assoc _ _ _⟩
  obtain ⟨flushed, -⟩ := tracks.push other filter List.prefix_rfl
  simp only [List.nil_append, List.length_append, List.length_replicate, Nat.add_sub_cancel]
    at outputs flushed
  rw [play]
  dsimp only
  rw [flush_eq_push (tracks.sameRate ▸ other), tracks.sameHalf, ← flushed, ← outputs]
  simp [total]

/-- For every rate that is accepted, the outputs depend on the samples and not on how they are cut
into pushes; there are as many as lie before the end of the source; and a push of an allowed size
produces no more than its capacity and stays inside the array. -/
theorem play_of_flatten (filter : Filter) (started : reset rate phase = some r) :
    (∀ pushes pushes' : List (List Int), pushes.flatten = pushes'.flatten →
      r.play filter pushes = r.play filter pushes') ∧
    (rate ≠ outputRate → ∀ pushes, (r.play filter pushes).length =
      (outputRate * pushes.flatten.length - phase) ⌈/⌉ rate) ∧
    ∀ pushes samples, samples.length ≤ inputMax →
      let r' := (r.pushAll filter pushes).2
      (r'.push filter samples).1.length ≤ r'.capacity samples.length ∧
        r'.buf.length + samples.length ≤ bufSize := by
  by_cases other : rate = outputRate
  · have same : r.rate = outputRate ∧ r.buf = [] := by
      unfold reset at started
      split at started
      · split at started
        · cases started
          exact ⟨other, rfl⟩
        · exact nomatch started
      · exact nomatch started
    have through : ∀ pushes, r.play filter pushes = pushes.flatten := fun pushes => by
      rw [play, pushAll_of_outputRate same.1]
      dsimp only
      rw [flush, if_pos same.1, List.append_nil]
    refine ⟨fun pushes pushes' equal => ?_, fun no => absurd other no, fun pushes samples allowed =>
      ?_⟩
    · rw [through, through, equal]
    · rw [pushAll_of_outputRate same.1]
      dsimp only
      rw [push, capacity, if_pos same.1, if_pos same.1, same.2]
      exact ⟨le_rfl, by simpa using allowed.trans (by decide)⟩
  · refine ⟨fun pushes pushes' same => ?_, fun _ pushes => ?_, fun pushes samples allowed => ?_⟩
    · rw [play_eq other started, play_eq other started, same]
    · rw [play_eq other started, List.length_map, List.length_range]
      rfl
    · obtain ⟨small, tracks⟩ := tracks_reset other started (List.prefix_append _
        (pushes.flatten ++ samples))
      obtain ⟨-, _, tracks⟩ := Tracks.pushAll other filter pushes tracks
        ⟨samples, List.append_assoc _ _ _⟩
      refine ⟨tracks.capacity other filter List.prefix_rfl, ?_⟩
      have room := tracks.room
      have half := (halfOf_bounds small).2
      simp only [bufSize, inputMax, halfMax] at *
      omega

/-- The count at 48 kHz with a phase. -/
theorem play_of_flatten_48000 : ∃ r, reset 48000 7 = some r ∧ ∀ filter pushes,
    (r.play filter pushes).length = (16000 * pushes.flatten.length - 7) ⌈/⌉ 48000 :=
  ⟨_, rfl, fun filter => (play_of_flatten filter rfl).2.1 (by decide)⟩

end Resampler

end Gizos.Gizclaw.Resample
