import Mathlib.Algebra.Order.Group.Nat

/-! # Draining a track of the audio mixer

A drain sends a marker through the queue of its track, behind the frames, and waits until the mixer
acknowledges it. The queue of the acknowledgements holds one, the latest. A drain that times out may
leave its marker or its acknowledgement behind for a later drain to meet.
-/
namespace Gizos.AudioMixer

/-- `mixer_queue_result_to_audio`, over the codes of the platform layer. -/
def queueResultToAudio : Int → Int
  | 0 => 0
  | -1 => -1
  | -5 => -5
  -- A timeout would block, and a closed queue is an invalid state.
  | -6 => -9
  | -10 => -7
  | _ => -4

/-- A drain, by its number, with the number of frames that were enqueued before it. -/
structure Marker where
  /-- The number of the drain. -/
  owner : Nat
  /-- The number of frames. -/
  mark : Nat
deriving DecidableEq, Repr

/-- What the code sends of it, from a counter of 64 bits. -/
def Marker.sequence (marker : Marker) : BitVec 64 := BitVec.ofNat 64 marker.owner

/-- What the queue of a track holds. -/
inductive Item (Frame : Type) where
  | pcm (frame : Frame)
  | drain (marker : Marker)

/-- Where the latest drain is. One that returns OK does so on an acknowledgement. -/
inductive Phase where
  | idle
  | sending
  | waiting
  | returned (result : Except Int Marker)
deriving DecidableEq, Repr

/-- A track, with the frames that were enqueued and those that the mixer took. Only the latest drain
runs: `drain_item` has no lock. -/
structure Track (Frame : Type) where
  /-- How many items the queue holds. -/
  capacity : Nat
  queue : List (Item Frame) := []
  /-- The acknowledgement that waits. -/
  drainQueue : Option Marker := none
  /-- The drain that was begun last. -/
  latest : Marker := ⟨0, 0⟩
  phase : Phase := .idle
  /-- The frames that were enqueued. -/
  written : List Frame := []
  /-- The frames that the mixer took. -/
  consumed : List Frame := []

/-- Each call of a queue may fail instead, as it does when its time is over. -/
inductive Event (Frame : Type) where
  | write (frame : Frame)
  | drain
  | send (error : Option Int)
  | receive (error : Option Int)
  | mix (error : Option Int)

namespace Track

variable {Frame : Type} (track : Track Frame) {ack : Marker}

/-- One turn of the loop of `mixer_track_write`. -/
def write (frame : Frame) : Track Frame :=
  if track.queue.length < track.capacity then
    { track with queue := track.queue ++ [.pcm frame], written := track.written ++ [frame] }
  else track

/-- `mixer_track_drain` up to its first call of a queue. -/
def drain : Track Frame :=
  match track.phase with
  | .sending | .waiting => track
  | _ => { track with latest := ⟨track.latest.owner + 1, track.written.length⟩, phase := .sending }

/-- The marker is sent, or the call fails. -/
def send (error : Option Int) : Track Frame :=
  match track.phase, error with
  | .sending, some rc => { track with phase := .returned (.error (queueResultToAudio rc)) }
  | .sending, none =>
    if track.queue.length < track.capacity then
      { track with queue := track.queue ++ [.drain track.latest], phase := .waiting }
    else track
  | _, _ => track

/-- An acknowledgement is received, or the call fails. One of another drain is passed over. -/
def receive (error : Option Int) : Track Frame :=
  match track.phase, error, track.drainQueue with
  | .waiting, some rc, _ => { track with phase := .returned (.error (queueResultToAudio rc)) }
  | .waiting, none, some ack =>
    { track with
      drainQueue := none
      phase := if ack.sequence = track.latest.sequence then .returned (.ok ack) else .waiting }
  | _, _, _ => track

/-- `mix_track_frame`; the call that may fail is the one that acknowledges. -/
def mix (error : Option Int) : Track Frame :=
  match track.queue with
  | [] => track
  | .pcm frame :: rest => { track with queue := rest, consumed := track.consumed ++ [frame] }
  | .drain marker :: rest =>
    { track with
      queue := rest
      drainQueue := if error = none then some marker else track.drainQueue }

/-- What an event does to a track. -/
def step : Event Frame → Track Frame
  | .write frame => track.write frame
  | .drain => track.drain
  | .send error => track.send error
  | .receive error => track.receive error
  | .mix error => track.mix error

/-- A new track after some events. -/
def run (capacity : Nat) (events : List (Event Frame)) : Track Frame :=
  events.foldl step { capacity := capacity }

/-! ### Markers and acknowledgements -/

/-- The frames in a queue. -/
def frames (queue : List (Item Frame)) : List Frame :=
  queue.filterMap fun
    | .pcm frame => some frame
    | .drain _ => none

/-- Every marker comes behind the frames from before its drain. -/
def Lined : Nat → List (Item Frame) → Prop
  | _, [] => True
  | taken, .pcm _ :: rest => Lined (taken + 1) rest
  | taken, .drain marker :: rest => marker.mark ≤ taken ∧ Lined taken rest

/-- An item that may follow what is queued can be put behind it. -/
theorem lined_append {item : Item Frame} : ∀ {queue : List (Item Frame)} {taken : Nat},
    Lined taken queue → Lined (taken + (frames queue).length) [item] → Lined taken (queue ++ [item])
  | [], _, _, last => last
  | .pcm _ :: rest, taken, first, last => by
    have same : taken + ((frames rest).length + 1) = taken + 1 + (frames rest).length := by omega
    have last : Lined (taken + 1 + (frames rest).length) [item] := same ▸ last
    exact @lined_append item rest (taken + 1) first last
  | .drain _ :: _, _, first, last => ⟨first.1, lined_append first.2 last⟩

/-- The latest drain, or one before it. -/
def Begun (marker : Marker) : Prop :=
  marker = track.latest ∨ marker.owner < track.latest.owner

variable {track}

/-- The sequence tells drains apart until it comes round. -/
theorem Begun.eq_latest (begun : track.Begun ack) (few : track.latest.owner < 2 ^ 64)
    (same : ack.sequence = track.latest.sequence) : ack = track.latest := by
  refine begun.resolve_right fun earlier => ?_
  have numbers := congrArg BitVec.toNat same
  simp only [Marker.sequence, BitVec.toNat_ofNat] at numbers
  omega

/-- What holds of a track at any time. -/
structure Sound (track : Track Frame) : Prop where
  /-- The queued markers are of drains that have begun. -/
  queued : ∀ marker, .drain marker ∈ track.queue → track.Begun marker
  /-- What is acknowledged was taken. -/
  answered : ∀ ack, track.drainQueue = some ack → track.Begun ack ∧ ack.mark ≤ track.consumed.length
  /-- No frame is lost. -/
  kept : track.written = track.consumed ++ frames track.queue
  marked : track.latest.mark ≤ track.written.length
  lined : Lined track.consumed.length track.queue
  /-- A drain that returned OK was served. -/
  served : track.latest.owner < 2 ^ 64 → ∀ ack, track.phase = .returned (.ok ack) →
    ack = track.latest ∧ ack.mark ≤ track.consumed.length

section

variable (sound : track.Sound)

include sound

/-- A frame comes behind every marker of the queue. -/
theorem Sound.write (frame : Frame) : (track.write frame).Sound := by
  unfold Track.write
  split
  · exact { sound with
      queued := fun marker queued => sound.queued marker (by simpa using queued)
      kept := by simp [sound.kept, frames]
      marked := sound.marked.trans (by simp)
      lined := lined_append sound.lined trivial }
  · exact sound

/-- A new drain has a number of its own. -/
theorem Sound.drain : track.drain.Sound := by
  have older : ∀ {marker}, track.Begun marker → marker.owner < track.latest.owner + 1 := by
    rintro marker (rfl | earlier) <;> omega
  unfold Track.drain
  split
  · exact sound
  · exact sound
  · exact { sound with
      queued := fun marker queued => .inr (older (sound.queued marker queued))
      answered := fun ack here => (sound.answered ack here).imp_left fun begun => .inr (older begun)
      marked := le_rfl
      served := nofun }

/-- The marker comes behind all frames that were enqueued. -/
theorem Sound.send (error : Option Int) : (track.send error).Sound := by
  unfold Track.send
  split
  · exact { sound with served := nofun }
  · split
    · have before : track.latest.mark ≤ track.consumed.length + (frames track.queue).length := by
        rw [← List.length_append, ← sound.kept]
        exact sound.marked
      refine { sound with
        queued := fun marker queued => ?_, kept := ?_, lined := ?_, served := nofun }
      · rcases List.mem_append.mp queued with queued | queued
        · exact sound.queued marker queued
        · cases List.mem_singleton.mp queued
          exact .inl rfl
      · simp [sound.kept, frames]
      · exact lined_append sound.lined ⟨before, trivial⟩
    · exact sound
  · exact sound

/-- The acknowledgement that is accepted is the one of the latest drain. -/
theorem Sound.receive (error : Option Int) : (track.receive error).Sound := by
  unfold Track.receive
  split
  · exact { sound with served := nofun }
  · rename_i answer
    refine { sound with answered := nofun, served := fun few other returned => ?_ }
    split at returned <;> cases returned
    obtain ⟨begun, taken⟩ := sound.answered _ answer
    exact ⟨begun.eq_latest few ‹_›, taken⟩
  · exact sound

/-- The mixer takes the frames before the marker behind them. -/
theorem Sound.mix (error : Option Int) : (track.mix error).Sound := by
  obtain ⟨queued, answered, kept, marked, lined, served⟩ := sound
  unfold Track.mix
  split
  · exact ⟨queued, answered, kept, marked, lined, served⟩
  · rename_i frame rest front
    rw [front] at queued kept lined
    have later : ∀ {mark : Nat}, mark ≤ track.consumed.length →
        mark ≤ (track.consumed ++ [frame]).length := fun early => early.trans (by simp)
    refine ⟨fun marker behind => queued marker (.tail _ behind),
      fun ack here => (answered ack here).imp_right later, kept.trans (by simp [frames]), marked,
      ?_,
      fun few ack returned => (served few ack returned).imp_right later⟩
    simpa [Lined] using lined
  · rename_i marker rest front
    rw [front] at queued kept lined
    refine ⟨fun marker behind => queued marker (.tail _ behind), fun ack here => ?_, kept, marked,
      lined.2, served⟩
    split at here
    · cases here
      exact ⟨queued _ (.head _), lined.1⟩
    · exact answered ack here

/-- Every event keeps a track sound. -/
theorem Sound.step : ∀ event, (track.step event).Sound
  | .write frame => sound.write frame
  | .drain => sound.drain
  | .send error => sound.send error
  | .receive error => sound.receive error
  | .mix error => sound.mix error

end

/-- Every run leads to a sound track. -/
theorem sound_run (capacity : Nat) (events : List (Event Frame)) : (run capacity events).Sound := by
  refine List.foldlRecOn events step ?_ fun _ sound event _ => sound.step event
  exact ⟨nofun, nofun, rfl, le_rfl, trivial, nofun⟩

/-- A drain returns OK on its own acknowledgement, when the mixer has taken every frame that was
enqueued before it. -/
theorem consumed_of_returned (capacity : Nat) (events : List (Event Frame))
    (few : (run capacity events).latest.owner < 2 ^ 64)
    (returned : (run capacity events).phase = .returned (.ok ack)) :
    let track := run capacity events
    ack = track.latest ∧ track.written.take track.latest.mark <+: track.consumed := by
  intro track
  have sound : track.Sound := sound_run capacity events
  obtain ⟨rfl, taken⟩ := sound.served few _ returned
  refine ⟨rfl, ?_⟩
  rw [sound.kept, List.take_append_of_le_length taken]
  exact List.take_prefix ..

/-- The first drain times out and is acknowledged late. The second one passes over that
acknowledgement and returns OK on its own, when both frames were taken. -/
theorem consumed_of_returned_seven :
    let late : List (Event Nat) :=
      [.write 7, .drain, .send none, .receive (some (-6)), .mix none, .mix none]
    let second := late ++ [.write 8, .drain, .send none, .receive none]
    let events := second ++ [.mix none, .mix none, .receive none]
    (run 2 late).phase = .returned (.error (-9)) ∧ (run 2 late).drainQueue = some ⟨1, 1⟩ ∧
      (run 2 second).phase = .waiting ∧ (run 2 second).drainQueue = none ∧
      (run 2 events).phase = .returned (.ok ⟨2, 2⟩) ∧ [7, 8] <+: (run 2 events).consumed := by
  intro late second events
  exact ⟨rfl, rfl, rfl, rfl, rfl, (consumed_of_returned 2 events (by decide) rfl).2⟩

/-- The first drain timed out behind its marker, the later ones before theirs. -/
def stalled (later : Nat) : Track Unit where
  capacity := 2
  queue := [.drain ⟨1, 0⟩]
  latest := ⟨1 + later, 0⟩
  phase := .returned (.error (-9))

/-- The events that lead there. -/
def stalling (later : Nat) : List (Event Unit) :=
  [.drain, .send none, .receive (some (-6))] ++
    (List.replicate later [.drain, .send (some (-6))]).flatten

/-- They lead there, by induction on the number of later drains. -/
theorem run_stalling : ∀ later, run 2 (stalling later) = stalled later
  | 0 => rfl
  | later + 1 => by
    have before := run_stalling later
    unfold run stalling at before ⊢
    rw [List.replicate_succ', List.flatten_concat, ← List.append_assoc, List.foldl_append, before]
    rfl

/-- After `2 ^ 64` drains the sequence comes round to the one of the first. -/
theorem not_consumed_of_returned :
    ¬∀ capacity (events : List (Event Unit)) ack,
      (run capacity events).phase = .returned (.ok ack) →
      let track := run capacity events
      ack = track.latest ∧ track.written.take track.latest.mark <+: track.consumed := by
  intro always
  have wrapped := always 2
    (stalling (2 ^ 64 - 1) ++ [.write (), .mix none, .drain, .send none, .receive none]) ⟨1, 0⟩
  have splits : ∀ events, run 2 (stalling (2 ^ 64 - 1) ++ events) =
      events.foldl step (stalled (2 ^ 64 - 1)) := fun events => by
    rw [← run_stalling]
    exact List.foldl_append
  rw [splits] at wrapped
  exact absurd (wrapped (by decide)).1 (by decide)

end Track

end Gizos.AudioMixer
