import Gizos.Sctp.EndpointWalk

/-! # Runs of an association, and of two that talk to each other

An association is created and makes calls, whatever its surroundings answer. Two of them make a
network: every packet that one has handed to its transport may reach the other at any time, any
number of times, or never.
-/
namespace Gizos.Sctp

open Fault Relation

/-- An association that was created with a configuration and has made calls since. -/
inductive Reachable (config : Config) : Association → Prop where
  | created (tag : BitVec 32) (initialTsn : Tsn) (buffered : Bool) :
      Reachable config (Association.create config tag initialTsn buffered)
  | called {a b : Association} (call : Call) : Reachable config a →
      Reaches Turn.Any call.run a b → Reachable config b

variable {config : Config} {a b : Association}

/-- A call leads along steps that rely on nothing but the chunks it brings. -/
theorem Call.path {heard : Chunk → Prop} {call : Call} (told : ∀ chunk ∈ call.brings, heard chunk)
    (made : Reaches Turn.Any call.run a b) : ReflTransGen (Step heard) a b :=
  Moves.reached (roams_of_marches (marches_call call told) a) made

section

variable (kept : Association → Prop)
  (created : ∀ tag initialTsn buffered, kept (Association.create config tag initialTsn buffered))

include created

/-- What holds of every new association and is kept by every step holds in every run. -/
theorem Reachable.invariant (stepped : ∀ heard a b, kept a → Step heard a b → kept b)
    (reachable : Reachable config a) : kept a := by
  induction reachable with
  | created tag initialTsn buffered => exact created tag initialTsn buffered
  | called call _ made ih =>
    exact holds_along (stepped fun _ => True) (Call.path (fun _ _ => trivial) made) ih

/-- What holds of every new association and is kept by every stride holds in every run. -/
theorem Reachable.treading (stepped : ∀ heard a b, kept a → Stride heard a b → kept b)
    (reachable : Reachable config a) : kept a := by
  induction reachable with
  | created tag initialTsn buffered => exact created tag initialTsn buffered
  | called call _ made ih =>
    have path : Treads (fun _ => True) _ _ := .of_reaches (marches_call call fun _ _ => trivial)
      made
    exact holds_along (stepped _) path ih

end

theorem Reachable.config_eq {config : Config} (reachable : Reachable config a) :
    a.config = config :=
  reachable.treading (fun a => a.config = config) (fun _ _ _ => rfl)
    fun _ _ _ same stride => stride.config_eq.trans same

/-! The chunks of a packet are heard one after the other. -/

/-- The association after a number of chunks of a packet, in the run that hears all of them. -/
def Association.station (a : Association) (packet : Packet) (now : Nat) (answers : Nat → Turn)
    (time count : Nat) : Association :=
  (dispatchChunks now (packet.chunks.take count) answers time
    { a with lastNowMs := some now }).state

section Station

open Program

variable {packet : Packet} {now : Nat} {answers : Nat → Turn} {time count : Nat} {chunk : Chunk}

theorem dispatchChunks_append (now : Nat) (rest : List Chunk) : ∀ chunks : List Chunk,
    dispatchChunks now (chunks ++ rest) =
      (dispatchChunks now chunks >>= fun _ => dispatchChunks now rest)
  | [] => rfl
  | chunk :: chunks => by
    change (dispatchChunk now chunk >>= fun _ => dispatchChunks now (chunks ++ rest)) = _
    rw [dispatchChunks_append now rest chunks]
    exact (bind_assoc (dispatchChunk now chunk) (fun _ => dispatchChunks now chunks)
      fun _ => dispatchChunks now rest).symm

/-- From one station to the next the association hears one chunk, or none because an earlier one
was the last. -/
theorem Association.station_succ (position : packet.chunks[count]? = some chunk) :
    a.station packet now answers time (count + 1) = a.station packet now answers time count ∨
      Reaches Turn.Any (dispatchChunk now chunk) (a.station packet now answers time count)
        (a.station packet now answers time (count + 1)) := by
  have split : packet.chunks.take (count + 1) = packet.chunks.take count ++ [chunk] := by
    rw [List.take_add_one, position]
    rfl
  have alone : dispatchChunks now [chunk] = dispatchChunk now chunk := bind_pure_unit
  unfold Association.station
  rw [split, dispatchChunks_append]
  have further := @Reaches.of_bind _ _ _ _ Turn.Any (dispatchChunks now (packet.chunks.take count))
    (fun _ => dispatchChunks now [chunk]) answers time { a with lastNowMs := some now } fun _ =>
      trivial
  refine further.imp_right fun ⟨_, reached⟩ => ?_
  rw [alone] at reached ⊢
  exact reached

/-- What holds before a packet is heard and is kept by each of its chunks holds at every station. -/
theorem Association.station_induction {kept : Association → Prop}
    (clocked : kept { a with lastNowMs := some now })
    (each : ∀ count chunk, packet.chunks[count]? = some chunk →
      kept (a.station packet now answers time count) →
      Reaches Turn.Any (dispatchChunk now chunk) (a.station packet now answers time count)
        (a.station packet now answers time (count + 1)) →
      kept (a.station packet now answers time (count + 1))) :
    ∀ count, kept (a.station packet now answers time count)
  | 0 => clocked
  | count + 1 => by
    have held := station_induction clocked each count
    cases position : packet.chunks[count]? with
    | none =>
      have short : packet.chunks.take (count + 1) = packet.chunks.take count := by
        rw [List.take_add_one, position]
        exact List.append_nil _
      unfold Association.station at held ⊢
      rw [short]
      exact held
    | some chunk =>
      rcases station_succ position with same | heard
      · rw [same]
        exact held
      · exact each count chunk position held heard

theorem tolerating_state (codes : List Int) (body : Op Unit) (answers : Nat → Turn) (time : Nat)
    (a : Association) : (tolerating codes body answers time a).state =
      (body answers time a).state := by
  unfold tolerating orElse recovering andThen attempt
  cases body answers time a with
  | returned value state time => rfl
  | stopped state => rfl
  | failed code state time =>
    change ((if code ∈ codes then ret () else fail code : Op Unit) answers time state).state = state
    split <;> rfl

/-- A packet is refused before the clock is set, or it leads to its first or its last station. -/
theorem inputPacket_station {post : Association → Prop} (refused : post a)
    (passed : ∀ count, post (a.station packet now answers time count)) :
    post (inputPacket packet now answers time a).state := by
  have clocked : post { a with lastNowMs := some now } := passed 0
  have heard := passed packet.chunks.length
  unfold Association.station at heard
  rw [List.take_length] at heard
  unfold inputPacket validateOperation
  rw [bind_assoc]
  refine state_require (fun _ => ?_) fun _ => refused
  rw [bind_assoc]
  refine state_read ?_
  rw [bind_assoc]
  refine state_require (fun _ => state_update (state_read ?_)) fun _ => refused
  refine state_require (fun _ => ?_) fun _ => clocked
  refine state_require (fun _ => ?_) fun _ => clocked
  refine state_branch (fun _ => clocked) fun _ => ?_
  refine state_require (fun _ => ?_) fun _ => clocked
  refine state_branch (fun _ => clocked) fun _ => ?_
  refine state_require (fun _ => ?_) fun _ => clocked
  rw [tolerating_state]
  exact heard

/-- What holds of every new association and is kept by every step holds at every station. -/
theorem Reachable.station (kept : Association → Prop)
    (created : ∀ tag initialTsn buffered, kept (Association.create config tag initialTsn buffered))
    (stepped : ∀ heard a b, kept a → Step heard a b → kept b) (reachable : Reachable config a)
    (packet : Packet) (now : Nat) (answers : Nat → Turn) (time count : Nat) :
    kept (a.station packet now answers time count) := by
  have held := reachable.invariant kept created stepped
  have clocked : kept { a with lastNowMs := some now } :=
    stepped (fun _ => True) _ _ held (.phase (.idle (some now) a.heartbeatDeadlineMs a.known))
  refine Association.station_induction clocked (fun count chunk _ before made => ?_) count
  exact holds_along (stepped fun _ => True)
    (Moves.reached (roams_of_marches (marches_dispatchChunk trivial)
      (a.station packet now answers time count)) made) before

end Station

/-- An association between two calls, or between two chunks of the packet that it hears next. -/
def Association.Passes (a b : Association) : Prop :=
  b = a ∨ ∃ packet now answers time count, b = a.station packet now answers time count

theorem Reachable.passes (kept : Association → Prop)
    (created : ∀ tag initialTsn buffered, kept (Association.create config tag initialTsn buffered))
    (stepped : ∀ heard a b, kept a → Step heard a b → kept b) (reachable : Reachable config a)
    (passes : a.Passes b) : kept b := by
  rcases passes with rfl | ⟨packet, now, answers, time, count, rfl⟩
  · exact reachable.invariant kept created stepped
  · exact reachable.station kept created stepped packet now answers time count

/-- The association after calls, each with what its surroundings answer. -/
def replay : List (Call × List Turn) → Association → Association
  | [], a => a
  | (call, turns) :: rest, a => replay rest (call.run (fun time => turns.getD time {}) 0 a).state

theorem Reachable.replay : ∀ (calls : List (Call × List Turn)) {a : Association},
    Reachable config a → Reachable config (replay calls a)
  | [], _, reachable => reachable
  | (call, _) :: rest, _, reachable =>
    Reachable.replay rest (.called call reachable ⟨_, fun _ => trivial, 0, rfl⟩)

/-! An association to try things on. -/
namespace Sample

/-- A small configuration. -/
def small (role : Role) : Config where
  role
  localPort := 5000
  remotePort := 5000
  inboundStreams := 4
  outboundStreams := 4
  maxPacketSize := 128
  maxMessageSize := 1000
  sendBufferSize := 2000
  receiveBufferSize := 2000
  cookieLifetimeMs := 60000

theorem small_valid (role : Role) : (small role).Valid := by
  cases role <;> decide

/-- A packet to an association whose tag is 1. -/
def packet (chunks : List Chunk) : Packet where
  sourcePort := 5000
  destinationPort := 5000
  verificationTag := 1
  chunks

/-- What the peer says of itself. -/
def peer (interleaving : Bool) : InitValues where
  initiateTag := 7
  initialTsn := 100
  receiveWindow := 4000
  outboundStreams := 4
  inboundStreams := 4
  forwardTsn := true
  interleaving
  streamReset := true
  cookie := some [1]

/-- A call whose surroundings grant everything. -/
def calm (call : Call) : Call × List Turn := (call, [])

/-- A message of some length. -/
def message (length streamId : Nat) (unordered : Bool) (reliability : Reliability) : Message where
  data := List.replicate length 7
  streamId
  ppid := 5
  unordered
  reliability

/-- The association after an exchange that opens it and some further calls. -/
def played (interleaving buffered : Bool) (initialTsn : Tsn) (calls : List (Call × List Turn)) :
    Association :=
  replay
    (calm (.start 0) :: calm (.input (packet [.initAck (peer interleaving)]) 0) ::
      calm (.input (packet [.cookieAck]) 0) :: calls)
    (Association.create (small .active) 1 initialTsn buffered)

theorem played_reachable (interleaving buffered : Bool) (initialTsn : Tsn)
    (calls : List (Call × List Turn)) :
    Reachable (small .active) (played interleaving buffered initialTsn calls) :=
  Reachable.replay _ (.created 1 initialTsn buffered)

end Sample

/-- The packets that an association has handed to its transport beyond those of an earlier state. -/
def Association.newPackets (a b : Association) : List Packet :=
  b.link.wire.drop a.link.wire.length

end Gizos.Sctp
