import Gizos.Sctp.Run

/-! # What a connection is preceded by

An association connects when its cookie is acknowledged or when it answers the echo of a cookie it
gave out. One state stands for both halves of the handshake, so what was said before is read off
the packet that is repeated and the cookie that was given out. A COOKIE-ACK that arrives before a
cookie was echoed is not told apart from one that arrives later, and an answer to a COOKIE-ECHO is
dropped while another packet is retained; apart from these two, a connection was preceded by a
handshake.
-/
namespace Gizos.Sctp

open Fault Fault.Program Pal Serial Relation Association

namespace Association

/-- An INIT or INIT-ACK of the peer was applied. -/
def Introduced (a : Association) : Prop :=
  ∃ values : InitValues, values.valid = true ∧ a.peer = peerOf a.config values

/-- A cookie of the peer was echoed. -/
def HasEchoed (a : Association) : Prop := ∃ cookie, a.HasUttered (.cookieEcho cookie)

/-- What an association knows and has said, by the state it is in. -/
structure Opens (a : Association) : Prop where
  fresh : a.state = .new → a.cookie = none ∧ a.pledge ≠ some .cookieEcho
  baked : a.state = .connecting → a.cookie ≠ none → a.Introduced
  echoing : a.state = .connecting → a.pledge = some .cookieEcho → a.Introduced ∧ a.HasEchoed
  opened : a.state = .connected → a.Introduced ∧ (a.HasEchoed ∨ a.HasUttered .cookieAck)

/-- A chunk that connects an association too early: an acknowledgement where no echo is repeated, or
an echo that cannot be answered. -/
def Untimely (a : Association) (chunk : Chunk) : Prop :=
  a.state = .connecting ∧
    (chunk = .cookieAck ∧ a.config.role = .active ∧ a.controlKind ≠ some .cookieEcho ∨
      (∃ cookie, chunk = .cookieEcho cookie) ∧ a.link.pendingEmit ≠ none)

end Association

variable {config : Config} {heard : Chunk → Prop} {a b c d : Association} {now : Nat}
  {chunk : Chunk}

theorem Association.Introduced.of_peer (introduced : a.Introduced) (config : b.config = a.config)
    (peer : b.peer = a.peer) : b.Introduced := by
  obtain ⟨values, valid, known⟩ := introduced
  exact ⟨values, valid, by rw [peer, known, config]⟩

theorem Association.Introduced.nonzero (valid : a.config.Valid) (introduced : a.Introduced) :
    a.peer.verificationTag ≠ 0 ∧ a.peer.inboundStreams ≠ 0 ∧ a.peer.outboundStreams ≠ 0 := by
  obtain ⟨values, sound, known⟩ := introduced
  have inbound := valid.inboundStreams.1
  have outbound := valid.outboundStreams.1
  simp only [InitValues.valid, Bool.and_eq_true, decide_eq_true_eq] at sound
  rw [known]
  refine ⟨sound.1.1, ?_, ?_⟩
  · change min a.config.inboundStreams values.outboundStreams ≠ 0
    omega
  · change min a.config.outboundStreams values.inboundStreams ≠ 0
    omega

theorem Association.HasUttered.retained (uttered : a.HasUttered chunk) (lasting : ¬a.Ended)
    (retains : a.Retains b) : b.HasUttered chunk := by
  obtain ⟨packet, handed, member⟩ := uttered
  exact ⟨packet, retains lasting packet handed, member⟩

theorem Association.HasEchoed.retained (echoed : a.HasEchoed) (lasting : ¬a.Ended)
    (retains : a.Retains b) : b.HasEchoed := by
  obtain ⟨cookie, uttered⟩ := echoed
  exact ⟨cookie, uttered.retained lasting retains⟩

theorem Association.Opens.late (out : a.state = .shuttingDown ∨ a.Ended) : a.Opens := by
  have late : a.state ≠ .new ∧ a.state ≠ .connecting ∧ a.state ≠ .connected := by
    rcases out with shutting | closed | failed
    · simp [shutting]
    · simp [closed]
    · simp [failed]
  exact ⟨fun early => absurd early late.1, fun early => absurd early late.2.1,
    fun early => absurd early late.2.1, fun early => absurd early late.2.2⟩

theorem not_ended_of_connecting (connecting : a.state = .connecting) : ¬a.Ended := by
  simp [Ended, connecting]

/-- A connection outlasts a stage that knows the same peer. -/
theorem Association.Opens.lasts (opens : a.Opens) (connected : a.state = .connected)
    (config : b.config = a.config) (peer : b.peer = a.peer) (retains : a.Retains b) :
    b.Introduced ∧ (b.HasEchoed ∨ b.HasUttered .cookieAck) := by
  have lasting : ¬a.Ended := by simp [Ended, connected]
  obtain ⟨introduced, said⟩ := opens.opened connected
  exact ⟨introduced.of_peer config peer, said.imp (fun echoed => echoed.retained lasting retains)
    fun acked => acked.retained lasting retains⟩

theorem Association.Opens.of_connected (connected : a.state = .connected)
    (opened : a.Introduced ∧ (a.HasEchoed ∨ a.HasUttered .cookieAck)) : a.Opens :=
  ⟨by simp [connected], by simp [connected], by simp [connected], fun _ => opened⟩

theorem Association.Opens.same (opens : a.Opens) (config : b.config = a.config)
    (same : a.SameStage b) : b.Opens where
  fresh new := by
    rw [same.cookie, same.pledge]
    exact opens.fresh (same.state ▸ new)
  baked connecting cookie := by
    rw [same.state] at connecting
    rw [same.cookie] at cookie
    exact (opens.baked connecting cookie).of_peer config same.peer
  echoing connecting pledge := by
    rw [same.state] at connecting
    rw [same.pledge] at pledge
    obtain ⟨introduced, echoed⟩ := opens.echoing connecting pledge
    exact ⟨introduced.of_peer config same.peer,
      echoed.retained (not_ended_of_connecting connecting) same.uttered⟩
  opened connected := opens.lasts (same.state ▸ connected) config same.peer same.uttered

theorem Stride.opens (stride : Stride heard a b) (timely : ∀ chunk, heard chunk → ¬a.Untimely chunk)
    (opens : a.Opens) : b.Opens := by
  cases stride with
  | abides abides =>
    rcases abides.stage with failed | same
    · exact .late (.inr (.inr failed))
    · exact opens.same abides.config same
  | started pledge new chosen stage =>
    have state : b.state = .connecting := congrArg Stage.state stage
    have cookie : b.cookie = a.cookie := congrArg Stage.cookie stage
    have pledged : b.pledge = pledge := congrArg Stage.pledge stage
    obtain ⟨unbaked, unpledged⟩ := opens.fresh new
    refine ⟨by simp [state], fun _ given => absurd (cookie.trans unbaked) given, fun _ echo => ?_,
      by simp [state]⟩
    rw [pledged] at echo
    rcases chosen with rfl | rfl
    · exact absurd echo unpledged
    · cases echo
  | greeted values cookie connecting valid stage retains =>
    have state : b.state = .connecting := (congrArg Stage.state stage).trans connecting
    have pledge : b.pledge = a.pledge := congrArg Stage.pledge stage
    have config : b.config = a.config := congrArg Stage.config stage
    have peer : b.peer = peerOf a.config values := congrArg Stage.peer stage
    have introduced : b.Introduced := ⟨values, valid, by rw [peer, config]⟩
    refine ⟨by simp [state], fun _ _ => introduced, fun _ echo => ⟨introduced, ?_⟩, by simp [state]⟩
    rw [pledge] at echo
    exact (opens.echoing connecting echo).2.retained (not_ended_of_connecting connecting) retains
  | echoed values cookie active connecting valid stage uttered =>
    have state : b.state = .connecting := (congrArg Stage.state stage).trans connecting
    have config : b.config = a.config := congrArg Stage.config stage
    have peer : b.peer = peerOf a.config values := congrArg Stage.peer stage
    have introduced : b.Introduced := ⟨values, valid, by rw [peer, config]⟩
    exact ⟨by simp [state], fun _ _ => introduced, fun _ _ => ⟨introduced, cookie, uttered⟩,
      by simp [state]⟩
  | acknowledged active connecting told stage retains =>
    have state : b.state = .connected := congrArg Stage.state stage
    have config : b.config = a.config := congrArg Stage.config stage
    have peer : b.peer = a.peer := congrArg Stage.peer stage
    have echo : a.controlKind = some .cookieEcho := by
      by_contra early
      exact timely .cookieAck told ⟨connecting, .inl ⟨rfl, active, early⟩⟩
    obtain ⟨introduced, echoed⟩ := opens.echoing connecting ((pledge_iff (by decide)).2 echo)
    exact .of_connected state ⟨introduced.of_peer config peer,
      .inl (echoed.retained (not_ended_of_connecting connecting) retains)⟩
  | answered cookie pledge connecting found told chosen stage uttered =>
    have state : b.state = .connected := congrArg Stage.state stage
    have config : b.config = a.config := congrArg Stage.config stage
    have peer : b.peer = a.peer := congrArg Stage.peer stage
    have free : a.link.pendingEmit = none := by
      by_contra busy
      exact timely _ told ⟨connecting, .inr ⟨⟨cookie.bytes, rfl⟩, busy⟩⟩
    have introduced := opens.baked connecting (by simp [found])
    exact .of_connected state ⟨introduced.of_peer config peer, .inr (uttered free)⟩
  | retired connected _ stage retains =>
    have state : b.state = .connected := (congrArg Stage.state stage).trans connected
    exact .of_connected state
      (opens.lasts connected (congrArg Stage.config stage) (congrArg Stage.peer stage) retains)
  | shutDown _ _ _ stage | peerShutDown _ _ stage => exact .late (.inl (congrArg Stage.state stage))
  | resumed _ stage retains =>
    have state : b.state = a.state := congrArg Stage.state stage
    have config : b.config = a.config := congrArg Stage.config stage
    have peer : b.peer = a.peer := congrArg Stage.peer stage
    have cookie : b.cookie = a.cookie := congrArg Stage.cookie stage
    have pledge : b.pledge = some .shutdown := congrArg Stage.pledge stage
    refine ⟨fun new => ?_, fun connecting given => ?_, by simp [pledge], fun connected => ?_⟩
    · rw [cookie, pledge]
      exact ⟨(opens.fresh (state ▸ new)).1, nofun⟩
    · rw [cookie] at given
      exact (opens.baked (state ▸ connecting) given).of_peer config peer
    · exact opens.lasts (state ▸ connected) config peer retains
  | closed _ closed _ => exact .late (.inr (.inl closed))
  | past _ ended _ => exact .late (.inr ended)

/-- One chunk that is not untimely. The two that may be are heard in one stride, so that what they
meet is what the association was before. -/
theorem opens_dispatchChunk (timely : ¬c.Untimely chunk) (opens : c.Opens)
    (made : Reaches Turn.Any (dispatchChunk now chunk) c d) : d.Opens := by
  have direct : March (fun other => other = chunk) c d → d.Opens := fun march =>
    march.stride.opens (fun other same => same ▸ timely) opens
  by_cases acked : chunk = .cookieAck
  · subst acked
    exact direct (Ensures.reached (ensures_handleCookieAck rfl) made)
  by_cases echo : ∃ cookie, chunk = .cookieEcho cookie
  · obtain ⟨cookie, rfl⟩ := echo
    exact direct (Ensures.reached (ensures_handleCookieEcho rfl) made)
  · have path : Treads (fun other => other = chunk) c d :=
      .of_reaches (marches_dispatchChunk rfl) made
    refine holds_along (fun _ _ kept stride => Stride.opens stride ?_ kept) path opens
    rintro other rfl ⟨-, early | late⟩
    · exact acked early.1
    · exact echo late.1

/-- Calls are made and packets are heard, and no chunk of a packet is untimely when it is heard. -/
inductive Orderly (config : Config) : Association → Prop where
  | created (tag : BitVec 32) (initialTsn : Tsn) (buffered : Bool) :
      Orderly config (Association.create config tag initialTsn buffered)
  | called {a b : Association} (call : Call) : Orderly config a → call.brings = [] →
      Reaches Turn.Any call.run a b → Orderly config b
  | heard {a : Association} (packet : Packet) (now : Nat) (answers : Nat → Turn) (time : Nat) :
      Orderly config a →
      (∀ count chunk, packet.chunks[count]? = some chunk →
        ¬(a.station packet now answers time count).Untimely chunk) →
      Orderly config (inputPacket packet now answers time a).state

theorem Orderly.reachable (orderly : Orderly config a) : Reachable config a := by
  induction orderly with
  | created tag initialTsn buffered => exact .created tag initialTsn buffered
  | called call _ _ made ih => exact .called call ih made
  | heard packet now answers time _ _ ih =>
    exact .called (.input packet now) ih ⟨answers, fun _ => trivial, time, rfl⟩

theorem Orderly.opens (orderly : Orderly config a) : a.Opens := by
  induction orderly with
  | created tag initialTsn buffered => exact ⟨fun _ => ⟨rfl, nofun⟩, nofun, nofun, nofun⟩
  | @called a b call _ alone made ih =>
    have path : Treads (fun _ => False) a b := .of_reaches (marches_call call (by simp [alone]))
      made
    exact holds_along (fun _ _ kept stride => Stride.opens stride (fun _ => False.elim) kept) path
      ih
  | @heard a packet now answers time _ timely ih =>
    have opens : ∀ count, (a.station packet now answers time count).Opens := by
      refine station_induction ?_ fun count chunk position kept made => ?_
      · exact { ih with }
      · exact opens_dispatchChunk (timely count chunk position) kept made
    exact inputPacket_station ih opens

/-- An association that is connected, and never heard an untimely chunk, has applied an INIT or
INIT-ACK of its peer, so that it knows a tag and streams, and has echoed the cookie of the peer or
acknowledged the echo of its own. -/
theorem connected_after_handshake (valid : config.Valid) (orderly : Orderly config a)
    (connected : a.state = .connected) :
    a.Introduced ∧ (a.peer.verificationTag ≠ 0 ∧ a.peer.inboundStreams ≠ 0 ∧
      a.peer.outboundStreams ≠ 0) ∧ (a.HasEchoed ∨ a.HasUttered .cookieAck) := by
  have config_eq := orderly.reachable.config_eq
  obtain ⟨introduced, said⟩ := orderly.opens.opened connected
  exact ⟨introduced, introduced.nonzero (config_eq ▸ valid), said⟩

/-- An association that has sent its INIT connects on a COOKIE-ACK: it knows neither a tag nor a
stream of the peer, and its INIT is all it ever sent. -/
theorem connected_before_handshake :
    let a := replay [Sample.calm (.start 0), Sample.calm (.input (Sample.packet [.cookieAck]) 0)]
      (Association.create (Sample.small .active) 1 0 true)
    Reachable (Sample.small .active) a ∧ a.localVerificationTag = 1 ∧ a.state = .connected ∧
      a.peer.verificationTag = 0 ∧ a.peer.inboundStreams = 0 ∧ a.peer.outboundStreams = 0 ∧
      a.link.pendingEmit = none ∧
      a.link.wire.map Packet.chunks = [[.init (a.initValues none)]] := by
  exact ⟨Reachable.replay _ (.created 1 0 true), by decide +kernel⟩

namespace Sample

/-- What the surroundings answer if they grant everything. -/
def granted : Nat → Turn := fun time => [].getD time {}

def started : Association := (start 0 granted 0 (Association.create (small .active) 1 0 true)).state

def greeted : Association :=
  (inputPacket (packet [.initAck (peer true)]) 0 granted 0 started).state

theorem started_orderly : Orderly (small .active) started :=
  .called (.start 0) (.created 1 0 true) rfl ⟨granted, fun _ => trivial, 0, rfl⟩

theorem greeted_orderly : Orderly (small .active) greeted := by
  refine .heard _ 0 granted 0 started_orderly fun count chunk position untimely => ?_
  cases count with
  | succ count => cases position
  | zero =>
    cases position
    rcases untimely.2 with early | late
    · cases early.1
    · obtain ⟨cookie, same⟩ := late.1
      cases same

end Sample

/-- The COOKIE-ACK that answers an echo is timely, and the association is connected then. -/
theorem connected_after_handshake_acknowledged :
    let a := (inputPacket (Sample.packet [.cookieAck]) 0 Sample.granted 0 Sample.greeted).state
    a.state = .connected ∧ a.Introduced ∧ (a.HasEchoed ∨ a.HasUttered .cookieAck) := by
  intro a
  have connected : a.state = .connected := by decide +kernel
  have orderly : Orderly (Sample.small .active) a := by
    refine .heard _ 0 Sample.granted 0 Sample.greeted_orderly fun count chunk position untimely =>
      ?_
    cases count with
    | succ count => cases position
    | zero =>
      cases position
      rcases untimely.2 with early | late
      · exact early.2.2 (by decide +kernel)
      · obtain ⟨cookie, same⟩ := late.1
        cases same
  have held := connected_after_handshake (Sample.small_valid .active) orderly connected
  exact ⟨connected, held.1, held.2.2⟩

end Gizos.Sctp
