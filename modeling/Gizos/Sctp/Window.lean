import Gizos.Sctp.Accounting
import Gizos.Sctp.Calm

/-! # The congestion window

The window grows with what is acknowledged and shrinks with losses and timeouts. It stays above one
packet as long as nothing is acknowledged while it stands at the largest value of its type: there,
congestion avoidance adds one and wraps.
-/
namespace Gizos.Sctp

open Fault Fault.Program Pal Serial Sender

namespace Sender

variable {sender : Sender} {config : Config} {a : Association}

/-- The window and its threshold fit their type, and the window holds a packet unless data was
acknowledged at the top. -/
structure Windowed (sender : Sender) (config : Config) : Prop where
  cwnd : sender.cwnd ≤ uint32Max
  ssthresh : sender.ssthresh ≤ uint32Max
  floor : sender.peak < uint32Max → onePacket config ≤ sender.cwnd

/-- A step that touches none of the three. -/
theorem Windowed.same (windowed : sender.Windowed config) {other : Sender}
    (cwnd : other.cwnd = sender.cwnd) (ssthresh : other.ssthresh = sender.ssthresh)
    (peak : other.peak = sender.peak) : other.Windowed config :=
  ⟨by rw [cwnd]; exact windowed.cwnd, by rw [ssthresh]; exact windowed.ssthresh,
    by rw [peak, cwnd]; exact windowed.floor⟩

theorem Recounted.windowed {other : Sender} (counted : sender.Recounted other)
    (windowed : sender.Windowed config) : other.Windowed config := by
  obtain ⟨_, _, _, _, _, _, _, rfl⟩ := counted
  exact windowed.same rfl rfl rfl

theorem onePacket_le_reduced (sender : Sender) (config : Config) :
    onePacket config ≤ sender.reducedSsthresh config := by
  unfold onePacket reducedSsthresh
  omega

theorem reduced_le (bounded : sender.cwnd ≤ uint32Max) :
    sender.reducedSsthresh config ≤ uint32Max := by
  unfold reducedSsthresh
  omega

/-- Below the top the window only grows, and at the top it wraps. -/
theorem grownCwnd_spec {acked : Nat} (packet : config.maxPacketSize < 2 ^ 16)
    (windowed : sender.Windowed config) :
    sender.grownCwnd config acked ≤ uint32Max ∧
      (sender.cwnd ≤ sender.grownCwnd config acked ↔ sender.cwnd ≠ uint32Max) := by
  have bounded := windowed.cwnd
  have threshold := windowed.ssthresh
  have square : config.maxPacketSize * config.maxPacketSize < 2 ^ 32 - 1 := by
    have low : config.maxPacketSize ≤ 65535 := by omega
    have product := Nat.mul_le_mul low low
    omega
  unfold grownCwnd
  by_cases slow : sender.cwnd < sender.ssthresh
  · simp only [slow, if_true]
    split <;> omega
  · simp only [slow, if_false]
    by_cases zero : sender.cwnd = 0
    · simp [zero, uint32Max]
    · simp only [ne_eq, zero, not_false_eq_true, if_true]
      generalize increase : config.maxPacketSize * config.maxPacketSize / sender.cwnd = added
      by_cases top : sender.cwnd = uint32Max
      · have none : added = 0 := by
          rw [← increase, top]
          exact Nat.div_eq_of_lt square
        simp [none, top, uint32Max]
      · by_cases large : added > uint32Max - sender.cwnd
        · simp only [large, if_true]
          omega
        · simp only [large, if_false]
          have room : sender.cwnd + (if added = 0 then 1 else added) < 2 ^ 32 := by
            unfold uint32Max at *
            split <;> omega
          rw [Nat.mod_eq_of_lt room]
          split <;> omega

theorem Windowed.grow (windowed : sender.Windowed config) (packet : config.maxPacketSize < 2 ^ 16)
    (acked : Nat) : (sender.grow config acked).Windowed config := by
  have spec : sender.grownCwnd config acked ≤ uint32Max ∧ _ := grownCwnd_spec packet windowed
  unfold Sender.grow
  split
  · exact windowed
  · refine ⟨spec.1, windowed.ssthresh, fun below => ?_⟩
    have low : sender.peak < uint32Max ∧ sender.cwnd < uint32Max := by
      simp only at below
      omega
    have floor := windowed.floor low.1
    have grown := spec.2.2 (Nat.ne_of_lt low.2)
    exact Nat.le_trans floor grown

/-- What a SACK acknowledges for the first time, in bytes. -/
def ackedBy (sender : Sender) (sack : SackChunk) : Nat :=
  ((sender.tx.filter (newlyAcknowledged sack)).map TxFragment.dataLen).sum

theorem applySack_cwnd (sender : Sender) (config : Config) (sack : SackChunk) (now : Nat)
    (acked : sender.ackedBy sack ≠ 0) :
    (sender.applySack config sack now).cwnd = sender.grownCwnd config (sender.ackedBy sack) := by
  obtain ⟨_, _, _, _, _, _, _, same⟩ := sender.takeSack_recounted sack now
  unfold ackedBy at acked
  unfold applySack grow
  rw [if_neg acked, same]
  rfl

theorem Windowed.applySack (windowed : sender.Windowed config)
    (packet : config.maxPacketSize < 2 ^ 16) (sack : SackChunk) (now : Nat) :
    (sender.applySack config sack now).Windowed config := by
  have taken : (sender.takeSack sack now).Windowed config :=
    (sender.takeSack_recounted sack now).windowed (windowed.same rfl rfl rfl)
  refine Windowed.grow ?_ packet _
  exact taken.same rfl rfl rfl

end Sender

variable {heard : Chunk → Prop} {a b : Association} {config : Config}

theorem SenderStep.windowed (stepped : SenderStep heard a sender)
    (packet : a.config.maxPacketSize < 2 ^ 16) (windowed : a.sender.Windowed a.config) :
    sender.Windowed a.config := by
  cases stepped with
  | assign index fragment =>
    unfold Sender.assignTsn
    split
    · split
      · exact windowed
      · exact windowed.same rfl rfl rfl
    · exact windowed
  | markSent index fragment now retransmission taken =>
    unfold Sender.markSent
    split
    · exact windowed
    · exact windowed.same rfl rfl rfl
  | enterRecovery exitTsn =>
    unfold Sender.enterRecovery
    split
    · exact windowed
    · have reduced : a.sender.reducedSsthresh a.config ≤ uint32Max :=
        reduced_le windowed.cwnd
      exact ⟨reduced, reduced, fun _ => onePacket_le_reduced _ _⟩
  | abandon fragment now =>
    exact (a.sender.abandonMessage_recounted fragment.messageId).windowed
      (windowed.same rfl rfl rfl)
  | collapse =>
    refine ⟨?_, reduced_le windowed.cwnd, fun _ => Nat.le_refl _⟩
    exact Nat.min_le_left _ _
  | sack sack now => exact windowed.applySack packet sack now
  | shutdown cumulative =>
    have counted := settle_recounted recounted_acknowledged
      (fun fragment => fragment.upTo cumulative && fragment.live) Sender.acknowledged a.sender
    have settled := counted.windowed (windowed.same rfl rfl rfl)
    exact settled.same rfl rfl rfl
  | _ => exact windowed.same rfl rfl rfl

theorem Reachable.windowed (valid : config.Valid) (reachable : Reachable config a) :
    a.config = config ∧ a.sender.Windowed config := by
  refine reachable.invariant (fun a => a.config = config ∧ a.sender.Windowed config) ?_ ?_
  · intro tag initialTsn buffered
    refine ⟨rfl, ?_, Nat.le_refl _, fun _ => ?_⟩
    · exact Nat.min_le_left _ _
    · simp only [Association.create, Sender.onePacket]
      omega
  · intro heard a b kept stepped
    obtain ⟨same, windowed⟩ := kept
    refine ⟨stepped.config_eq.trans same, ?_⟩
    rcases stepped.sender_cases with unchanged | moved | ⟨window, unchanged⟩
    · rw [unchanged]
      exact windowed
    · subst same
      exact moved.windowed valid.maxPacketSize.2 windowed
    · rw [unchanged]
      exact windowed.same rfl rfl rfl

/-- As long as nothing was acknowledged while the window stood at the largest value of its type, it
holds one packet. A SACK that acknowledges data leaves it at least as large exactly if it does not
stand there. -/
theorem window_floor (valid : config.Valid) (reachable : Reachable config a) :
    (a.sender.peak < uint32Max → config.maxPacketSize ≤ a.sender.cwnd) ∧
      ∀ (sack : SackChunk) (now : Nat), a.sender.ackedBy sack ≠ 0 →
        (a.sender.cwnd ≤ (a.sender.applySack a.config sack now).cwnd ↔
          a.sender.cwnd ≠ uint32Max) := by
  obtain ⟨same, windowed⟩ := reachable.windowed valid
  have onePacket : Sender.onePacket config = config.maxPacketSize := by
    have narrow := valid.maxPacketSize.2
    unfold Sender.onePacket
    simp only [uint32Max]
    omega
  refine ⟨fun below => onePacket ▸ windowed.floor below, fun sack now acked => ?_⟩
  rw [a.sender.applySack_cwnd a.config sack now acked, same]
  exact (grownCwnd_spec valid.maxPacketSize.2 windowed).2

/-! Slow start reaches the top: one message after the other is sent and acknowledged. -/
namespace Sample

/-- What an association needs to send messages on stream 0. -/
structure Open (a : Association) : Prop where
  config : a.config = small .active
  state : a.state = .connected
  clock : a.lastNowMs.getD 0 ≤ 0
  tag : a.localVerificationTag = 1
  interleaving : a.peer.interleaving = true
  streams : 0 < a.peer.outboundStreams
  free : a.link.pendingEmit = none

/-- Nothing is to be sent, and the peer takes 4000 bytes. -/
structure Drained (sender : Sender) (cwnd : Nat) : Prop where
  window : sender.peerReceiveWindow = 4000
  threshold : sender.ssthresh = uint32Max
  cwnd : sender.cwnd = cwnd
  tx : sender.tx = []
  acknowledged : sender.peerCumulativeTsn + 1 = sender.nextTsn
  advanced : sender.advancedPeerAck + 1 = sender.nextTsn

/-- One message, of a full packet. -/
def ping : Message := message 96 0 false .reliable

/-- The message was sent and is to be acknowledged. -/
structure Pinged (sender : Sender) (cwnd : Nat) (fragment : TxFragment) : Prop where
  threshold : sender.ssthresh = uint32Max
  cwnd : sender.cwnd = cwnd
  tx : sender.tx = [fragment]
  length : fragment.dataLen = 96
  numbered : fragment.tsnAssigned = true
  outstanding : fragment.outstanding = true
  next : fragment.tsn + 1 = sender.nextTsn
  acknowledged : sender.peerCumulativeTsn + 1 = fragment.tsn
  advanced : sender.advancedPeerAck + 1 = fragment.tsn

variable {cwnd : Nat} {fragment : TxFragment}

/-- The fragment of the message before it is sent. -/
def waiting (messageId : Nat) (identifier : BitVec 32) : TxFragment where
  messageId
  messageIdentifier := identifier
  fragmentSequence := 0
  ppid := 5
  streamId := 0
  flags := { first := true, last := true }
  reliability := .reliable
  submittedMs := 0
  dataLen := 96
  data := some ping.data

theorem pickUnsent_single {sender : Sender} (tx : sender.tx = [fragment])
    (waits : fragment.waiting = true) : sender.pickUnsent = some 0 := by
  have streams : sender.waitingStreams = [fragment.streamId] := by
    unfold Sender.waitingStreams
    simp [tx, waits]
  have selected : sender.selectStream = some fragment.streamId := by
    unfold Sender.selectStream
    rw [streams]
    by_cases above : sender.lastScheduledStream < fragment.streamId <;> simp [above]
  unfold Sender.pickUnsent
  simp [selected, tx, waits]

theorem pickUnsent_none {sender : Sender} (waits : ∀ fragment ∈ sender.tx, fragment.waiting =
    false) :
    sender.pickUnsent = none := by
  have streams : sender.waitingStreams = [] := by
    unfold Sender.waitingStreams
    rw [List.filter_eq_nil_iff.2 fun fragment member => by simp [waits fragment member]]
    rfl
  unfold Sender.pickUnsent Sender.selectStream
  simp [streams]

/-- The sending side after its only fragment was sent. -/
def sentOnce (sender : Sender) : Sender :=
  { (sender.assignTsn 0).markSent 0 0 false true with lastScheduledStream := 0 }

theorem sentOnce_eq {messageId : Nat} {identifier : BitVec 32}
    (tx : sender.tx = [waiting messageId identifier]) :
    ∃ assigned widest rttSample sendings, sentOnce sender =
      { sender with
        nextTsn := sender.nextTsn + 1, flightSize := sender.flightSize + 96
        tx := [{ waiting messageId identifier with
          tsn := sender.nextTsn, tsnAssigned := true, sent := true }]
        lastScheduledStream := 0, assigned, widest, rttSample, sendings } := by
  have numbered : sender.assignTsn 0 =
      { sender with
        nextTsn := sender.nextTsn + 1
        tx := [{ waiting messageId identifier with tsn := sender.nextTsn, tsnAssigned := true }]
        assigned := (sender.assignTsn 0).assigned, widest := (sender.assignTsn 0).widest } := by
    unfold Sender.assignTsn
    simp only [tx]
    rfl
  refine ⟨(sender.assignTsn 0).assigned, (sender.assignTsn 0).widest, (sentOnce sender).rttSample,
    (sentOnce sender).sendings, ?_⟩
  unfold sentOnce
  rw [numbered]
  rfl

theorem achieves_sendPending {messageId : Nat} {identifier : BitVec 32} (opened : Open a)
    (tx : a.sender.tx = [waiting messageId identifier]) (window : a.sender.peerReceiveWindow = 4000)
    (room : 96 ≤ a.sender.cwnd) (flight : a.sender.flightSize = 0) :
    Achieves Turn.Calm (sendPending 0)
      (fun _ b => ∃ link, b = { a with link, sender := sentOnce a.sender } ∧
        link.pendingEmit = none) a := by
  have picked : a.sender.pickUnsent = some 0 := pickUnsent_single tx rfl
  have present : a.sender.tx[0]? = some (waiting messageId identifier) := by
    rw [tx]
    rfl
  have limit : 96 ≤ a.sender.limit := by
    unfold Sender.limit
    split <;> omega
  have fits : a.config.fits a.peer.interleaving (waiting messageId identifier).dataLen = true := by
    rw [opened.config, opened.interleaving]
    change (small .active).fits true 96 = true
    decide
  refine .bind (.read (.bind (.require (fun _ => ?_) ?_)))
  · simp only [id_eq, tx, List.length_cons, List.length_nil]
    refine .bind (.read ?_)
    simp only [picked, Option.bind_some, present, Option.map_some]
    have allowed : ¬(a.sender.limit < (waiting messageId identifier).dataLen ∨
        a.sender.limit - (waiting messageId identifier).dataLen < a.sender.flightSize) := by
      simp only [waiting]
      omega
    rw [if_neg allowed]
    refine .bind (achieves_emitFragment present rfl fits opened.free ?_)
    refine .bind (.update ?_)
    have settled : (sentOnce a.sender).pickUnsent = none := by
      obtain ⟨_, _, _, _, sent⟩ := sentOnce_eq tx
      refine pickUnsent_none fun fragment member => ?_
      rw [sent, List.mem_singleton] at member
      rw [member]
      rfl
    exact ensures_sendLoop_idle (by exact settled) ⟨_, rfl, opened.free⟩ 1
  · exact fun busy => busy opened.free

theorem achieves_ping (opened : Open a) (exact : a.Exact) (drained : Drained a.sender cwnd)
    (room : 96 ≤ cwnd) :
    Achieves Turn.Calm (sendMessage ping 0)
      (fun _ b => Open b ∧ ∃ fragment, Pinged b.sender cwnd fragment) a := by
  have small : ping.data.length ≤ a.config.maxMessageSize := by
    rw [opened.config]
    decide
  have used : a.sender.sendUsed = 0 := by
    rw [exact.sender.used, drained.tx]
    rfl
  have flight : a.sender.flightSize = 0 := by
    rw [exact.sender.flight, drained.tx]
    rfl
  have buffer : ping.data.length ≤ a.config.sendBufferSize ∧
      a.sender.sendUsed ≤ a.config.sendBufferSize - ping.data.length := by
    rw [opened.config, used]
    decide
  have wide : commonHeaderSize + dataHeaderSize a.peer.interleaving < a.config.maxPacketSize := by
    rw [opened.config, opened.interleaving]
    decide
  have size : a.config.payloadSize a.peer.interleaving = 96 := by
    rw [opened.config, opened.interleaving]
    rfl
  have count : fragmentCount ping.data.length (a.config.payloadSize a.peer.interleaving) = 1 := by
    rw [size]
    rfl
  refine .bind (.require (fun _ => ?_) fun empty => empty nofun)
  refine .bind (achieves_validateOperation (by decide) opened.clock ?_)
  refine .bind (.read ?_)
  refine .bind (.require (fun _ => ?_) fun closed => closed opened.state)
  refine .bind (.require (fun _ => ?_) fun long => long ⟨opened.streams, small⟩)
  refine .bind (.require (fun _ => ?_) fun plain => plain (.inl opened.interleaving))
  refine .bind (.bind (.read ?_))
  refine .bind (.require (fun _ => ?_) fun full => full buffer)
  refine .bind (.require (fun _ => ?_) fun narrow => narrow wide)
  refine .bind (.require (fun _ => ?_) fun none => none ?_)
  · refine .bind (achieves_getOrCreate fun known => ?_)
    refine .bind (.require (fun _ => ?_) fun refused => refused rfl)
    refine .bind (achieves_allocateEach ?_ _)
    refine .bind (.require (fun _ => ?_) fun refused => refused rfl)
    refine .update (Achieves.recovering ?_)
    have queue : (a.sender.enqueue a.peer.interleaving (a.config.payloadSize a.peer.interleaving)
      ping
        0).tx = [waiting a.sender.nextMessageId
          ((a.sender.outgoing 0).identifier a.peer.interleaving false)] := by
      rw [size]
      simp only [Sender.enqueue, drained.tx, List.nil_append]
      rfl
    have still : Open (({ a with lastNowMs := some 0, known } : Association).mapSender fun sender =>
        sender.enqueue a.peer.interleaving (a.config.payloadSize a.peer.interleaving) ping 0) :=
      ⟨opened.config, opened.state, Nat.le_refl _, opened.tag, opened.interleaving, opened.streams,
        opened.free⟩
    have room' : 96 ≤ a.sender.cwnd := by
      rw [drained.cwnd]
      exact room
    refine .mono (achieves_sendPending still queue drained.window room' flight) ?_
      (fun _ _ => id) fun _ impossible => impossible
    rintro _ b ⟨link, rfl, free⟩
    have pinged : ∃ fragment, Pinged (sentOnce (a.sender.enqueue a.peer.interleaving
        (a.config.payloadSize a.peer.interleaving) ping 0)) cwnd fragment := by
      obtain ⟨_, _, _, _, sent⟩ := sentOnce_eq queue
      rw [sent]
      exact ⟨_, drained.threshold, drained.cwnd, rfl, rfl, rfl, rfl, rfl, drained.acknowledged,
        drained.advanced⟩
    exact ⟨⟨opened.config, opened.state, Nat.le_refl _, opened.tag, opened.interleaving,
      opened.streams, free⟩, pinged⟩
  · simp only [id_eq, count]
    decide

/-- The SACK for everything that was sent. -/
def pong (tsn : Tsn) : SackChunk := { cumulative := tsn, window := 4000, gaps := [] }

section

variable (pinged : Pinged sender cwnd fragment)

include pinged

theorem Pinged.newlyAcknowledged :
    Sender.newlyAcknowledged (pong fragment.tsn) fragment = true := by
  have sent : fragment.sent = true ∧ fragment.live = true := by
    have both := pinged.outstanding
    simpa only [TxFragment.outstanding, Bool.and_eq_true] using both
  simp [Sender.newlyAcknowledged, pinged.numbered, sent, pong, after, before_irrefl]

theorem Pinged.ackedBy : sender.ackedBy (pong fragment.tsn) = 96 := by
  have hits : sender.tx.filter (Sender.newlyAcknowledged (pong fragment.tsn)) = [fragment] := by
    simp [pinged.tx, pinged.newlyAcknowledged]
  simp [Sender.ackedBy, hits, pinged.length]

theorem Pinged.applySack {config : Config} :
    Drained (sender.applySack config (pong fragment.tsn) 0) (sender.grownCwnd config 96) := by
  have hit := pinged.newlyAcknowledged
  have acked := pinged.ackedBy
  have cwnd' := sender.applySack_cwnd config (pong fragment.tsn) 0 (by rw [acked]; decide)
  rw [acked] at cwnd'
  have tx : (sender.takeSack (pong fragment.tsn) 0).tx = [Sender.acknowledged fragment] := by
    simp only [Sender.takeSack, Sender.settle, pinged.tx, List.map_cons, List.map_nil, hit, if_true]
  obtain ⟨_, _, _, _, _, _, _, same⟩ := sender.takeSack_recounted (pong fragment.tsn) 0
  have points : (sender.takeSack (pong fragment.tsn) 0).peerCumulativeTsn =
      sender.peerCumulativeTsn ∧ (sender.takeSack (pong fragment.tsn) 0).advancedPeerAck =
      sender.advancedPeerAck ∧ (sender.takeSack (pong fragment.tsn) 0).nextTsn = sender.nextTsn ∧
      (sender.takeSack (pong fragment.tsn) 0).ssthresh = sender.ssthresh ∧
      (sender.takeSack (pong fragment.tsn) 0).peerReceiveWindow = 4000 := by
    rw [same]
    exact ⟨rfl, rfl, rfl, rfl, rfl⟩
  have forward : after (pong fragment.tsn).cumulative sender.peerCumulativeTsn = true := by
    rw [← pinged.acknowledged]
    exact before_succ _
  have forward' : after (pong fragment.tsn).cumulative sender.advancedPeerAck = true := by
    rw [← pinged.advanced]
    exact before_succ _
  obtain ⟨highest, cwnd, peak, grown⟩ := sender.applySack_eq config (pong fragment.tsn) 0
  have settled : ∀ highest, Sender.countMiss highest (Sender.acknowledged fragment) =
      Sender.acknowledged fragment := by
    simp [Sender.countMiss, Sender.acknowledged, TxFragment.outstanding, TxFragment.live]
  have dropped : ((Sender.acknowledged fragment).upTo fragment.tsn &&
      !(Sender.acknowledged fragment).live) = true := by
    simp [Sender.acknowledged, TxFragment.upTo, TxFragment.live, pinged.numbered, after,
      before_irrefl]
  refine ⟨?_, ?_, cwnd', ?_, ?_, ?_⟩
  all_goals rw [grown]
  · exact points.2.2.2.2
  · exact points.2.2.2.1.trans pinged.threshold
  · have queue : (sender.takeSack (pong fragment.tsn) 0).tx.map (Sender.countMiss highest) =
        [Sender.acknowledged fragment] := by
      rw [tx, List.map_singleton, settled]
    simp only [Sender.moveCumulative, Sender.prune]
    rw [queue]
    refine List.filter_eq_nil_iff.2 fun other member => ?_
    rw [List.mem_singleton.1 member]
    simpa only [pong, Bool.not_eq_true', Bool.not_eq_false] using dropped
  · simp only [Sender.moveCumulative, Sender.prune, points, Sender.later, forward, if_true]
    exact pinged.next
  · simp only [Sender.moveCumulative, Sender.prune, points, Sender.later, forward', if_true]
    exact pinged.next

theorem Pinged.sackIsValid :
    before (pong fragment.tsn).cumulative sender.peerCumulativeTsn = false ∧
      sender.sackIsValid (pong fragment.tsn) = true := by
  have sent : fragment.sent = true := by
    have both := pinged.outstanding
    simp only [TxFragment.outstanding, Bool.and_eq_true] at both
    exact both.1
  have next := pinged.acknowledged
  have same : sender.advancedPeerAck = sender.peerCumulativeTsn := by
    have both := pinged.advanced
    bv_omega
  have highest : sender.highestSent = fragment.tsn := by
    have forward : after fragment.tsn sender.peerCumulativeTsn = true := by
      rw [← next]
      exact before_succ _
    simp [Sender.highestSent, pinged.tx, pinged.numbered, sent, same, Sender.later, forward]
  constructor
  · rw [← not_before_succ sender.peerCumulativeTsn, next]
    rfl
  · simp [Sender.sackIsValid, highest, pong, after, before_irrefl, Sender.gapsValid]

end

theorem achieves_handlePong {a : Association} (opened : Open a)
    (pinged : Pinged a.sender cwnd fragment) :
    Achieves Turn.Calm (handleSack (pong fragment.tsn) 0)
      (fun _ b => Open b ∧ Drained b.sender (a.sender.grownCwnd a.config 96)) a := by
  have drained : Drained (a.sender.applySack a.config (pong fragment.tsn) 0) _ := pinged.applySack
  have idle : (a.sender.applySack a.config (pong fragment.tsn) 0).pickUnsent = none := by
    refine pickUnsent_none fun fragment member => ?_
    rw [drained.tx] at member
    cases member
  refine .bind (.read ?_)
  rw [if_neg (by simp [pinged.sackIsValid.1])]
  refine .bind (.require (fun _ => ?_) fun wrong => wrong pinged.sackIsValid.2)
  refine .bind (.update ?_)
  refine .bind (.recovering (ensures_reliabilityService_empty _ (by exact drained.tx) ?_))
  refine .recovering (.bind (.read (.bind (.require ?_ ?_))))
  · intro _
    refine ensures_sendLoop_idle (by exact idle) ⟨?_, drained⟩ _
    exact { opened with }
  · exact fun busy => absurd opened.free busy

theorem achieves_pong (opened : Open a) (pinged : Pinged a.sender cwnd fragment) :
    Achieves Turn.Calm (inputPacket (packet [.sack (pong fragment.tsn)]) 0)
      (fun _ b => Open b ∧ Drained b.sender (a.sender.grownCwnd a.config 96)) a := by
  have ports : ¬((5000 : Nat) ≠ a.config.remotePort ∨ (5000 : Nat) ≠ a.config.localPort) := by
    rw [opened.config]
    decide
  refine .bind (achieves_validateOperation (by decide) opened.clock ?_)
  refine .bind (.read ?_)
  refine .bind (.require (fun _ => ?_) fun closed => closed ?_)
  · refine .bind (.require (fun _ => ?_) fun busy => busy opened.free)
    rw [if_neg (by exact ports)]
    refine .bind (.require (fun _ => ?_) fun empty => empty nofun)
    rw [if_neg (by exact fun foreign => foreign opened.tag.symm)]
    refine .bind (.require (fun _ => ?_) fun many => many (.inl rfl))
    have later : Open { a with lastNowMs := some 0 } :=
      ⟨opened.config, opened.state, Nat.le_refl _, opened.tag, opened.interleaving, opened.streams,
        opened.free⟩
    refine Achieves.recovering (.bind (.imp (achieves_handlePong later pinged) ?_))
    exact fun _ _ ready => .pure ready
  · simp only [id_eq, opened.state]
    decide

theorem round (reachable : Reachable (small .active) a) (opened : Open a)
    (drained : Drained a.sender cwnd) (room : 96 ≤ cwnd) :
    ∃ (fragment : TxFragment) (b c : Association), Reachable (small .active) b ∧
      b.sender.ackedBy (pong fragment.tsn) ≠ 0 ∧ b.sender.cwnd = cwnd ∧
      b.sender.ssthresh = uint32Max ∧ Reachable (small .active) c ∧ Open c ∧
      Drained c.sender (b.sender.grownCwnd (small .active) 96) := by
  obtain ⟨b, sent, opened', fragment, pinged⟩ :=
    reaches_of_achieves (achieves_ping opened (reachable.exact (small_valid .active)).2 drained
      room)
  have after : Reachable (small .active) b := .called (.send ping 0) reachable sent
  obtain ⟨c, acknowledged, ready⟩ := reaches_of_achieves (achieves_pong opened' pinged)
  rw [opened'.config] at ready
  refine ⟨fragment, b, c, after, ?_, pinged.cwnd, pinged.threshold,
    .called (.input (packet [.sack (pong fragment.tsn)]) 0) after acknowledged, ready⟩
  rw [pinged.ackedBy]
  decide

/-- After enough messages the window stands anywhere on the way to the top. -/
theorem climb (rounds : Nat) : ∃ a, Reachable (small .active) a ∧ Open a ∧
    Drained a.sender (min uint32Max (512 + rounds * 96)) := by
  induction rounds with
  | zero =>
    refine ⟨played true true 0 [], played_reachable true true 0 [], ?_, ?_⟩
    · exact ⟨rfl, rfl, by decide +kernel, rfl, rfl, by decide +kernel, rfl⟩
    · exact ⟨by decide +kernel, by decide +kernel, by decide +kernel, by decide +kernel,
        by decide +kernel, by decide +kernel⟩
  | succ rounds ih =>
    obtain ⟨a, reachable, opened, drained⟩ := ih
    by_cases top : uint32Max ≤ 512 + rounds * 96
    · refine ⟨a, reachable, opened, ?_⟩
      rw [Nat.min_eq_left (by omega)]
      rwa [Nat.min_eq_left top] at drained
    · obtain ⟨fragment, b, c, -, -, cwnd, threshold, reachable', opened', drained'⟩ :=
        round reachable opened drained (by simp only [uint32Max]; omega)
      refine ⟨c, reachable', opened', ?_⟩
      have slow : b.sender.cwnd < b.sender.ssthresh := by
        omega
      have grown : b.sender.grownCwnd (small .active) 96 =
          min uint32Max (512 + (rounds + 1) * 96) := by
        unfold Sender.grownCwnd
        rw [if_pos slow, cwnd]
        change (if 96 > uint32Max - min uint32Max (512 + rounds * 96) then uint32Max
          else min uint32Max (512 + rounds * 96) + 96) = _
        split <;> omega
      rwa [grown] at drained'

end Sample

/-- In an association that is reachable, a SACK that acknowledges a packet takes the window from its
largest value to nothing. -/
theorem window_wraps : ∃ (a b : Association) (tsn : Tsn),
    Reachable (Sample.small .active) a ∧ a.sender.ackedBy (Sample.pong tsn) ≠ 0 ∧
      a.sender.cwnd = uint32Max ∧ Reachable (Sample.small .active) b ∧ b.sender.cwnd = 0 := by
  obtain ⟨a, reachable, opened, drained⟩ := Sample.climb uint32Max
  obtain ⟨fragment, b, c, before, acked, cwnd, threshold, reachable', -, drained'⟩ :=
    Sample.round reachable opened drained (by decide)
  refine ⟨b, c, fragment.tsn, before, acked, cwnd, reachable', ?_⟩
  rw [drained'.cwnd]
  unfold Sender.grownCwnd
  rw [cwnd, threshold]
  decide

/-- The bound at an association that has just been opened and sends. -/
theorem window_floor_opened :
    let a := Sample.played true true 0 [Sample.calm (.send Sample.ping 0)]
    128 ≤ a.sender.cwnd ∧ a.sender.cwnd ≤ (a.sender.applySack a.config (Sample.pong 0) 0).cwnd := by
  have holds := window_floor (Sample.small_valid .active)
    (Sample.played_reachable true true 0 [Sample.calm (.send Sample.ping 0)])
  constructor
  · exact holds.1 (by decide +kernel)
  · exact (holds.2 (Sample.pong 0) 0 (by decide +kernel)).2 (by decide +kernel)

end Gizos.Sctp
