import Gizos.Sctp.State
import Mathlib.Logic.Function.Basic

/-! # The sending side

What `h2_sctp_reliability.c` and the queue of `h2_sctp_stream.c` do to the fragments that are to be
sent, between two calls of the surroundings.
-/
namespace Gizos.Sctp

open Serial

/-- The size of a DATA or I-DATA chunk before its payload. -/
def dataHeaderSize (interleaved : Bool) : Nat := if interleaved then 20 else 16

/-- How much payload fits a packet. -/
def Config.payloadSize (config : Config) (interleaved : Bool) : Nat :=
  config.maxPacketSize - commonHeaderSize - dataHeaderSize interleaved

/-- The number the next message of a stream gets. -/
def OutStream.identifier (stream : OutStream) (interleaved unordered : Bool) : BitVec 32 :=
  if interleaved then
    if unordered then stream.nextMidUnordered else stream.nextMidOrdered
  else stream.nextSsn.setWidth 32

/-- The counters after a message was queued. -/
def OutStream.advance (stream : OutStream) (interleaved unordered : Bool) : OutStream :=
  if interleaved then
    if unordered then { stream with nextMidUnordered := stream.nextMidUnordered + 1 }
    else { stream with nextMidOrdered := stream.nextMidOrdered + 1 }
  else { stream with nextSsn := stream.nextSsn + 1 }

/-- How many fragments a message of a length takes. -/
def fragmentCount (length size : Nat) : Nat :=
  length / size + if length % size ≠ 0 then 1 else 0

/-- The fragments of a message. -/
def fragmentsOf (message : Message) (messageId : Nat) (identifier : BitVec 32) (size now : Nat) :
    List TxFragment :=
  let count := fragmentCount message.data.length size
  (List.range count).map fun index =>
    let bytes := (message.data.drop (index * size)).take size
    { messageId, messageIdentifier := identifier, fragmentSequence := index,
      ppid := message.ppid, streamId := message.streamId,
      flags := { first := index = 0, last := index + 1 = count, unordered := message.unordered },
      reliability := message.reliability, submittedMs := now,
      dataLen := bytes.length, data := some bytes }

namespace TxFragment

/-- `h2_sctp_reliability_outlived`. -/
def outlived (fragment : TxFragment) (now : Nat) : Bool :=
  match fragment.reliability with
  | .reliable => false
  | .maxLifetimeMs lifetime =>
    decide (fragment.submittedMs ≤ now ∧ lifetime ≤ now - fragment.submittedMs)
  | .maxRetransmits count => decide (count ≤ fragment.retransmits)

/-- The chunk that carries a fragment. -/
def chunk (fragment : TxFragment) (interleaved : Bool) (payload : Bytes) : DataChunk where
  interleaved
  flags := fragment.flags
  tsn := fragment.tsn
  streamId := fragment.streamId
  messageIdentifier :=
    if interleaved then fragment.messageIdentifier
    else (fragment.messageIdentifier.setWidth 16).setWidth 32
  word :=
    if interleaved && !fragment.flags.first then fragment.fragmentSequence else fragment.ppid
  payload

/-- The TSN of a fragment is not past a point. -/
def upTo (fragment : TxFragment) (through : Tsn) : Bool :=
  fragment.tsnAssigned && !after fragment.tsn through

end TxFragment

/-- `h2_sctp_rtt_weighted_average`. -/
def weightedAverage (previous sample denominator : Nat) : Nat :=
  previous / denominator * (denominator - 1) + sample / denominator +
    (previous % denominator * (denominator - 1) + sample % denominator) / denominator

namespace Sender

variable (sender : Sender) (config : Config) (sack : SackChunk) (fragment : TxFragment)

/-- The end of `h2_sctp_stream_queue_message`: a message joins the queue. -/
def enqueue (interleaved : Bool) (size : Nat) (message : Message) (now : Nat) : Sender :=
  let stream := sender.outgoing message.streamId
  { sender with
    outgoing := Function.update sender.outgoing message.streamId
      (stream.advance interleaved message.unordered)
    nextMessageId := sender.nextMessageId + 1
    sendUsed := sender.sendUsed + message.data.length
    tx := sender.tx ++ fragmentsOf message sender.nextMessageId
      (stream.identifier interleaved message.unordered) size now
    accepted := sender.accepted ++ [message] }

/-- The retransmission timeout after a round trip was measured. -/
def measuredRto (srtt rttvar : Nat) : Nat :=
  if srtt ≥ rtoMaxMs ∨ rttvar ≥ rtoMaxMs / 4 then rtoMaxMs
  else max rtoMinMs (min rtoMaxMs (srtt + 4 * rttvar))

/-- `h2_sctp_reliability_sample_rtt`. -/
def sampleRtt (now : Nat) (sender : Sender) (fragment : TxFragment) : Sender :=
  match sender.rttSample with
  | none => sender
  | some (tsn, sentMs) =>
    if fragment.tsn ≠ tsn then sender
    else if now < sentMs then { sender with rttSample := none }
    else
      let sample := now - sentMs
      let delta := if sender.srttMs > sample then sender.srttMs - sample
        else sample - sender.srttMs
      let rttvar := if sender.rttInitialized then weightedAverage sender.rttvarMs delta 4
        else sample / 2
      let srtt := if sender.rttInitialized then weightedAverage sender.srttMs sample 8 else sample
      let rttvar := if rttvar = 0 then 1 else rttvar
      { sender with
        rttSample := none, rttInitialized := true, srttMs := srtt, rttvarMs := rttvar
        rtoMs := measuredRto srtt rttvar }

/-- The backoff of the retransmission timeout. -/
def backOff : Sender :=
  { sender with
    rtoMs := if sender.rtoMs < rtoMaxMs / 2 then sender.rtoMs * 2 else rtoMaxMs }

/-- `h2_sctp_reliability_limit`. -/
def limit : Nat :=
  if sender.peerReceiveWindow < sender.cwnd then sender.peerReceiveWindow else sender.cwnd

/-- `h2_sctp_reliability_reduced_ssthresh`. -/
def reducedSsthresh : Nat :=
  max (min uint32Max (config.maxPacketSize * 4)) (sender.cwnd / 2)

/-- `h2_sctp_reliability_one_packet`. -/
def onePacket : Nat := min uint32Max config.maxPacketSize

/-- The congestion window after data was acknowledged: slow start, or congestion avoidance. -/
def grownCwnd (acked : Nat) : Nat :=
  if sender.cwnd < sender.ssthresh then
    let increase := min acked config.maxPacketSize
    if increase > uint32Max - sender.cwnd then uint32Max else sender.cwnd + increase
  else if sender.cwnd ≠ 0 then
    let increase := config.maxPacketSize * config.maxPacketSize / sender.cwnd
    if increase > uint32Max - sender.cwnd then uint32Max
    else (sender.cwnd + if increase = 0 then 1 else increase) % 2 ^ 32
  else sender.cwnd

/-- The growth of the congestion window in `h2_sctp_reliability_handle_sack`. -/
def grow (acked : Nat) : Sender :=
  if acked = 0 then sender
  else
    { sender with
      cwnd := sender.grownCwnd config acked
      peak := max sender.peak sender.cwnd }

/-- The window response of `h2_sctp_reliability_fast_retransmit`, once a loss event. -/
def enterRecovery (exitTsn : Tsn) : Sender :=
  if sender.fastRecovery.isSome then sender
  else
    { sender with
      ssthresh := sender.reducedSsthresh config
      cwnd := sender.reducedSsthresh config
      fastRecovery := some exitTsn }

/-- The window response of `h2_sctp_reliability_service` to an expired timer. -/
def collapse : Sender :=
  { sender with
    ssthresh := sender.reducedSsthresh config
    cwnd := onePacket config
    fastRecovery := none }

/-- Gives back the bytes of a fragment that is settled; a counter that is too small stays. -/
def releaseBytes : Sender :=
  { sender with
    flightSize := if fragment.sent && decide (fragment.dataLen ≤ sender.flightSize) then
      sender.flightSize - fragment.dataLen else sender.flightSize
    sendUsed := if fragment.dataLen ≤ sender.sendUsed then sender.sendUsed - fragment.dataLen
      else sender.sendUsed }

/-- Gives up the pending round trip measurement of a TSN. -/
def forgetSample (tsn : Tsn) : Sender :=
  { sender with
    rttSample := if sender.rttSample.map Prod.fst = some tsn then none else sender.rttSample }

/-- A pass over the queue that settles the fragments it hits. -/
def settle (hit : TxFragment → Bool) (settled : TxFragment → TxFragment)
    (account : Sender → TxFragment → Sender) : Sender :=
  { (sender.tx.filter hit).foldl account sender with
    tx := sender.tx.map fun fragment => if hit fragment then settled fragment else fragment }

/-- What `h2_sctp_reliability_mark_acknowledged` does to the counters. -/
def accountAcknowledged : Sender :=
  (sender.forgetSample fragment.tsn).releaseBytes fragment

/-- What `h2_sctp_reliability_abandon_message` does to the counters for one fragment. -/
def accountAbandoned : Sender :=
  (if fragment.tsnAssigned then sender.forgetSample fragment.tsn else sender).releaseBytes fragment

/-- `h2_sctp_reliability_abandon_message`. -/
def abandonMessage (messageId : Nat) : Sender :=
  sender.settle (fun fragment => fragment.messageId = messageId && fragment.live)
    (fun fragment => { fragment with abandoned := true, data := none }) accountAbandoned

/-- `h2_sctp_reliability_prune`. -/
def prune (through : Tsn) : Sender :=
  { sender with
    tx := sender.tx.filter fun fragment => !(fragment.upTo through && !fragment.live) }

/-- The fragment after it was acknowledged; its payload is gone. -/
def acknowledged : TxFragment :=
  { fragment with acknowledged := true, data := none }

/-- How many TSNs are in use: those after the point that the peer has acknowledged, or after the one
that was announced to it. -/
def span : Nat :=
  max (offset (sender.peerCumulativeTsn + 1) sender.nextTsn)
    (offset (sender.advancedPeerAck + 1) sender.nextTsn)

/-- The record of the span is kept. -/
def measured : Sender :=
  { sender with widest := max sender.widest sender.span }

/-- `h2_sctp_reliability_acknowledge_through`. -/
def acknowledgeThrough (cumulative : Tsn) : Sender :=
  let sender := sender.settle (fun fragment => fragment.upTo cumulative && fragment.live)
    acknowledged accountAcknowledged
  ({ sender with
    peerCumulativeTsn := if after cumulative sender.peerCumulativeTsn then cumulative
      else sender.peerCumulativeTsn }.prune cumulative).measured

/-- The later of two TSNs. -/
def later (highest tsn : Tsn) : Tsn := if after tsn highest then tsn else highest

/-- The highest TSN that `h2_sctp_reliability_sack_is_valid` lets a SACK name. -/
def highestSent : Tsn :=
  ((sender.tx.filter fun fragment => fragment.tsnAssigned && fragment.sent).map
    TxFragment.tsn).foldl later (later sender.peerCumulativeTsn sender.advancedPeerAck)

/-- The check of the gap blocks, each after the end of the one before. -/
def gapsValid (cumulative highest : Tsn) : Nat → List (Nat × Nat) → Bool
  | _, [] => true
  | previousEnd, (first, last) :: rest =>
    decide (first ≠ 0 ∧ first ≤ last ∧ previousEnd < first) &&
      !after (cumulative + BitVec.ofNat 32 last) highest && gapsValid cumulative highest last rest

/-- `h2_sctp_reliability_sack_is_valid`. -/
def sackIsValid : Bool :=
  !after sack.cumulative sender.highestSent &&
    gapsValid sack.cumulative sender.highestSent 0 sack.gaps

/-- `h2_sctp_reliability_tsn_in_gap`. -/
def tsnInGap (tsn : Tsn) : Bool :=
  sack.gaps.any fun gap =>
    !before tsn (sack.cumulative + BitVec.ofNat 32 gap.1) &&
      !after tsn (sack.cumulative + BitVec.ofNat 32 gap.2)

/-- A fragment that a SACK acknowledges for the first time. -/
def newlyAcknowledged : Bool :=
  fragment.tsnAssigned && fragment.live &&
    (!after fragment.tsn sack.cumulative || tsnInGap sack fragment.tsn)

/-- A fragment below the highest TSN that was newly acknowledged counts a miss. -/
def countMiss (highest : Tsn) (fragment : TxFragment) : TxFragment :=
  if fragment.outstanding && before fragment.tsn highest then
    { fragment with
      missReports := fragment.missReports + 1
      fastRetransmit := fragment.fastRetransmit || decide (3 ≤ fragment.missReports + 1) }
  else fragment

/-- The pass of `h2_sctp_reliability_handle_sack` over what a SACK acknowledges. -/
def takeSack (now : Nat) : Sender :=
  { sender with peerReceiveWindow := sack.window }.settle (newlyAcknowledged sack) acknowledged
    fun sender fragment => (sender.sampleRtt now fragment).accountAcknowledged fragment

/-- The rest of the queue counts its misses, and the cumulative points move. -/
def moveCumulative (cumulative highest : Tsn) : Sender :=
  ({ sender with
    fastRecovery := sender.fastRecovery.filter fun exitTsn => before cumulative exitTsn
    tx := sender.tx.map (countMiss highest)
    peerCumulativeTsn := later sender.peerCumulativeTsn cumulative
    advancedPeerAck := later sender.advancedPeerAck cumulative }.prune cumulative).measured

/-- The part of `h2_sctp_reliability_handle_sack` before anything is sent. -/
def applySack (now : Nat) : Sender :=
  let hits := sender.tx.filter (newlyAcknowledged sack)
  let highest := (hits.map TxFragment.tsn).foldl later sack.cumulative
  let acked := (hits.map TxFragment.dataLen).sum
  ((sender.takeSack sack now).moveCumulative sack.cumulative highest).grow config acked

/-- The streams with fragments that wait to be sent. -/
def waitingStreams : List Nat :=
  (sender.tx.filter TxFragment.waiting).map TxFragment.streamId

/-- The stream whose turn it is: the next one above the last one served, or the lowest. -/
def selectStream : Option Nat :=
  (sender.waitingStreams.filter fun id => sender.lastScheduledStream < id).min? <|>
    sender.waitingStreams.min?

/-- `h2_sctp_reliability_pick_unsent`, as a position in the queue. -/
def pickUnsent : Option Nat :=
  sender.selectStream.bind fun id =>
    sender.tx.findIdx? fun fragment => fragment.waiting && fragment.streamId = id

/-- A fragment gets the next TSN when it is first put into a packet. -/
def assignTsn (index : Nat) : Sender :=
  match sender.tx[index]? with
  | some fragment =>
    if fragment.tsnAssigned then sender
    else
      { sender with
        nextTsn := sender.nextTsn + 1
        tx := sender.tx.modify index fun fragment =>
          { fragment with tsn := sender.nextTsn, tsnAssigned := true }
        assigned := sender.assigned ++
          [{ fragment with tsn := sender.nextTsn, tsnAssigned := true }] }.measured
  | none => sender

/-- The fragment after a packet with it was taken or retained. -/
def emitted (now : Nat) (retransmission : Bool) (fragment : TxFragment) : TxFragment :=
  { fragment with
    sent := true, sentMs := now, missReports := 0, fastRetransmit := false
    retransmits := if retransmission then fragment.retransmits + 1 else fragment.retransmits }

/-- The fragment that has got a TSN. -/
def numbered : TxFragment :=
  if fragment.tsnAssigned then fragment
  else { fragment with tsn := sender.nextTsn, tsnAssigned := true }

/-- The end of `h2_sctp_reliability_emit_fragment`; `taken` says that the packet was not
retained. -/
def markSent (index : Nat) (now : Nat) (retransmission taken : Bool) : Sender :=
  match sender.tx[index]? with
  | none => sender
  | some fragment =>
    { sender with
      flightSize := if fragment.sent then sender.flightSize
        else sender.flightSize + fragment.dataLen
      tx := sender.tx.modify index (emitted now retransmission)
      rttSample :=
        if retransmission then
          sender.rttSample.filter fun sample => after fragment.tsn sample.1
        else if taken && sender.rttSample.isNone then some (fragment.tsn, now)
        else sender.rttSample
      sendings := sender.sendings ++ [{ tsn := fragment.tsn, sentMs := now, retransmission }] }

/-- The last TSN that is outstanding, and at least the cumulative point. -/
def exitTsn : Tsn :=
  ((sender.tx.filter TxFragment.outstanding).map TxFragment.tsn).foldl later
    sender.peerCumulativeTsn

/-- The walk of `h2_sctp_reliability_advance_abandoned`. -/
def walkAbandoned : Nat → Tsn → Bool → Tsn × Bool
  | 0, advanced, included => (advanced, included)
  | fuel + 1, advanced, included =>
    match sender.tx.find? fun fragment =>
        fragment.tsnAssigned && fragment.tsn = advanced + 1 with
    | none => (advanced, included)
    | some fragment =>
      if fragment.live then (advanced, included)
      else walkAbandoned fuel (advanced + 1) (included || fragment.abandoned)

/-- How far the cumulative point of the peer can be moved, and whether that passes anything
abandoned. -/
def advanced : Tsn × Bool :=
  sender.walkAbandoned sender.tx.length sender.peerCumulativeTsn false

/-- The chunk of `h2_sctp_reliability_emit_forward_tsn`: one entry, for the last abandoned fragment
in the queue. -/
def forwardChunk (interleaved : Bool) (newCumulative : Tsn) : ForwardChunk where
  interleaved
  newCumulative
  entries :=
    match (sender.tx.filter fun fragment =>
        fragment.abandoned && fragment.upTo newCumulative).getLast? with
    | none => []
    | some representative =>
      [{ streamId := representative.streamId
         unordered := interleaved && representative.flags.unordered
         identifier := if interleaved then representative.messageIdentifier
           else (representative.messageIdentifier.setWidth 16).setWidth 32 }]

/-- The cumulative point that was announced to the peer, and the fragments behind it are dropped. -/
def advanceTo (advanced : Tsn) : Sender :=
  { sender with advancedPeerAck := advanced }.prune advanced

variable {index : Nat} {fragment : TxFragment}

/-- Two sending sides that differ in their byte counters and their round trip measurement. -/
def Recounted (sender other : Sender) : Prop :=
  ∃ flightSize sendUsed rtoMs srttMs rttvarMs rttInitialized rttSample,
    other = { sender with
      flightSize, sendUsed, rtoMs, srttMs, rttvarMs, rttInitialized, rttSample }

theorem Recounted.refl : sender.Recounted sender :=
  ⟨_, _, _, _, _, _, _, rfl⟩

theorem Recounted.trans {first second third : Sender} (left : first.Recounted second)
    (right : second.Recounted third) : first.Recounted third := by
  obtain ⟨_, _, _, _, _, _, _, rfl⟩ := left
  obtain ⟨_, _, _, _, _, _, _, rfl⟩ := right
  exact ⟨_, _, _, _, _, _, _, rfl⟩

theorem recounted_acknowledged (fragment : TxFragment) :
    sender.Recounted (sender.accountAcknowledged fragment) :=
  ⟨_, _, _, _, _, _, _, rfl⟩

theorem recounted_abandoned (fragment : TxFragment) :
    sender.Recounted (sender.accountAbandoned fragment) := by
  unfold accountAbandoned
  split <;> exact ⟨_, _, _, _, _, _, _, rfl⟩

theorem recounted_sampled (now : Nat) (sender : Sender) (fragment : TxFragment) :
    sender.Recounted ((sender.sampleRtt now fragment).accountAcknowledged fragment) := by
  refine Recounted.trans ?_ (recounted_acknowledged _ fragment)
  unfold sampleRtt
  split
  · exact .refl sender
  · split
    · exact .refl sender
    · split <;> exact ⟨_, _, _, _, _, _, _, rfl⟩

/-- A pass over the queue changes the counters and the fragments it hits, and nothing else. -/
theorem settle_recounted {account : Sender → TxFragment → Sender}
    (accounts : ∀ (sender : Sender) fragment, sender.Recounted (account sender fragment))
    (hit : TxFragment → Bool) (settled : TxFragment → TxFragment) (sender : Sender) :
    Recounted { sender with
      tx := sender.tx.map fun fragment => if hit fragment then settled fragment else fragment }
      (sender.settle hit settled account) := by
  have folded : ∀ (hits : List TxFragment) (start : Sender), sender.Recounted start →
      sender.Recounted (hits.foldl account start) := by
    intro hits
    induction hits with
    | nil => exact fun _ => id
    | cons fragment rest ih =>
      exact fun start counted => ih _ (counted.trans (accounts start fragment))
  obtain ⟨_, _, _, _, _, _, _, same⟩ := folded (sender.tx.filter hit) sender (.refl sender)
  unfold settle
  rw [same]
  exact ⟨_, _, _, _, _, _, _, rfl⟩

/-- What a SACK does to the sending side before the window grows. -/
theorem takeSack_recounted (now : Nat) :
    Recounted { sender with
      peerReceiveWindow := sack.window
      tx := sender.tx.map fun fragment =>
        if newlyAcknowledged sack fragment then acknowledged fragment else fragment }
      (sender.takeSack sack now) :=
  settle_recounted (recounted_sampled now) _ _ { sender with peerReceiveWindow := sack.window }

theorem abandonMessage_recounted (messageId : Nat) :
    Recounted { sender with
      tx := sender.tx.map fun fragment =>
        if fragment.messageId = messageId && fragment.live then
          { fragment with abandoned := true, data := none }
        else fragment } (sender.abandonMessage messageId) :=
  settle_recounted recounted_abandoned _ _ sender

/-- Growth touches the congestion window alone. -/
theorem grow_eq (acked : Nat) :
    ∃ cwnd peak, sender.grow config acked = { sender with cwnd, peak } := by
  unfold grow
  split
  · exact ⟨sender.cwnd, sender.peak, rfl⟩
  · exact ⟨_, _, rfl⟩

theorem applySack_eq (now : Nat) :
    ∃ highest cwnd peak, sender.applySack config sack now =
      { (sender.takeSack sack now).moveCumulative sack.cumulative highest with cwnd, peak } :=
  ⟨_, grow_eq _ config _⟩

/-- A loss event touches the congestion window and its threshold alone. -/
theorem enterRecovery_eq (exitTsn : Tsn) :
    ∃ cwnd ssthresh fastRecovery, sender.enterRecovery config exitTsn =
      { sender with cwnd, ssthresh, fastRecovery } := by
  unfold enterRecovery
  split
  · exact ⟨sender.cwnd, sender.ssthresh, sender.fastRecovery, rfl⟩
  · exact ⟨_, _, _, rfl⟩

variable {sender}

/-- The fragment that is picked waits to be sent. -/
theorem pickUnsent_some (picked : sender.pickUnsent = some index) :
    ∃ fragment, sender.tx[index]? = some fragment ∧ fragment.waiting = true := by
  obtain ⟨id, -, found⟩ := Option.bind_eq_some_iff.1 picked
  obtain ⟨bound, hit, _⟩ := List.findIdx?_eq_some_iff_getElem.1 found
  simp only [Bool.and_eq_true, decide_eq_true_eq] at hit
  exact ⟨sender.tx[index], List.getElem?_eq_getElem bound, hit.1⟩

theorem getElem?_assignTsn (present : sender.tx[index]? = some fragment) :
    (sender.assignTsn index).tx[index]? = some (sender.numbered fragment) := by
  unfold assignTsn numbered
  by_cases assigned : fragment.tsnAssigned = true
  · simp only [assigned, if_true, present]
  · simp only [assigned, Bool.false_eq_true, if_false, measured, List.getElem?_modify_eq, present,
      Option.map_eq_map, Option.map_some]

theorem numbered_eq : ∃ tsn, sender.numbered fragment =
    { fragment with tsn, tsnAssigned := true } := by
  unfold numbered
  split
  · rename_i assigned
    exact ⟨fragment.tsn, by rw [← assigned]⟩
  · exact ⟨_, rfl⟩

end Sender

end Gizos.Sctp
