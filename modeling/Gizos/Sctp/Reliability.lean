import Gizos.Sctp.Link

/-! # Sending, acknowledging and giving up

The routines of `h2_sctp_reliability.c` that send packets, those of the service call with the
deadline that they are given and return.
-/
namespace Gizos.Sctp

open Fault Fault.Program Pal Serial

/-- A length rounded up to a multiple of four. -/
def padded (length : Nat) : Nat := (length + 3) / 4 * 4

/-- The chunk with a fragment fits a packet. -/
def Config.fits (config : Config) (interleaved : Bool) (length : Nat) : Bool :=
  padded (dataHeaderSize interleaved + length) ≤ config.maxPacketSize - commonHeaderSize

/-- Runs a change whether a packet was taken or retained, and reports which it was. -/
def whenEmitted (body : Op Unit) (change : Bool → Op Unit) : Op Unit := do
  let result ← attempt body
  match result with
  | .ok () => change true
  | .error code =>
    if code = errWouldBlock then do
      change false
      fail errWouldBlock
    else fail code

/-- The packet with the fragment at a position of the queue. -/
def Association.fragmentPacket (association : Association) (index : Nat) (payload : Bytes) :
    Option Packet :=
  association.sender.tx[index]?.map fun fragment =>
    association.packetOf association.peer.verificationTag
      (.data (fragment.chunk association.peer.interleaving payload))

/-- `h2_sctp_reliability_emit_fragment`, for the fragment at a position of the queue. -/
def emitFragment (index now : Nat) (retransmission : Bool) : Op Unit := do
  let association ← read id
  match association.sender.tx[index]?.bind fun fragment =>
      fragment.data.map fun payload => (fragment, payload) with
  | none => fail errInvalidState
  | some (fragment, payload) => do
    require (association.config.fits association.peer.interleaving fragment.dataLen = true)
      errInvalidState
    require (association.link.pendingEmit = none) errWouldBlock
    updateSender fun sender => sender.assignTsn index
    let packet ← read fun association => association.fragmentPacket index payload
    match packet with
    | none => fail errInvalidState
    | some packet =>
      whenEmitted (emitPacket packet none now) fun taken =>
        updateSender fun sender => sender.markSent index now retransmission taken

/-- The loop of `h2_sctp_reliability_send_pending`. -/
def sendLoop (limit now : Nat) : Nat → Op Unit
  | 0 => pure ()
  | fuel + 1 => do
    let sender ← read Association.sender
    match sender.pickUnsent.bind fun index => sender.tx[index]?.map fun fragment =>
        (index, fragment) with
    | none => pure ()
    | some (index, fragment) =>
      if limit < fragment.dataLen ∨ limit - fragment.dataLen < sender.flightSize then pure ()
      else do
        emitFragment index now false
        updateSender fun sender => { sender with lastScheduledStream := fragment.streamId }
        sendLoop limit now fuel

/-- `h2_sctp_reliability_send_pending`. Each turn of the loop sends one fragment for the first time,
so the length of the queue bounds it. -/
def sendPending (now : Nat) : Op Unit := do
  let association ← read id
  require (association.link.pendingEmit = none) errWouldBlock
  sendLoop association.sender.limit now (association.sender.tx.length + 1)

/-- The second loop of `h2_sctp_reliability_fast_retransmit`, from a position of the queue on. -/
def retransmitMarked (now : Nat) : Nat → Nat → Op Unit
  | _, 0 => pure ()
  | index, count + 1 => do
    let association ← read id
    match association.sender.tx[index]? with
    | none => pure ()
    | some fragment =>
      if !(fragment.fastRetransmit && fragment.outstanding) then
        retransmitMarked now (index + 1) count
      else if fragment.outlived now then do
        updateSender fun sender =>
          { sender with
            tx := sender.tx.modify index fun fragment =>
              { fragment with fastRetransmit := false } }.abandonMessage fragment.messageId
        retransmitMarked now (index + 1) count
      else do
        require (association.link.pendingEmit = none) errWouldBlock
        emitFragment index now true
        retransmitMarked now (index + 1) count

/-- `h2_sctp_reliability_fast_retransmit`. -/
def fastRetransmit (now : Nat) : Op Unit := do
  let association ← read id
  let sender := association.sender
  if sender.tx.any fun fragment => fragment.outstanding && fragment.fastRetransmit then do
    updateSender fun sender => sender.enterRecovery association.config sender.exitTsn
    retransmitMarked now 0 sender.tx.length
  else pure ()

/-- The comparison of `h2_sctp_reliability_service` and `h2_sctp_reliability_service_sack`. -/
def sooner (candidate deadline : Nat) : Nat :=
  if deadline = noDeadline ∨ candidate < deadline then candidate else deadline

/-- The loop of `h2_sctp_reliability_service`, from a position of the queue on. The timer expiry is
one loss event; `answered` says that the window has collapsed and the timeout is backed off. A
fragment that is sent once more leaves the deadline as it is. -/
def expireLoop (rto now : Nat) : Nat → Nat → Bool → Nat → Op Nat
  | _, 0, _, deadline => pure deadline
  | index, count + 1, answered, deadline => do
    let association ← read id
    match association.sender.tx[index]? with
    | none => pure deadline
    | some fragment =>
      if !fragment.outstanding then expireLoop rto now (index + 1) count answered deadline
      else if fragment.fastRetransmit then expireLoop rto now (index + 1) count answered now
      else if now < deadlineAdd fragment.sentMs rto then
        expireLoop rto now (index + 1) count answered
          (sooner (deadlineAdd fragment.sentMs rto) deadline)
      else if fragment.outlived now then do
        updateSender fun sender => sender.abandonMessage fragment.messageId
        expireLoop rto now (index + 1) count answered deadline
      else if association.link.pendingEmit.isSome then pure now
      else do
        onlyIf (!answered) (updateSender fun sender => sender.collapse association.config)
        let result ← attempt (emitFragment index now true)
        match result with
        | .ok () => do
          onlyIf (!answered) (updateSender Sender.backOff)
          expireLoop rto now (index + 1) count true deadline
        | .error code => do
          require (code = errWouldBlock) code
          onlyIf (!answered) (updateSender Sender.backOff)
          pure now

/-- `h2_sctp_reliability_advance_abandoned`. -/
def advanceAbandoned (now : Nat) : Op Unit := do
  let association ← read id
  let sender := association.sender
  let (advanced, included) := sender.advanced
  if included && after advanced sender.advancedPeerAck then
    whenEmitted
      (emitToPeer (.forwardTsn (sender.forwardChunk association.peer.interleaving advanced)) none
        now)
      fun _ => updateSender fun sender => sender.advanceTo advanced
  else pure ()

/-- `h2_sctp_reliability_service`. If it fails with `errWouldBlock`, it has set the deadline to the
present. -/
def reliabilityService (now deadline : Nat) : Op Nat := do
  let rto ← read fun association => association.sender.rtoMs
  let deadline ← orElse [errWouldBlock, errNoMemory] now (do fastRetransmit now; pure deadline)
  let count ← read fun association => association.sender.tx.length
  let deadline ← expireLoop rto now 0 count false deadline
  advanceAbandoned now
  pure deadline

/-- `h2_sctp_reliability_handle_sack`. -/
def handleSack (sack : SackChunk) (now : Nat) : Op Unit := do
  let association ← read id
  if before sack.cumulative association.sender.peerCumulativeTsn then pure ()
  else do
    require (association.sender.sackIsValid sack = true) errFormat
    updateSender fun sender => sender.applySack association.config sack now
    let _ ← orElse [errWouldBlock, errNoMemory] noDeadline (reliabilityService now noDeadline)
    tolerating [errWouldBlock, errNoMemory] (sendPending now)

/-- `h2_sctp_reliability_send_sack`. -/
def sendSack (now : Nat) : Op Unit := do
  let association ← read id
  let result ← attempt
    (emitToPeer (.sack (association.receiver.sackChunk association.config)) none now)
  let emitted : Bool := match result with
    | .ok () => true
    | .error code => code = errWouldBlock
  onlyIf (association.link.pendingEmit.isNone && emitted)
    (updateReceiver fun receiver =>
      { receiver with sackPendingPackets := 0, sackDeadlineMs := noDeadline })
  conclude result

/-- `h2_sctp_reliability_note_data`. -/
def noteData (now : Nat) (immediate : Bool) : Op Unit := do
  updateReceiver fun receiver =>
    { receiver with
      sackPendingPackets := min 255 (receiver.sackPendingPackets + 1)
      sackDeadlineMs := if receiver.sackDeadlineMs = noDeadline then deadlineAdd now 20
        else receiver.sackDeadlineMs }
  let association ← read id
  if !immediate && decide (association.receiver.sackPendingPackets < 2) then pure ()
  else do
    updateReceiver fun receiver => { receiver with sackDeadlineMs := now }
    if association.link.pendingEmit.isSome then pure () else sendSack now

/-- `h2_sctp_reliability_service_sack`. -/
def serviceSack (now deadline : Nat) : Op Nat := do
  let association ← read id
  let receiver := association.receiver
  if receiver.sackPendingPackets = 0 ∨ receiver.sackDeadlineMs = noDeadline then pure deadline
  else if now < receiver.sackDeadlineMs then pure (sooner receiver.sackDeadlineMs deadline)
  else if association.link.pendingEmit.isSome = true then pure now
  else orElse [errNoMemory] now (do sendSack now; pure deadline)

end Gizos.Sctp
