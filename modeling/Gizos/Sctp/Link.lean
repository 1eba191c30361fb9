import Gizos.Sctp.Receiver
import Gizos.Sctp.Sender

/-! # Calls of the surroundings

Memory, the transport that takes packets, the consumer that takes messages, and the random source.
A packet that the transport refuses for now is retained, and nothing else leaves before it.
-/
namespace Gizos.Sctp

open Fault Fault.Program Pal

/-- Memory for a copy or a record. -/
def allocate : Op Bool := call fun turn association => .returns turn.granted association

/-- A number of bytes from the random source. -/
def random (count : Nat) : Op Bytes := call fun turn association =>
  if turn.code = 0 then
    .returns ((turn.random ++ List.replicate count 0).take count) association
  else .fails turn.code association

/-- `h2_sctp_invoke_emit`. -/
def invokeEmit (packet : Packet) : Op Int := call fun turn association =>
  .returns turn.code
    (if turn.code = 0 then
      { association with
        link := { association.link with wire := association.link.wire ++ [packet] } }
    else association)

/-- `h2_sctp_notify_message`; a message that the consumer takes is on record. -/
def notifyMessage (message : Received) : Op Unit := call fun turn association =>
  if turn.code = 0 then
    .returns () { association with
      receiver := { association.receiver with inbox := association.receiver.inbox ++ [message] } }
  else .fails turn.code association

/-- Runs a routine and goes on with a value where it fails with one of some codes. -/
def orElse {α : Type} (codes : List Int) (value : α) (body : Op α) : Op α :=
  body.recovering fun code => if code ∈ codes then ret value else fail code

/-- Results that a caller takes for success. -/
def tolerating (codes : List Int) (body : Op Unit) : Op Unit := orElse codes () body

namespace Association

variable (association : Association)

/-- `h2_sctp_clear_control`. -/
def clearControl : Association :=
  { association with link := { association.link with control := none } }

/-- `h2_sctp_notify_state`. -/
def notifyState (state : State) : Association :=
  { association with state }

/-- `h2_sctp_fail`. -/
def failed : Association :=
  if association.state = .failed ∨ association.state = .closed then association
  else association.clearControl.notifyState .failed

/-- A control packet is kept until it is answered. -/
def setControl (packet : Packet) (kind : ControlKind) (now : Nat) : Association :=
  { association with
    link := { association.link with
      control := some { packet, kind, deadlineMs := deadlineAdd now association.sender.rtoMs } } }

/-- A packet that the transport has refused. -/
def retain (packet : Packet) : Association :=
  { association with link := { association.link with pendingEmit := some packet } }

/-- Nothing is retained any more. -/
def release : Association :=
  { association with link := { association.link with pendingEmit := none } }

/-- A packet to the peer. -/
def packetOf (tag : BitVec 32) (chunk : Chunk) : Packet where
  sourcePort := association.config.localPort
  destinationPort := association.config.remotePort
  verificationTag := tag
  chunks := [chunk]

/-- The sending side after a change. -/
def mapSender (change : Sender → Sender) : Association :=
  { association with sender := change association.sender }

/-- The receiving side after a change. -/
def mapReceiver (change : Receiver → Receiver) : Association :=
  { association with receiver := change association.receiver }

end Association

/-- A change of the sending side. -/
def updateSender (change : Sender → Sender) : Op Unit :=
  update fun association => association.mapSender change

/-- A change of the receiving side. -/
def updateReceiver (change : Receiver → Receiver) : Op Unit :=
  update fun association => association.mapReceiver change

/-- `h2_sctp_emit_packet`. -/
def emitPacket (packet : Packet) (kind : Option ControlKind) (now : Nat) : Op Unit := do
  let busy ← read fun association => association.link.pendingEmit.isSome
  require (busy = false) errWouldBlock
  match kind with
  | none => pure ()
  | some kind => do
    let granted ← allocate
    require (granted = true) errNoMemory
    update fun association => association.setControl packet kind now
  let code ← invokeEmit packet
  if code = errWouldBlock then do
    update fun association => association.retain packet
    fail errWouldBlock
  else if code = 0 then pure ()
  else do
    update Association.failed
    fail code

/-- `h2_sctp_emit_chunks`, for a chunk that fits every packet. -/
def emitChunk (tag : BitVec 32) (chunk : Chunk) (kind : Option ControlKind) (now : Nat) :
    Op Unit := do
  let packet ← read fun association => association.packetOf tag chunk
  emitPacket packet kind now

/-- A chunk to the peer, with the tag it has asked for. -/
def emitToPeer (chunk : Chunk) (kind : Option ControlKind) (now : Nat) : Op Unit := do
  let tag ← read fun association => association.peer.verificationTag
  emitChunk tag chunk kind now

/-- `h2_sctp_retry_pending_emit`. -/
def retryPendingEmit : Op Unit := do
  let pending ← read fun association => association.link.pendingEmit
  match pending with
  | none => pure ()
  | some packet => do
    let code ← invokeEmit packet
    require (code ≠ errWouldBlock) errWouldBlock
    update Association.release
    if code = 0 then pure ()
    else do
      update Association.failed
      fail code

/-- `h2_sctp_stream_get_or_create`: a stream that is new takes memory. -/
def getOrCreate (streamId : Nat) : Op Bool := do
  let known ← read fun association => decide (streamId ∈ association.known)
  if known then pure true
  else do
    let granted ← allocate
    if granted then do
      update fun association => { association with known := streamId :: association.known }
      pure true
    else pure false

/-- `h2_sctp_validate_operation`. -/
def validateOperation (now : Nat) : Op Unit := do
  require (now < noDeadline) errInvalidArg
  let last ← read Association.lastNowMs
  require (last.getD 0 ≤ now) errInvalidArg
  update fun association => { association with lastNowMs := some now }

end Gizos.Sctp
