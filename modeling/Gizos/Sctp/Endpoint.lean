import Gizos.Sctp.Handshake

/-! # The calls of an association

The operations of the provider: packets come in, time passes, messages are sent, streams are reset
and the association is closed. A run of an association is any sequence of such calls, whatever the
surroundings answer.
-/
namespace Gizos.Sctp

open Fault Fault.Program Pal Serial

/-- `h2_sctp_association_dispatch_chunk`. -/
def dispatchChunk (now : Nat) : Chunk → Op Unit
  | .init values => handleInit values now
  | .initAck values => handleInitAck values now
  | .cookieEcho cookie => handleCookieEcho cookie now
  | .cookieAck => handleCookieAck now
  | .data chunk => do
    let state ← read Association.state
    if state ≠ .connected ∧ state ≠ .shuttingDown then pure () else handleData chunk now
  | .sack chunk => handleSack chunk now
  | .forwardTsn chunk => handleForwardTsn chunk now
  | .reconfig parameters => handleReconfig now parameters
  | .heartbeat info => handleHeartbeat info now
  | .heartbeatAck => update fun association =>
      { association with heartbeatDeadlineMs := deadlineAdd now heartbeatIntervalMs }
  | .shutdown cumulative => handleShutdown cumulative now
  | .shutdownAck => handleShutdownAck now
  | .shutdownComplete => update fun association =>
      if association.state = .shuttingDown then association.notifyState .closed else association
  | .abort => update Association.failed
  | .unknown stops => if stops then fail exit else pure ()
  | .malformed code => fail code

/-- The second loop of `h2_sctp_association_input_impl`. -/
def dispatchChunks (now : Nat) : List Chunk → Op Unit
  | [] => pure ()
  | chunk :: rest => do
    dispatchChunk now chunk
    dispatchChunks now rest

/-- A chunk that has to be alone in its packet. -/
def Chunk.lonely : Chunk → Bool
  | .init _ => true
  | .initAck _ => true
  | _ => false

/-- The packet begins with an INIT chunk. -/
def Packet.startsWithInit (packet : Packet) : Bool :=
  match packet.chunks with
  | .init _ :: _ => true
  | _ => false

/-- `h2_sctp_association_input_impl`. -/
def inputPacket (packet : Packet) (now : Nat) : Op Unit := do
  validateOperation now
  let association ← read id
  require (association.state ≠ .closed ∧ association.state ≠ .failed) errClosed
  require (association.link.pendingEmit = none) errWouldBlock
  if packet.sourcePort ≠ association.config.remotePort ∨
      packet.destinationPort ≠ association.config.localPort then pure ()
  else do
    require (packet.chunks ≠ []) errTruncated
    if packet.verificationTag ≠
        (if packet.startsWithInit then 0 else association.localVerificationTag) then pure ()
    else do
      require (packet.chunks.length = 1 ∨ packet.chunks.all (fun chunk => !chunk.lonely) = true)
        errFormat
      tolerating [exit] (dispatchChunks now packet.chunks)

/-- `h2_sctp_association_start_impl`. -/
def start (now : Nat) : Op Unit := do
  validateOperation now
  let association ← read id
  require (association.state = .new) errInvalidState
  update fun association => association.notifyState .connecting
  if association.config.role = .passive then pure ()
  else
    (sendInit now).recovering fun code =>
      if code = errWouldBlock then pure ()
      else do
        update Association.failed
        fail code

/-- `h2_sctp_vtable_association_send_message`, with the checks of its wrapper. -/
def sendMessage (message : Message) (now : Nat) : Op Unit := do
  require (message.data ≠ []) errInvalidArg
  validateOperation now
  let association ← read id
  require (association.state = .connected) errInvalidState
  require (message.streamId < association.peer.outboundStreams ∧
    message.data.length ≤ association.config.maxMessageSize) errInvalidArg
  require (association.peer.interleaving = true ∨ message.data.length ≤ 16 * 1024) errUnsupported
  queueMessage message now
  tolerating [errWouldBlock] (sendPending now)

namespace Sender

/-- The stream waits for the answer to a reset request, or does not any more. -/
def setResetPending (sender : Sender) (streamId : Nat) (pending : Bool) : Sender :=
  { sender with
    outgoing := Function.update sender.outgoing streamId
      { sender.outgoing streamId with
        resetPending := pending, resetRequestSequence := sender.nextResetSequence } }

/-- A reset request is made. -/
def requestReset (sender : Sender) (streamId : Nat) : Sender :=
  { sender.setResetPending streamId true with
    requests := sender.requests ++
      [{ streamId, sequence := sender.nextResetSequence, lastTsn := sender.nextTsn - 1
         queued := sender.accepted.length }] }

/-- The request could not be sent. -/
def withdrawReset (sender : Sender) (streamId : Nat) : Sender :=
  { sender.setResetPending streamId false with requests := sender.requests.dropLast }

end Sender

/-- `h2_sctp_association_reset_stream_impl`. -/
def resetStream (streamId now : Nat) : Op Unit := do
  validateOperation now
  let association ← read id
  require (association.state = .connected) errInvalidState
  require (association.peer.streamReset = true) errUnsupported
  require (streamId < association.peer.outboundStreams) errInvalidArg
  require (association.link.pendingEmit = none) errWouldBlock
  require (association.link.control = none) errBusy
  let stream ← getOrCreate streamId
  require (stream = true) errNoMemory
  let sender ← read Association.sender
  require ((sender.outgoing streamId).resetPending = false) errBusy
  updateSender fun sender => sender.requestReset streamId
  let result ← attempt (emitToPeer
    (.reconfig [.outgoing sender.nextResetSequence (sender.nextTsn - 1) [streamId]])
    (some .reset) now)
  match result with
  | .ok () => updateSender fun sender =>
      { sender with nextResetSequence := sender.nextResetSequence + 1 }
  | .error code =>
    if code = errWouldBlock then updateSender fun sender =>
      { sender with nextResetSequence := sender.nextResetSequence + 1 }
    else do
      updateSender fun sender => sender.withdrawReset streamId
      fail code

/-- `h2_sctp_association_shutdown_impl`. -/
def shutdown (now : Nat) : Op Unit := do
  validateOperation now
  let association ← read id
  require (association.state = .connected) errInvalidState
  if association.sender.sendUsed = 0 then do
    sendShutdown now
    update fun association => association.notifyState .shuttingDown
  else
    update fun association =>
      { association with shutdownPending := true }.notifyState .shuttingDown

/-- `h2_sctp_association_abort_impl`. -/
def abort (now : Nat) : Op Unit := do
  validateOperation now
  let association ← read id
  require (association.state ≠ .closed ∧ association.state ≠ .failed) errClosed
  tolerating [errWouldBlock] (emitToPeer .abort none now)
  update Association.failed

/-- `h2_sctp_timer_emit_saved_control`. -/
def emitSavedControl (packet : Packet) : Op Int := do
  let code ← invokeEmit packet
  onlyIf (code ≠ 0 && code ≠ errWouldBlock) (update Association.failed)
  pure code

/-- The retries of a control packet that are used up, and their limit. -/
def Control.spent (control : Control) : Bool :=
  if control.resetInProgress then 10 ≤ control.resetRetries else 5 ≤ control.retries

/-- The control packet was sent once more. -/
def Association.repeatedControl (association : Association) (control : Control) (now : Nat) :
    Association :=
  let sender := association.sender.backOff
  { association with
    sender
    link := { association.link with
      control := some
        { control with
          resetRetries := if control.resetInProgress then control.resetRetries + 1
            else control.resetRetries
          retries := if control.resetInProgress then control.retries else control.retries + 1
          deadlineMs := deadlineAdd now sender.rtoMs } } }

/-- `h2_sctp_timer_min_deadline`. -/
def minDeadline (candidate deadline : Nat) : Nat :=
  if candidate ≠ noDeadline ∧ (deadline = noDeadline ∨ candidate < deadline) then candidate
  else deadline

/-- `h2_sctp_timer_service_control`. -/
def serviceControl (now deadline : Nat) : Op Nat := do
  let association ← read id
  match association.link.control with
  | none => pure deadline
  | some control =>
    if control.deadlineMs = noDeadline then pure deadline
    else if now < control.deadlineMs then pure (minDeadline control.deadlineMs deadline)
    else if control.spent then do
      update Association.failed
      fail errTimeout
    else do
      let code ← emitSavedControl control.packet
      if code = errWouldBlock then pure now
      else do
        require (code = 0) code
        update fun association => association.repeatedControl control now
        let rto ← read fun association => association.sender.rtoMs
        pure (minDeadline (deadlineAdd now rto) deadline)

/-- `h2_sctp_timer_service_heartbeat`. -/
def serviceHeartbeat (now deadline : Nat) : Op Nat := do
  update fun association =>
    if association.state = .connected ∧ association.heartbeatDeadlineMs = noDeadline then
      { association with heartbeatDeadlineMs := deadlineAdd now heartbeatIntervalMs }
    else association
  let association ← read id
  if association.state ≠ .connected then pure deadline
  else if now < association.heartbeatDeadlineMs then
    pure (minDeadline association.heartbeatDeadlineMs deadline)
  else do
    let deadline ← orElse [errWouldBlock] now do
      emitToPeer (.heartbeat []) none now
      pure (minDeadline (deadlineAdd now heartbeatIntervalMs) deadline)
    update fun association =>
      { association with heartbeatDeadlineMs := deadlineAdd now heartbeatIntervalMs }
    pure deadline

/-- The end of `h2_sctp_timer_service`: a shutdown that waited for the queue to drain. -/
def serviceOwnShutdown (now : Nat) : Op Unit := do
  let association ← read id
  if association.shutdownPending && association.sender.sendUsed = 0 &&
      association.link.control.isNone then do
    update fun association => { association with shutdownPending := false }
    (sendShutdown now).recovering fun code => do
      update fun association => { association with shutdownPending := true }
      fail code
  else pure ()

/-- The same for the answer to a shutdown of the peer. -/
def servicePeerShutdown (now : Nat) : Op Unit := do
  let association ← read id
  if association.peerShutdownPending && association.sender.sendUsed = 0 &&
      association.link.control.isNone then do
    update fun association => { association with peerShutdownPending := false }
    (sendShutdownAck now).recovering fun code => do
      update fun association => { association with peerShutdownPending := true }
      fail code
  else pure ()

/-- Runs the rest of the service call unless something is retained, which is to be retried at
once. -/
def unlessRetained (now : Nat) (body : Op Nat) : Op Nat := do
  let pending ← read fun association => association.link.pendingEmit.isSome
  if pending then pure now else body

/-- The service call from the saved control packet on. -/
def serviceRest (now deadline : Nat) : Op Nat := do
  let deadline ← serviceControl now deadline
  let deadline ← orElse [errWouldBlock] now (reliabilityService now deadline)
  unlessRetained now do
    let result ← attempt (sendPending now)
    match result with
    | .error code => do
      require (code = errWouldBlock) code
      pure now
    | .ok () => unlessRetained now do
        serviceOwnShutdown now
        servicePeerShutdown now
        let deadline ← serviceHeartbeat now deadline
        let pending ← read fun association => association.link.pendingEmit.isSome
        pure (if pending then now else deadline)

/-- The service call once nothing is retained. -/
def serviceOpen (now : Nat) : Op Nat := do
  let deadline ← orElse [errNoMemory] now (do streamService; pure noDeadline)
  serviceDeferredReset now
  let deadline ← orElse [errWouldBlock] deadline (serviceSack now deadline)
  unlessRetained now (serviceRest now deadline)

/-- `h2_sctp_timer_service`, with the deadline that it hands back. -/
def service (now : Nat) : Op Nat := do
  validateOperation now
  let retried ← attempt retryPendingEmit
  match retried with
  | .error code => do
    require (code = errWouldBlock) code
    pure now
  | .ok () => do
    let state ← read Association.state
    if state = .closed ∨ state = .failed then pure noDeadline else serviceOpen now

/-- A call of an association, at a time. -/
inductive Call where
  | start (now : Nat)
  | input (packet : Packet) (now : Nat)
  | service (now : Nat)
  | send (message : Message) (now : Nat)
  | resetStream (streamId now : Nat)
  | shutdown (now : Nat)
  | abort (now : Nat)
deriving Repr, DecidableEq

/-- What a call does. -/
def Call.run : Call → Op Unit
  | .start now => Sctp.start now
  | .input packet now => inputPacket packet now
  | .service now => do
    let _ ← Sctp.service now
    pure ()
  | .send message now => sendMessage message now
  | .resetStream streamId now => Sctp.resetStream streamId now
  | .shutdown now => Sctp.shutdown now
  | .abort now => Sctp.abort now

end Gizos.Sctp
