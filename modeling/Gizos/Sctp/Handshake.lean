import Gizos.Sctp.Streams

/-! # Opening and closing an association

The handlers of `h2_sctp_association.c` for the chunks that open, keep up and close an association.
-/
namespace Gizos.Sctp

open Fault Fault.Program Pal Serial

/-- The values that `h2_sctp_association_parse_init` lets pass. -/
def InitValues.valid (values : InitValues) : Bool :=
  values.initiateTag ≠ 0 && values.outboundStreams ≠ 0 && values.inboundStreams ≠ 0

namespace Association

/-- The association that `h2_sctp_vtable_association_create` returns, from the random tag and
TSN. -/
def create (config : Config) (tag : BitVec 32) (initialTsn : Tsn) (buffered : Bool) :
    Association where
  config
  localVerificationTag := if tag = 0 then 1 else tag
  sender :=
    { initialTsn, nextTsn := initialTsn, peerCumulativeTsn := initialTsn - 1
      advancedPeerAck := initialTsn - 1, nextResetSequence := initialTsn
      cwnd := min uint32Max (config.maxPacketSize * 4) }
  receiver :=
    { assembly := if buffered then some (List.replicate config.maxMessageSize 0) else none }

variable (association : Association)

/-- What an INIT or INIT-ACK chunk says about this side. -/
def initValues (cookie : Option Bytes) : InitValues where
  initiateTag := association.localVerificationTag
  initialTsn := association.sender.initialTsn
  receiveWindow := min uint32Max association.config.receiveBufferSize
  outboundStreams := association.config.outboundStreams
  inboundStreams := association.config.inboundStreams
  forwardTsn := true
  interleaving := true
  streamReset := true
  cookie

/-- The peer as an INIT or INIT-ACK chunk describes it. -/
def peerOf (config : Config) (values : InitValues) : Peer where
  verificationTag := values.initiateTag
  initialTsn := values.initialTsn
  inboundStreams := min config.inboundStreams values.outboundStreams
  outboundStreams := min config.outboundStreams values.inboundStreams
  forwardTsn := values.forwardTsn
  interleaving := values.interleaving
  streamReset := values.streamReset

/-- `h2_sctp_association_apply_peer_init`. -/
def applyPeerInit (values : InitValues) : Association :=
  { association with
    peer := peerOf association.config values
    sender := { association.sender with peerReceiveWindow := values.receiveWindow }
    receiver := { association.receiver with
      cumulativeReceivedTsn := values.initialTsn - 1
      expectedResetSequence := values.initialTsn } }

/-- `h2_sctp_association_restore_peer_state`, from what was saved before. -/
def restorePeerState (saved : Association) : Association :=
  { association with
    peer := saved.peer
    sender := { association.sender with peerReceiveWindow := saved.sender.peerReceiveWindow }
    receiver := { association.receiver with
      cumulativeReceivedTsn := saved.receiver.cumulativeReceivedTsn
      expectedResetSequence := saved.receiver.expectedResetSequence } }

/-- The cookie of an identical INIT is used again while it lasts. -/
def reusesCookie (values : InitValues) (now : Nat) : Bool :=
  association.cookie.any (fun cookie => now ≤ cookie.expiresMs) &&
    association.peer = peerOf association.config values &&
    association.sender.peerReceiveWindow = values.receiveWindow

/-- The association is up. -/
def connect (now : Nat) : Association :=
  { association with heartbeatDeadlineMs := deadlineAdd now heartbeatIntervalMs }.notifyState
    .connected

/-- The kind of the control packet. -/
def controlKind : Option ControlKind :=
  association.link.control.map Control.kind

end Association

/-- `h2_sctp_association_send_init`. -/
def sendInit (now : Nat) : Op Unit := do
  let values ← read fun association => association.initValues none
  emitChunk 0 (.init values) (some .init) now

/-- `h2_sctp_association_send_init_ack`. -/
def sendInitAck (now : Nat) (reuseCookie : Bool) : Op Unit := do
  onlyIf (!reuseCookie) do
    let bytes ← random 32
    update fun association =>
      { association with
        cookie := some { bytes, expiresMs := deadlineAdd now association.config.cookieLifetimeMs } }
  let values ← read fun association =>
    association.initValues (some ((association.cookie.map Cookie.bytes).getD []))
  emitToPeer (.initAck values) none now

/-- `h2_sctp_association_handle_init`. -/
def handleInit (values : InitValues) (now : Nat) : Op Unit := do
  let saved ← read id
  if saved.state ≠ .connecting then pure ()
  else do
    require (values.valid = true) errFormat
    update fun association => association.applyPeerInit values
    let result ← attempt (sendInitAck now (saved.reusesCookie values now))
    match result with
    | .ok () => pure ()
    | .error code =>
      if code = errWouldBlock then pure ()
      else do
        update fun association =>
          { association.restorePeerState saved with cookie := saved.cookie }
        fail (if code = errNoMemory then errWouldBlock else code)

/-- `h2_sctp_association_handle_init_ack`. -/
def handleInitAck (values : InitValues) (now : Nat) : Op Unit := do
  let saved ← read id
  if saved.config.role ≠ .active ∨ saved.state ≠ .connecting ∨
      saved.controlKind ≠ some .init then pure ()
  else do
    require (values.valid = true) errFormat
    let cookie := values.cookie.getD []
    require (cookie.length ≠ 0 ∧ cookie.length ≤ saved.config.maxPacketSize - 16) errFormat
    let granted ← allocateEach 2
    require (granted = true) errWouldBlock
    update fun association => association.applyPeerInit values
    let result ← attempt do
      require (commonHeaderSize + padded (4 + cookie.length) ≤ saved.config.maxPacketSize)
        errInvalidArg
      emitToPeer (.cookieEcho cookie) (some .cookieEcho) now
    match result with
    | .ok () => pure ()
    | .error code =>
      if code = errWouldBlock then pure ()
      else if code = errNoMemory then do
        update fun association => association.restorePeerState saved
        fail errWouldBlock
      else fail code

/-- A reply that may be retained; without memory the packet is to be handed in again. -/
def replying (body : Op Unit) : Op Unit :=
  body.recovering fun code =>
    if code = errWouldBlock then pure ()
    else fail (if code = errNoMemory then errWouldBlock else code)

/-- `h2_sctp_association_handle_cookie_echo`. -/
def handleCookieEcho (cookie : Bytes) (now : Nat) : Op Unit := do
  let association ← read id
  let established : Bool := association.state = .connected
  if (!established && association.state ≠ .connecting) ||
      !association.cookie.any (fun own =>
        (established || now ≤ own.expiresMs) && own.bytes = cookie) then pure ()
  else do
    replying (emitToPeer .cookieAck none now)
    onlyIf (association.controlKind = some .init || association.controlKind = some .cookieEcho)
      (update Association.clearControl)
    onlyIf (!established) (update fun association => association.connect now)

/-- `h2_sctp_association_handle_cookie_ack`. -/
def handleCookieAck (now : Nat) : Op Unit := do
  let association ← read id
  if association.config.role ≠ .active ∨ association.state ≠ .connecting then pure ()
  else update fun association => association.clearControl.connect now

/-- `h2_sctp_association_handle_heartbeat`. -/
def handleHeartbeat (info : Bytes) (now : Nat) : Op Unit := do
  let association ← read id
  require (info.length ≤ association.config.maxPacketSize - 16) errFormat
  let granted ← allocate
  require (granted = true) errWouldBlock
  replying do
    require (association.link.pendingEmit = none) errWouldBlock
    require (commonHeaderSize + padded (4 + info.length) ≤ association.config.maxPacketSize)
      errInvalidArg
    emitToPeer .heartbeatAck none now

/-- `h2_sctp_association_send_shutdown`. -/
def sendShutdown (now : Nat) : Op Unit := do
  let cumulative ← read fun association => association.receiver.cumulativeReceivedTsn
  tolerating [errWouldBlock] (emitToPeer (.shutdown cumulative) (some .shutdown) now)

/-- `h2_sctp_association_send_shutdown_ack`. -/
def sendShutdownAck (now : Nat) : Op Unit :=
  tolerating [errWouldBlock] (emitToPeer .shutdownAck none now)

/-- `h2_sctp_association_handle_shutdown`. -/
def handleShutdown (cumulative : Tsn) (now : Nat) : Op Unit := do
  updateSender fun sender => sender.acknowledgeThrough cumulative
  update fun association =>
    { association with peerShutdownPending := true }.notifyState .shuttingDown
  let used ← read fun association => association.sender.sendUsed
  if used ≠ 0 then pure ()
  else do
    update fun association => { association with peerShutdownPending := false }
    let result ← attempt (sendShutdownAck now)
    match result with
    | .ok () => pure ()
    | .error code =>
      if code = errNoMemory then do
        update fun association => { association with peerShutdownPending := true }
        fail errWouldBlock
      else fail code

/-- `h2_sctp_association_handle_shutdown_ack`. -/
def handleShutdownAck (now : Nat) : Op Unit := do
  let state ← read Association.state
  if state ≠ .shuttingDown then pure ()
  else do
    replying (emitToPeer .shutdownComplete none now)
    update fun association => association.clearControl.notifyState .closed

end Gizos.Sctp
