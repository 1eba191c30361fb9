import Gizos.Sctp.Reliability

/-! # Messages on streams

The routines of `h2_sctp_stream.c` that take memory, hand messages to the consumer or answer the
peer.
-/
namespace Gizos.Sctp

open Fault Fault.Program Pal Serial

/-- Memory for a number of records, one after the other. -/
def allocateEach : Nat → Op Bool
  | 0 => pure true
  | count + 1 => do
    let granted ← allocate
    if granted then allocateEach count else pure false

/-- `h2_sctp_stream_queue_message`. -/
def queueMessage (message : Message) (now : Nat) : Op Unit := do
  let association ← read id
  let config := association.config
  let interleaved := association.peer.interleaving
  let length := message.data.length
  require (length ≤ config.sendBufferSize ∧
    association.sender.sendUsed ≤ config.sendBufferSize - length) errWouldBlock
  require (commonHeaderSize + dataHeaderSize interleaved < config.maxPacketSize) errInvalidState
  let size := config.payloadSize interleaved
  let count := fragmentCount length size
  require (count ≠ 0 ∧ count ≤ uint32Max) errInvalidArg
  let stream ← getOrCreate message.streamId
  require (stream = true) errNoMemory
  let granted ← allocateEach count
  require (granted = true) errNoMemory
  updateSender fun sender => sender.enqueue interleaved size message now

/-- `h2_sctp_stream_deliver_one`; `prepared` says that the caller has memory for the message. -/
def deliverOne (first : RxFragment) (parts : List RxFragment) (prepared : Bool) : Op Unit := do
  let receiver ← read Association.receiver
  let granted ← if prepared || receiver.assemblyComplete first parts then pure true else allocate
  require (granted = true) errNoMemory
  notifyMessage (receiver.received first parts)
  updateReceiver fun receiver => receiver.handOver first parts

/-- The inner loop of `h2_sctp_stream_deliver_ready`: hands over the first message that is complete
and due, and says whether there was one. The streams it passes are allocated on the way. -/
def deliverFirst (limit : Nat) : List RxFragment → Op Bool
  | [] => pure false
  | fragment :: rest =>
    if fragment.delivered || !fragment.flags.first then deliverFirst limit rest
    else do
      let stream ← getOrCreate fragment.streamId
      require (stream = true) errNoMemory
      let receiver ← read Association.receiver
      match if receiver.due fragment then receiver.messageReady limit fragment else none with
      | none => deliverFirst limit rest
      | some parts => do
        deliverOne fragment parts false
        updateReceiver fun receiver => receiver.countOrdered fragment
        pure true

/-- The outer loop of `h2_sctp_stream_deliver_ready`. -/
def deliverLoop (limit : Nat) : Nat → Op Unit
  | 0 => pure ()
  | fuel + 1 => do
    let list ← read fun association => association.receiver.rx
    let delivered ← deliverFirst limit list
    if delivered then deliverLoop limit fuel else pure ()

/-- `h2_sctp_stream_deliver_ready`. Each turn of its loop hands over a fragment that was not handed
over before, so the length of the list bounds it. -/
def deliverReady : Op Unit := do
  let association ← read id
  deliverLoop association.config.maxMessageSize (association.receiver.rx.length + 1)
  updateReceiver Receiver.pruneDelivered

/-- `h2_sctp_stream_service`. -/
def streamService : Op Unit := do
  let pending ← read fun association => association.receiver.deliveryPending
  if pending then do
    deliverReady
    updateReceiver fun receiver => { receiver with deliveryPending := false }
  else pure ()

/-- Sets `delivery_pending` and runs `h2_sctp_stream_service`. -/
def deliverNow : Op Unit := do
  updateReceiver fun receiver => { receiver with deliveryPending := true }
  streamService

/-- `h2_sctp_stream_send_reset_response`. -/
def sendResetResponse (sequence : Number) (code now : Nat) : Op Unit :=
  emitToPeer (.reconfig [.response sequence code]) none now

/-- The end of a reset: the streams start over, and what waited on the old counters may be handed
over now. -/
def performReset (sequence : Number) (lastTsn : Tsn) (streams : List Nat) : Op Unit := do
  updateReceiver fun receiver => receiver.performReset sequence lastTsn streams
  ignoring streamService

/-- `h2_sctp_stream_service_deferred_reset`. -/
def serviceDeferredReset (now : Nat) : Op Unit := do
  let receiver ← read Association.receiver
  match receiver.deferredReset with
  | none => pure ()
  | some request =>
    if request.sequence ≠ receiver.expectedResetSequence ∨
        after request.lastTsn receiver.cumulativeReceivedTsn = true then pure ()
    else do
      let delivered ← attempt deliverNow
      match delivered with
      | .error code => require (code = errNoMemory ∨ code = errWouldBlock) code
      | .ok () => do
        let association ← read id
        if association.link.pendingEmit.isSome then pure ()
        else do
          let response ← attempt (sendResetResponse request.sequence 1 now)
          match response with
          | .ok () => performReset request.sequence request.lastTsn request.streams
          | .error code =>
            if code = errWouldBlock then
              performReset request.sequence request.lastTsn request.streams
            else require (code = errNoMemory) code

/-- A message that a new fragment completes, with memory for it and its stream. -/
def prepareDelivery (fragment : RxFragment) : Op (Option (RxFragment × List RxFragment)) := do
  let association ← read id
  let receiver := association.receiver
  match (receiver.firstOf fragment).bind fun first =>
      (receiver.messageReady association.config.maxMessageSize first).map (first, ·) with
  | none => pure none
  | some (first, parts) =>
    if !receiver.due first then pure none
    else do
      let granted ← if receiver.assemblyComplete first parts then pure true else allocate
      if !granted then do
        updateReceiver fun receiver => receiver.undo fragment
        fail errWouldBlock
      else do
        let stream ← if first.flags.unordered then pure true else getOrCreate first.streamId
        if stream then pure (some (first, parts))
        else do
          updateReceiver fun receiver => receiver.undo fragment
          fail errWouldBlock

/-- The delivery in `h2_sctp_stream_handle_data`. A consumer that cannot take the message now gets
it from a later service call. -/
def deliverPrepared (first : RxFragment) (parts : List RxFragment) : Op Unit := do
  let result ← attempt (deliverOne first parts true)
  match result with
  | .ok () =>
    updateReceiver fun receiver =>
      { (receiver.countOrdered first).pruneDelivered with deliveryPending := true }
  | .error code => do
    require (code = errWouldBlock) code
    updateReceiver fun receiver => { receiver with deliveryPending := true }

/-- The part of `h2_sctp_stream_handle_data` from the allocation of the fragment on. -/
def acceptData (chunk : DataChunk) (now : Nat) : Op Unit := do
  let association ← read id
  let receiver := association.receiver
  let assembled := receiver.assembles association.config chunk
  updateReceiver fun receiver =>
    { receiver with wild := receiver.wild || receiver.readsFreed association.config chunk }
  let granted ← allocate
  require (granted = true) errWouldBlock
  updateReceiver fun receiver => receiver.store chunk assembled
  let fragment := receiver.header chunk assembled
  let delivery ← prepareDelivery fragment
  updateReceiver fun receiver => receiver.keep fragment
  match delivery with
  | none => pure ()
  | some (first, parts) => deliverPrepared first parts
  let inOrder : Bool := chunk.tsn = receiver.cumulativeReceivedTsn + 1
  tolerating [errNoMemory, errWouldBlock]
    (noteData now (!inOrder || chunk.flags.immediate || chunk.flags.last))
  serviceDeferredReset now

/-- `h2_sctp_stream_handle_data`. -/
def handleData (chunk : DataChunk) (now : Nat) : Op Unit := do
  let association ← read id
  let receiver := association.receiver
  let length := chunk.payload.length
  require (chunk.interleaved = association.peer.interleaving ∧ length ≠ 0 ∧
    chunk.flags.reserved = false) errFormat
  require (chunk.streamId < association.peer.inboundStreams) errFormat
  if !after chunk.tsn receiver.cumulativeReceivedTsn ||
      (chunk.tsn ≠ receiver.cumulativeReceivedTsn + 1 && receiver.hasTsn chunk.tsn) then
    tolerating [errNoMemory, errWouldBlock] (sendSack now)
  else do
    require (length ≤ association.config.receiveBufferSize ∧
      receiver.receiveUsed ≤ association.config.receiveBufferSize - length) errWouldBlock
    require ((chunk.interleaved && chunk.reserved) = false) errFormat
    acceptData chunk now

/-- `h2_sctp_stream_prepare_forward_streams`: the streams of the entries that are new, or nothing at
all. -/
def prepareForwardStreams (interleaved : Bool) : List ForwardEntry → List Nat → Op (List Nat)
  | [], prepared => pure prepared
  | entry :: rest, prepared => do
    let association ← read id
    require (entry.streamId < association.peer.inboundStreams ∧
      (interleaved && entry.reserved) = false) errFormat
    if entry.streamId ∈ association.known ∨ entry.streamId ∈ prepared then
      prepareForwardStreams interleaved rest prepared
    else do
      let granted ← allocate
      require (granted = true) errWouldBlock
      prepareForwardStreams interleaved rest (entry.streamId :: prepared)

/-- `h2_sctp_stream_handle_forward_tsn`. -/
def handleForwardTsn (chunk : ForwardChunk) (now : Nat) : Op Unit := do
  let association ← read id
  require (chunk.interleaved = association.peer.interleaving) errFormat
  if !after chunk.newCumulative association.receiver.cumulativeReceivedTsn then
    tolerating [errNoMemory, errWouldBlock] (sendSack now)
  else do
    let prepared ← prepareForwardStreams chunk.interleaved chunk.entries []
    update fun association =>
      { association with known := prepared.reverse ++ association.known }
    updateReceiver fun receiver => receiver.forward chunk
    tolerating [errNoMemory] streamService
    tolerating [errNoMemory, errWouldBlock] (sendSack now)
    serviceDeferredReset now

/-- `h2_sctp_stream_defer_reset`. -/
def deferReset (request : DeferredReset) : Op Unit := do
  let receiver ← read Association.receiver
  if receiver.deferredReset.map DeferredReset.sequence = some request.sequence then pure ()
  else do
    let granted ← allocate
    updateReceiver fun receiver => receiver.deferReset request granted

/-- The answer to an outgoing reset request that is the expected one: refused, performed, or to be
performed later. -/
def answerReset (request : DeferredReset) : Op Nat := do
  let association ← read id
  let receiver := association.receiver
  if request.streams.any fun id => association.peer.inboundStreams ≤ id then pure 2
  else if after request.lastTsn receiver.cumulativeReceivedTsn then do
    deferReset request
    pure 6
  else do
    let delivered ← attempt deliverNow
    match delivered with
    | .ok () => pure 1
    | .error code => do
      require (code = errNoMemory ∨ code = errWouldBlock) code
      deferReset request
      pure 6

/-- An OUTGOING_RESET parameter of `h2_sctp_stream_handle_reconfig`. -/
def handleOutgoingReset (request : DeferredReset) (now : Nat) : Op Unit := do
  updateReceiver fun receiver =>
    { receiver with
      expectedResetSequence := if receiver.expectedResetSequence = 0 then request.sequence
        else receiver.expectedResetSequence }
  let receiver ← read Association.receiver
  let code ← if before request.sequence receiver.expectedResetSequence then pure 0
    else if request.sequence ≠ receiver.expectedResetSequence then pure 5
    else answerReset request
  let response ← attempt (sendResetResponse request.sequence code now)
  match response with
  | .ok () => pure ()
  | .error failure =>
    require (failure = errWouldBlock) (if failure = errNoMemory then errWouldBlock else failure)
  if code = 1 then performReset request.sequence request.lastTsn request.streams else pure ()

/-- The counters of a stream whose reset the peer has answered; a reset that was performed starts
them over. -/
def OutStream.resetAnswered (stream : OutStream) (performed : Bool) : OutStream :=
  if performed then { resetRequestSequence := stream.resetRequestSequence }
  else { stream with resetPending := false }

/-- The sending side when the peer has answered the reset request of a stream. -/
def Sender.resetAnswered (sender : Sender) (streamId : Nat) (performed : Bool) : Sender :=
  let stream := sender.outgoing streamId
  { sender with
    outgoing := Function.update sender.outgoing streamId (stream.resetAnswered performed)
    restarts := if performed then
        sender.restarts ++
          [{ streamId, sequence := stream.resetRequestSequence, queued := sender.accepted.length }]
      else sender.restarts }

/-- The stream whose reset request has a sequence number. -/
def Association.resetStreamOf (association : Association) (sequence : Number) : Option Nat :=
  association.known.find? fun id =>
    (association.sender.outgoing id).resetPending &&
      (association.sender.outgoing id).resetRequestSequence = sequence

/-- A RESET_RESPONSE parameter of `h2_sctp_stream_handle_reconfig`: the request stays in place while
the peer is working on it. -/
def Association.resetResponse (association : Association) (sequence : Number) (code now : Nat) :
    Association :=
  match association.resetStreamOf sequence, association.link.control with
  | some id, some control =>
    if control.kind ≠ .reset then association
    else if code = 6 then
      { association with
        link := { association.link with
          control := some
            { control with
              resetInProgress := true
              deadlineMs := deadlineAdd now association.sender.rtoMs } } }
    else
      association.clearControl.mapSender fun sender =>
        sender.resetAnswered id (code = 0 || code = 1)
  | _, _ => association

/-- `h2_sctp_stream_handle_reconfig`. -/
def handleReconfig (now : Nat) : List ResetParameter → Op Unit
  | [] => pure ()
  | .outgoing sequence lastTsn streams :: rest => do
    handleOutgoingReset { sequence, lastTsn, streams } now
    handleReconfig now rest
  | .response sequence code :: rest => do
    update fun association => association.resetResponse sequence code now
    handleReconfig now rest
  | .other :: rest => handleReconfig now rest
  | .malformed code :: _ => fail code

end Gizos.Sctp
