import Gizos.Fault.Moves
import Gizos.Sctp.Endpoint

/-! # What a call can do

Every call of an association is a path of steps, each of which changes one side under guards that
the code has checked. The chunks that a step may rely on are those that were heard, so that what
two associations do to each other can be told from what each says.
-/
namespace Gizos.Sctp

open Fault Pal Serial

/-- A packet that is kept, because it was refused or because it has no answer yet. -/
def Link.Has (link : Link) (packet : Packet) : Prop :=
  link.pendingEmit = some packet ∨ link.control.map Control.packet = some packet

/-- The chunks that an association may put into a packet, with the tag of the packet and the kind
of control packet that it becomes. -/
inductive Says (heard : Chunk → Prop) (a : Association) :
    BitVec 32 → Option ControlKind → Chunk → Prop where
  | init : a.state = .connecting → a.config.role = .active →
      Says heard a 0 (some .init) (.init (a.initValues none))
  | initAck (values : InitValues) (cookie : Cookie) : a.state = .connecting →
      heard (.init values) → a.peer = Association.peerOf a.config values →
      a.cookie = some cookie →
      Says heard a a.peer.verificationTag none (.initAck (a.initValues (some cookie.bytes)))
  | cookieEcho (values : InitValues) (cookie : Bytes) : a.state = .connecting →
      heard (.initAck values) → a.peer = Association.peerOf a.config values →
      Says heard a a.peer.verificationTag (some .cookieEcho) (.cookieEcho cookie)
  | cookieAck (cookie : Cookie) : a.cookie = some cookie → heard (.cookieEcho cookie.bytes) →
      (a.state = .connecting ∨ a.state = .connected) →
      Says heard a a.peer.verificationTag none .cookieAck
  | data (fragment : TxFragment) (payload : Bytes) : fragment ∈ a.sender.tx →
      fragment.tsnAssigned = true → fragment.data = some payload →
      Says heard a a.peer.verificationTag none (.data (fragment.chunk a.peer.interleaving payload))
  | sack : Says heard a a.peer.verificationTag none (.sack (a.receiver.sackChunk a.config))
  | forward (advanced : Tsn) : a.sender.advanced = (advanced, true) →
      after advanced a.sender.advancedPeerAck = true →
      Says heard a a.peer.verificationTag none
        (.forwardTsn (a.sender.forwardChunk a.peer.interleaving advanced))
  | resetRequest (streamId : Nat) : a.state = .connected →
      (a.sender.outgoing streamId).resetPending = true →
      Says heard a a.peer.verificationTag (some .reset)
        (.reconfig [.outgoing a.sender.nextResetSequence (a.sender.nextTsn - 1) [streamId]])
  | resetResponse (sequence : Number) (code : Nat) :
      Says heard a a.peer.verificationTag none (.reconfig [.response sequence code])
  | shutdown : a.state ≠ .connected ∨ a.shutdownPending = true → a.sender.sendUsed = 0 →
      Says heard a a.peer.verificationTag (some .shutdown)
        (.shutdown a.receiver.cumulativeReceivedTsn)
  | shutdownAck : a.state ≠ .connected ∧ (∃ cumulative, heard (.shutdown cumulative)) ∨
        a.peerShutdownPending = true → a.sender.sendUsed = 0 →
      Says heard a a.peer.verificationTag none .shutdownAck
  | shutdownComplete : a.state = .shuttingDown → heard .shutdownAck →
      Says heard a a.peer.verificationTag none .shutdownComplete
  | heartbeat : Says heard a a.peer.verificationTag none (.heartbeat [])
  | heartbeatAck : Says heard a a.peer.verificationTag none .heartbeatAck
  | abort : Says heard a a.peer.verificationTag none .abort

/-- A packet that may leave: a new one while nothing is retained, or one that was kept. -/
inductive Spoken (heard : Chunk → Prop) (a : Association) : Packet → Prop where
  | said {tag : BitVec 32} {kind : Option ControlKind} {chunk : Chunk} :
      Says heard a tag kind chunk → a.link.pendingEmit = none →
      Spoken heard a (a.packetOf tag chunk)
  | kept {packet : Packet} : a.link.Has packet → Spoken heard a packet

/-- What a step may do to the link. -/
inductive LinkStep (heard : Chunk → Prop) (a : Association) : Link → Prop where
  | sent {packet : Packet} : Spoken heard a packet →
      LinkStep heard a { a.link with wire := a.link.wire ++ [packet] }
  | retained {packet : Packet} : Spoken heard a packet → a.link.pendingEmit = none →
      LinkStep heard a { a.link with pendingEmit := some packet }
  | released : LinkStep heard a { a.link with pendingEmit := none }
  /-- A new control packet is kept. -/
  | controlled {tag : BitVec 32} {kind : ControlKind} {chunk : Chunk} (deadline : Nat) :
      Says heard a tag (some kind) chunk → a.link.pendingEmit = none →
      LinkStep heard a
        { a.link with
          control := some { packet := a.packetOf tag chunk, kind, deadlineMs := deadline } }
  | cleared : LinkStep heard a { a.link with control := none }
  /-- The control packet stays, with other counters. -/
  | repeated {control control' : Control} : a.link.control = some control →
      control'.packet = control.packet → control'.kind = control.kind →
      LinkStep heard a { a.link with control := some control' }

/-- What a step may do to the sending side. -/
inductive SenderStep (heard : Chunk → Prop) (a : Association) : Sender → Prop where
  | enqueue (message : Message) (now : Nat) : a.state = .connected → message.data ≠ [] →
      message.streamId < a.peer.outboundStreams →
      message.data.length ≤ a.config.sendBufferSize →
      a.sender.sendUsed ≤ a.config.sendBufferSize - message.data.length →
      commonHeaderSize + dataHeaderSize a.peer.interleaving < a.config.maxPacketSize →
      SenderStep heard a
        (a.sender.enqueue a.peer.interleaving (a.config.payloadSize a.peer.interleaving) message
          now)
  /-- The fragment whose turn it is gets a TSN. -/
  | assign (index : Nat) (fragment : TxFragment) : a.sender.tx[index]? = some fragment →
      fragment.data.isSome = true →
      (a.sender.pickUnsent = some index ∨ fragment.outstanding = true) →
      SenderStep heard a (a.sender.assignTsn index)
  /-- A packet with the fragment has left or is retained. -/
  | markSent (index : Nat) (fragment : TxFragment) (now : Nat) (retransmission taken : Bool) :
      a.sender.tx[index]? = some fragment → fragment.data.isSome = true →
      fragment.live = true → fragment.tsnAssigned = true →
      (retransmission = false → fragment.waiting = true) →
      SenderStep heard a (a.sender.markSent index now retransmission taken)
  | schedule (streamId : Nat) :
      SenderStep heard a { a.sender with lastScheduledStream := streamId }
  | enterRecovery (exitTsn : Tsn) : SenderStep heard a (a.sender.enterRecovery a.config exitTsn)
  | unmark (index : Nat) :
      SenderStep heard a
        { a.sender with
          tx := a.sender.tx.modify index fun fragment =>
            { fragment with fastRetransmit := false } }
  /-- A message that has outlived its limits is given up. -/
  | abandon (fragment : TxFragment) (now : Nat) : fragment ∈ a.sender.tx →
      fragment.outstanding = true → fragment.outlived now = true →
      SenderStep heard a (a.sender.abandonMessage fragment.messageId)
  | collapse : SenderStep heard a (a.sender.collapse a.config)
  | backOff : SenderStep heard a a.sender.backOff
  | advance (advanced : Tsn) : a.sender.advanced = (advanced, true) →
      after advanced a.sender.advancedPeerAck = true →
      SenderStep heard a (a.sender.advanceTo advanced)
  | sack (sack : SackChunk) (now : Nat) : heard (.sack sack) →
      before sack.cumulative a.sender.peerCumulativeTsn = false →
      a.sender.sackIsValid sack = true →
      SenderStep heard a (a.sender.applySack a.config sack now)
  | shutdown (cumulative : Tsn) : heard (.shutdown cumulative) →
      SenderStep heard a (a.sender.acknowledgeThrough cumulative)
  | requestReset (streamId : Nat) : a.state = .connected → a.link.pendingEmit = none →
      a.link.control = none → (a.sender.outgoing streamId).resetPending = false →
      SenderStep heard a (a.sender.requestReset streamId)
  /-- A request failed: nothing but its number is left of it. -/
  | withdrawReset (streamId : Nat) : (a.sender.outgoing streamId).resetPending = false →
      SenderStep heard a (a.sender.setResetPending streamId false)
  | nextReset :
      SenderStep heard a { a.sender with nextResetSequence := a.sender.nextResetSequence + 1 }
  | resetAnswered (streamId code : Nat) (parameters : List ResetParameter) :
      (a.sender.outgoing streamId).resetPending = true → heard (.reconfig parameters) →
      .response (a.sender.outgoing streamId).resetRequestSequence code ∈ parameters →
      SenderStep heard a (a.sender.resetAnswered streamId (code = 0 || code = 1))

/-- The checks of `h2_sctp_stream_handle_data` before a chunk becomes a fragment. -/
structure Acceptable (a : Association) (chunk : DataChunk) : Prop where
  state : a.state = .connected ∨ a.state = .shuttingDown
  interleaved : chunk.interleaved = a.peer.interleaving
  payload : chunk.payload.length ≠ 0
  streamId : chunk.streamId < a.peer.inboundStreams
  later : after chunk.tsn a.receiver.cumulativeReceivedTsn = true
  fresh : chunk.tsn = a.receiver.cumulativeReceivedTsn + 1 ∨ a.receiver.hasTsn chunk.tsn = false
  room : a.receiver.receiveUsed + chunk.payload.length ≤ a.config.receiveBufferSize

namespace Receiver

/-- The receiving side with a chunk stored, before it is decided whether it stays. -/
def stored (receiver : Receiver) (config : Config) (chunk : DataChunk) : Receiver :=
  { receiver with wild := receiver.wild || receiver.readsFreed config chunk }.store chunk
    (receiver.assembles config chunk)

/-- The fragment that a chunk becomes. -/
def fragmentOf (receiver : Receiver) (config : Config) (chunk : DataChunk) : RxFragment :=
  receiver.header chunk (receiver.assembles config chunk)

/-- The receiving side after the consumer has taken a message. -/
def taken (receiver : Receiver) (first : RxFragment) (parts : List RxFragment) : Receiver :=
  ({ receiver with inbox := receiver.inbox ++ [receiver.received first parts] }.handOver first
    parts).countOrdered first

end Receiver

/-- What a step may do to the receiving side. -/
inductive ReceiverStep (heard : Chunk → Prop) (a : Association) : Receiver → Prop where
  /-- A chunk becomes a fragment. -/
  | accept (chunk : DataChunk) : heard (.data chunk) → Acceptable a chunk →
      ReceiverStep heard a
        ((a.receiver.stored a.config chunk).keep (a.receiver.fragmentOf a.config chunk))
  /-- There was no memory to go on: the fragment is taken back. -/
  | refuse (chunk : DataChunk) : heard (.data chunk) → Acceptable a chunk →
      ReceiverStep heard a
        ((a.receiver.stored a.config chunk).undo (a.receiver.fragmentOf a.config chunk))
  /-- There was no memory for the fragment itself. -/
  | look (chunk : DataChunk) : heard (.data chunk) → Acceptable a chunk →
      ReceiverStep heard a
        { a.receiver with
          wild := a.receiver.wild || a.receiver.readsFreed a.config chunk }
  /-- The consumer takes a message. -/
  | take (first : RxFragment) (parts : List RxFragment) : first ∈ a.receiver.rx →
      (first.delivered = false ∧ first.flags.first = true ∨
        a.receiver.assemblyBegin = some first.node) → a.receiver.due first = true →
      a.receiver.messageReady a.config.maxMessageSize first = some parts →
      ReceiverStep heard a (a.receiver.taken first parts)
  | prune : ReceiverStep heard a a.receiver.pruneDelivered
  | forward (chunk : ForwardChunk) : heard (.forwardTsn chunk) →
      chunk.interleaved = a.peer.interleaving →
      after chunk.newCumulative a.receiver.cumulativeReceivedTsn = true →
      ReceiverStep heard a (a.receiver.forward chunk)
  /-- A reset request is performed, at once or after it was deferred. -/
  | performReset (sequence : Number) (lastTsn : Tsn) (streams : List Nat) :
      sequence = a.receiver.expectedResetSequence →
      after lastTsn a.receiver.cumulativeReceivedTsn = false →
      ReceiverStep heard a (a.receiver.performReset sequence lastTsn streams)
  /-- The first request tells which sequence number to expect. -/
  | expect (request : DeferredReset) (parameters : List ResetParameter) :
      heard (.reconfig parameters) →
      .outgoing request.sequence request.lastTsn request.streams ∈ parameters →
      ReceiverStep heard a
        { a.receiver with
          expectedResetSequence := if a.receiver.expectedResetSequence = 0 then request.sequence
            else a.receiver.expectedResetSequence }
  | defer (request : DeferredReset) (granted : Bool) (parameters : List ResetParameter) :
      heard (.reconfig parameters) →
      .outgoing request.sequence request.lastTsn request.streams ∈ parameters →
      ReceiverStep heard a (a.receiver.deferReset request granted)
  | deliveryPending (pending : Bool) :
      ReceiverStep heard a { a.receiver with deliveryPending := pending }
  | sackTimer (packets deadline : Nat) :
      ReceiverStep heard a
        { a.receiver with sackPendingPackets := packets, sackDeadlineMs := deadline }

/-- What a step may do to the rest of an association. -/
inductive PhaseStep (heard : Chunk → Prop) (a : Association) : Association → Prop where
  /-- What nothing here depends on: the clock, the heartbeat and the streams allocated. -/
  | idle (lastNowMs : Option Nat) (heartbeatDeadlineMs : Nat) (known : List Nat) :
      PhaseStep heard a { a with lastNowMs, heartbeatDeadlineMs, known }
  | start : a.state = .new → PhaseStep heard a (a.notifyState .connecting)
  /-- The peer introduces itself. -/
  | greet (values : InitValues) : heard (.init values) ∨ heard (.initAck values) →
      values.valid = true → a.state = .connecting →
      PhaseStep heard a (a.applyPeerInit values)
  | bake (cookie : Cookie) : a.state = .connecting → PhaseStep heard a { a with cookie }
  /-- The peer has answered. -/
  | connect (now : Nat) : a.state = .connecting →
      (heard .cookieAck ∧ a.config.role = .active ∨
        ∃ cookie : Cookie, a.cookie = some cookie ∧ heard (.cookieEcho cookie.bytes)) →
      PhaseStep heard a (a.connect now)
  | fail : PhaseStep heard a { a with state := .failed }
  /-- No more messages are accepted. -/
  | shutDown (shutdownPending : Bool) : a.state = .connected →
      PhaseStep heard a { a with state := .shuttingDown, shutdownPending }
  | peerShutDown (cumulative : Tsn) : heard (.shutdown cumulative) →
      PhaseStep heard a { a with state := .shuttingDown, peerShutdownPending := true }
  /-- The answer to a shutdown is no longer owed, or a shutdown no longer to be sent. -/
  | shutdownFlags (shutdownPending peerShutdownPending : Bool) :
      (shutdownPending = true → a.shutdownPending = true) →
      (peerShutdownPending = true → a.peerShutdownPending = true ∨
        ∃ cumulative, heard (.shutdown cumulative)) →
      PhaseStep heard a { a with shutdownPending, peerShutdownPending }
  | close : a.state = .shuttingDown → heard .shutdownAck ∨ heard .shutdownComplete →
      PhaseStep heard a (a.notifyState .closed)

/-- One step of an association that hears some chunks. -/
inductive Step (heard : Chunk → Prop) (a : Association) : Association → Prop where
  | link {link : Link} : LinkStep heard a link → Step heard a { a with link }
  | sender {sender : Sender} : SenderStep heard a sender → Step heard a { a with sender }
  | receiver {receiver : Receiver} : ReceiverStep heard a receiver →
      Step heard a { a with receiver }
  | phase {b : Association} : PhaseStep heard a b → Step heard a b

variable {heard : Chunk → Prop} {a b : Association}

theorem LinkStep.speaks {link : Link} {holds : Packet → Prop} (moved : LinkStep heard a link)
    (spoken : ∀ packet, Spoken heard a packet → holds packet) :
    (∀ packet, link.Has packet → holds packet) ∧
      ∃ new, link.wire = a.link.wire ++ new ∧ ∀ packet ∈ new, holds packet := by
  have still : ∃ new, a.link.wire = a.link.wire ++ new ∧ ∀ packet ∈ new, holds packet :=
    ⟨[], (List.append_nil _).symm, nofun⟩
  have kept : ∀ packet, a.link.Has packet → holds packet := fun packet has =>
    spoken packet (.kept has)
  cases moved with
  | @sent packet uttered =>
    refine ⟨kept, [packet], rfl, fun other member => ?_⟩
    rw [List.mem_singleton.1 member]
    exact spoken packet uttered
  | retained uttered _ =>
    refine ⟨?_, still⟩
    rintro other (pending | control)
    · cases pending
      exact spoken _ uttered
    · exact kept other (.inr control)
  | released =>
    refine ⟨?_, still⟩
    rintro other (pending | control)
    · cases pending
    · exact kept other (.inr control)
  | controlled deadline uttered free =>
    refine ⟨?_, still⟩
    rintro other (pending | control)
    · exact kept other (.inl pending)
    · cases control
      exact spoken _ (.said uttered free)
  | cleared =>
    refine ⟨?_, still⟩
    rintro other (pending | control)
    · exact kept other (.inl pending)
    · cases control
  | repeated found packet _ =>
    refine ⟨?_, still⟩
    rintro other (pending | control)
    · exact kept other (.inl pending)
    · cases control
      refine kept _ (.inr ?_)
      rw [found, packet]
      rfl

theorem Step.config_eq (stepped : Step heard a b) : b.config = a.config := by
  cases stepped with
  | phase moved => cases moved <;> rfl
  | _ => rfl

/-- What can become of the sending side: a step of its own, or the peer's first window. -/
theorem Step.sender_cases (stepped : Step heard a b) :
    b.sender = a.sender ∨ SenderStep heard a b.sender ∨
      ∃ window, b.sender = { a.sender with peerReceiveWindow := window } := by
  cases stepped with
  | link _ | receiver _ => exact .inl rfl
  | sender moved => exact .inr (.inl moved)
  | phase moved =>
    cases moved with
    | greet values => exact .inr (.inr ⟨values.receiveWindow, rfl⟩)
    | _ => exact .inl rfl

/-- What can become of the receiving side: a step of its own, or the peer's first TSN while the
association is being opened. -/
theorem Step.receiver_cases (stepped : Step heard a b) :
    b.receiver = a.receiver ∨ ReceiverStep heard a b.receiver ∨
      ∃ values, (heard (.init values) ∨ heard (.initAck values)) ∧ a.state = .connecting ∧
        b = a.applyPeerInit values := by
  cases stepped with
  | link _ | sender _ => exact .inl rfl
  | receiver moved => exact .inr (.inl moved)
  | phase moved =>
    cases moved with
    | greet values told _ opening => exact .inr (.inr ⟨values, told, opening, rfl⟩)
    | _ => exact .inl rfl

/-- Every answer of the surroundings is possible. -/
def Turn.Any (_ : Turn) : Prop := True

end Gizos.Sctp
