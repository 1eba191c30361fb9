import Gizos.Pal.Answer
import Gizos.Sctp.Serial

/-! # The state of an association

The records of the h2sctp provider, grouped by who works on them: the sending side, the receiving
side, what the handshake learnt about the peer, and the link that packets leave through. Chunks
are the values that the handlers read off the wire. What an association shows to its surroundings
(packets taken by the transport, messages taken by the consumer, resets it was told about) is kept
as well, in the order in which it happened.
-/
namespace Gizos.Sctp

open Serial

/-- A transmission sequence number. -/
abbrev Tsn : Type := Number

/-- `H2_PAL_ERR_TIMEOUT`. -/
def errTimeout : Int := -6
/-- `H2_PAL_ERR_WOULD_BLOCK`. -/
def errWouldBlock : Int := -9
/-- `H2_PAL_ERR_CLOSED`. -/
def errClosed : Int := -10
/-- `H2_PAL_ERR_BUSY`. -/
def errBusy : Int := -18
/-- `H2_PAL_EXIT`. -/
def exit : Int := 1

/-- `UINT32_MAX`. -/
def uint32Max : Nat := 2 ^ 32 - 1
/-- `H2_PAL_SCTP_NO_DEADLINE`. -/
def noDeadline : Nat := 2 ^ 64 - 1
/-- `H2_SCTP_COMMON_HEADER_SIZE`. -/
def commonHeaderSize : Nat := 12
/-- `H2_SCTP_RTO_MIN_MS`. -/
def rtoMinMs : Nat := 200
/-- `H2_SCTP_RTO_MAX_MS`. -/
def rtoMaxMs : Nat := 60000
/-- `H2_SCTP_HEARTBEAT_INTERVAL_MS`. -/
def heartbeatIntervalMs : Nat := 30000

/-- `h2_sctp_deadline_add`. -/
def deadlineAdd (now delta : Nat) : Nat :=
  if delta > 2 ^ 64 - 2 - now then 2 ^ 64 - 2 else now + delta

/-- Subtraction of the type `size_t`, which wraps. -/
def sizeSub (left right : Nat) : Nat := (left + 2 ^ 64 - right) % 2 ^ 64

/-- `h2_pal_sctp_role_t`. -/
inductive Role where
  | active
  | passive
deriving Repr, DecidableEq

/-- `h2_pal_sctp_state_t`. -/
inductive State where
  | new
  | connecting
  | connected
  | shuttingDown
  | closed
  | failed
deriving Repr, DecidableEq

/-- `h2_pal_sctp_reliability_t`, with the value that goes with it. -/
inductive Reliability where
  | reliable
  | maxRetransmits (count : Nat)
  | maxLifetimeMs (lifetime : Nat)
deriving Repr, DecidableEq

/-- `h2_pal_sctp_association_config_t`. -/
structure Config where
  role : Role
  localPort : Nat
  remotePort : Nat
  inboundStreams : Nat
  outboundStreams : Nat
  maxPacketSize : Nat
  maxMessageSize : Nat
  sendBufferSize : Nat
  receiveBufferSize : Nat
  cookieLifetimeMs : Nat
deriving Repr, DecidableEq

/-- `h2_pal_sctp_config_is_valid`, with the widths of the fields. -/
structure Config.Valid (config : Config) : Prop where
  localPort : config.localPort ≠ 0 ∧ config.localPort < 2 ^ 16
  remotePort : config.remotePort ≠ 0 ∧ config.remotePort < 2 ^ 16
  inboundStreams : config.inboundStreams ≠ 0 ∧ config.inboundStreams < 2 ^ 16
  outboundStreams : config.outboundStreams ≠ 0 ∧ config.outboundStreams < 2 ^ 16
  maxPacketSize : 128 ≤ config.maxPacketSize ∧ config.maxPacketSize < 2 ^ 16
  maxMessageSize : config.maxMessageSize ≠ 0
  receiveBufferSize : 1500 ≤ config.receiveBufferSize ∧
    config.maxMessageSize ≤ config.receiveBufferSize ∧ config.receiveBufferSize < 2 ^ 64
  sendBufferSize : config.maxMessageSize + config.maxPacketSize ≤ config.sendBufferSize ∧
    config.sendBufferSize < 2 ^ 64
  cookieLifetimeMs : config.cookieLifetimeMs ≠ 0

instance (config : Config) : Decidable config.Valid :=
  decidable_of_iff
    ((config.localPort ≠ 0 ∧ config.localPort < 2 ^ 16) ∧
      (config.remotePort ≠ 0 ∧ config.remotePort < 2 ^ 16) ∧
      (config.inboundStreams ≠ 0 ∧ config.inboundStreams < 2 ^ 16) ∧
      (config.outboundStreams ≠ 0 ∧ config.outboundStreams < 2 ^ 16) ∧
      (128 ≤ config.maxPacketSize ∧ config.maxPacketSize < 2 ^ 16) ∧
      config.maxMessageSize ≠ 0 ∧
      (1500 ≤ config.receiveBufferSize ∧ config.maxMessageSize ≤ config.receiveBufferSize ∧
        config.receiveBufferSize < 2 ^ 64) ∧
      (config.maxMessageSize + config.maxPacketSize ≤ config.sendBufferSize ∧
        config.sendBufferSize < 2 ^ 64) ∧
      config.cookieLifetimeMs ≠ 0)
    ⟨fun ⟨a, b, c, d, e, f, g, h, i⟩ => ⟨a, b, c, d, e, f, g, h, i⟩,
      fun ⟨a, b, c, d, e, f, g, h, i⟩ => ⟨a, b, c, d, e, f, g, h, i⟩⟩

/-- `h2_pal_sctp_message_t`. -/
structure Message where
  data : Bytes
  streamId : Nat
  ppid : Nat
  unordered : Bool
  reliability : Reliability
deriving Repr, DecidableEq

/-- `h2_pal_sctp_received_message_t`. -/
structure Received where
  data : Bytes
  streamId : Nat
  ppid : Nat
  unordered : Bool
deriving Repr, DecidableEq

/-- The flags of a DATA or I-DATA chunk; `reserved` is any bit beyond the four known ones. -/
structure DataFlags where
  first : Bool := false
  last : Bool := false
  unordered : Bool := false
  immediate : Bool := false
  reserved : Bool := false
deriving Repr, DecidableEq

/-- A DATA or I-DATA chunk. The `word` is the payload protocol identifier, or in an I-DATA chunk
that does not begin a message the fragment sequence number. -/
structure DataChunk where
  interleaved : Bool
  flags : DataFlags
  tsn : Tsn
  streamId : Nat
  /-- The reserved field of an I-DATA chunk is not zero. -/
  reserved : Bool := false
  messageIdentifier : BitVec 32
  word : Nat
  payload : Bytes
deriving Repr, DecidableEq

/-- A SACK chunk; duplicates are not looked at. -/
structure SackChunk where
  cumulative : Tsn
  window : Nat
  gaps : List (Nat × Nat)
deriving Repr, DecidableEq

/-- One stream of a FORWARD-TSN or I-FORWARD-TSN chunk. -/
structure ForwardEntry where
  streamId : Nat
  unordered : Bool := false
  /-- A flag beyond the known one is set. -/
  reserved : Bool := false
  identifier : BitVec 32
deriving Repr, DecidableEq

/-- A FORWARD-TSN or I-FORWARD-TSN chunk. -/
structure ForwardChunk where
  interleaved : Bool
  newCumulative : Tsn
  entries : List ForwardEntry
deriving Repr, DecidableEq

/-- A parameter of a RE-CONFIG chunk; `malformed` is one that the parser gives up on. -/
inductive ResetParameter where
  | outgoing (sequence : Number) (lastTsn : Tsn) (streams : List Nat)
  | response (sequence : Number) (code : Nat)
  | other
  | malformed (code : Int)
deriving Repr, DecidableEq

/-- `h2_sctp_init_values_t`. -/
structure InitValues where
  initiateTag : BitVec 32
  initialTsn : Tsn
  receiveWindow : Nat
  outboundStreams : Nat
  inboundStreams : Nat
  forwardTsn : Bool
  interleaving : Bool
  streamReset : Bool
  cookie : Option Bytes
deriving Repr, DecidableEq

/-- A chunk, as its handler reads it; `malformed` is one that its handler gives up on before it
does anything. -/
inductive Chunk where
  | init (values : InitValues)
  | initAck (values : InitValues)
  | cookieEcho (cookie : Bytes)
  | cookieAck
  | data (chunk : DataChunk)
  | sack (chunk : SackChunk)
  | forwardTsn (chunk : ForwardChunk)
  | reconfig (parameters : List ResetParameter)
  | heartbeat (info : Bytes)
  | heartbeatAck
  | shutdown (cumulative : Tsn)
  | shutdownAck
  | shutdownComplete
  | abort
  /-- A chunk of another type; the upper bits of the type may ask to stop. -/
  | unknown (stops : Bool)
  | malformed (code : Int)
deriving Repr, DecidableEq

/-- A packet. -/
structure Packet where
  sourcePort : Nat
  destinationPort : Nat
  verificationTag : BitVec 32
  chunks : List Chunk
deriving Repr, DecidableEq

/-- `h2_sctp_tx_fragment_t`. -/
structure TxFragment where
  messageId : Nat
  tsn : Tsn := 0
  messageIdentifier : BitVec 32
  fragmentSequence : Nat
  ppid : Nat
  streamId : Nat
  flags : DataFlags
  reliability : Reliability
  submittedMs : Nat
  sentMs : Nat := 0
  retransmits : Nat := 0
  missReports : Nat := 0
  fastRetransmit : Bool := false
  tsnAssigned : Bool := false
  sent : Bool := false
  acknowledged : Bool := false
  abandoned : Bool := false
  dataLen : Nat
  data : Option Bytes
deriving Repr, DecidableEq

namespace TxFragment

/-- Neither acknowledged nor abandoned. -/
def live (fragment : TxFragment) : Bool := !fragment.acknowledged && !fragment.abandoned

/-- Sent, and still to be acknowledged. -/
def outstanding (fragment : TxFragment) : Bool := fragment.sent && fragment.live

/-- Still to be sent for the first time. -/
def waiting (fragment : TxFragment) : Bool := !fragment.sent && fragment.live

end TxFragment

/-- Where the payload of a received fragment is: in its own allocation, or at an offset of the
assembly buffer. -/
inductive Payload where
  | own (bytes : Bytes)
  | assembly (offset : Nat)
deriving Repr, DecidableEq

/-- `h2_sctp_rx_fragment_t`; the `node` stands for its address, which is never used twice. -/
structure RxFragment where
  node : Nat
  tsn : Tsn
  messageIdentifier : BitVec 32
  fragmentSequence : Nat
  ppid : Nat
  streamId : Nat
  flags : DataFlags
  interleaved : Bool
  delivered : Bool := false
  assembled : Bool
  dataLen : Nat
  data : Option Payload
deriving Repr, DecidableEq

/-- The counters of `h2_sctp_stream_t` for outgoing messages. -/
structure OutStream where
  nextSsn : BitVec 16 := 0
  nextMidOrdered : BitVec 32 := 0
  nextMidUnordered : BitVec 32 := 0
  resetPending : Bool := false
  resetRequestSequence : Number := 0
deriving Repr, DecidableEq

/-- The counters of `h2_sctp_stream_t` for incoming messages. -/
structure InStream where
  nextSsn : BitVec 16 := 0
  nextMidOrdered : BitVec 32 := 0
  nextMidUnordered : BitVec 32 := 0
deriving Repr, DecidableEq

/-- A request to reset an outgoing stream: its number, the last TSN it announces, and how many
messages had been queued by then. -/
structure ResetRequest where
  streamId : Nat
  sequence : Number
  lastTsn : Tsn
  queued : Nat
deriving Repr, DecidableEq

/-- A stream whose counters started over, for a request, and how many messages had been queued by
then. -/
structure Restart where
  streamId : Nat
  sequence : Number
  queued : Nat
deriving Repr, DecidableEq

/-- A transmission of a fragment: a packet with it was taken, or is retained. -/
structure Sending where
  tsn : Tsn
  sentMs : Nat
  retransmission : Bool
deriving Repr, DecidableEq

/-- The sending side. A stream that was never allocated has the counters of a fresh one. -/
structure Sender where
  initialTsn : Tsn
  nextTsn : Tsn
  peerCumulativeTsn : Tsn
  advancedPeerAck : Tsn
  nextMessageId : Nat := 0
  lastScheduledStream : Nat := 0
  flightSize : Nat := 0
  sendUsed : Nat := 0
  peerReceiveWindow : Nat := uint32Max
  cwnd : Nat
  ssthresh : Nat := uint32Max
  /-- The TSN that ends fast recovery, while it is active. -/
  fastRecovery : Option Tsn := none
  rtoMs : Nat := 1000
  srttMs : Nat := 0
  rttvarMs : Nat := 0
  rttInitialized : Bool := false
  /-- The TSN that is timed and when it was sent, while a sample is pending. -/
  rttSample : Option (Tsn × Nat) := none
  nextResetSequence : Number
  outgoing : Nat → OutStream := fun _ => {}
  tx : List TxFragment := []
  /-- The messages that were queued so far. -/
  accepted : List Message := []
  /-- The fragments that got a TSN so far, as they were then. -/
  assigned : List TxFragment := []
  /-- The reset requests that were made so far. -/
  requests : List ResetRequest := []
  /-- The resets that the peer has performed, as far as this side was told. -/
  restarts : List Restart := []
  /-- The largest congestion window at which data was acknowledged. -/
  peak : Nat := 0
  /-- The most TSNs that were in use at a time. -/
  widest : Nat := 0
  /-- The transmissions so far. -/
  sendings : List Sending := []

/-- An incoming reset that waits for its data. -/
structure DeferredReset where
  sequence : Number
  lastTsn : Tsn
  streams : List Nat
deriving Repr, DecidableEq

/-- What moves the cumulative point: a fragment that is kept, or a FORWARD-TSN or I-FORWARD-TSN
chunk. -/
inductive Arrival where
  | data (tsn : Tsn)
  | forward (newCumulative : Tsn)
deriving Repr, DecidableEq

/-- The receiving side. -/
structure Receiver where
  cumulativeReceivedTsn : Tsn := 0
  receiveUsed : Nat := 0
  rx : List RxFragment := []
  incoming : Nat → InStream := fun _ => {}
  /-- `rx_assembly`, if there was memory for it. -/
  assembly : Option Bytes
  assemblyLen : Nat := 0
  assemblyCount : Nat := 0
  /-- `rx_assembly_begin`, by its address. -/
  assemblyBegin : Option Nat := none
  /-- The address of the next fragment. -/
  nextNode : Nat := 0
  deliveryPending : Bool := false
  sackPendingPackets : Nat := 0
  sackDeadlineMs : Nat := noDeadline
  expectedResetSequence : Number := 0
  deferredReset : Option DeferredReset := none
  /-- The messages that the consumer has taken. -/
  inbox : List Received := []
  /-- What has moved the cumulative point, in order. -/
  arrivals : List Arrival := []
  /-- The sequence numbers of the reset requests that were performed. -/
  performed : List Number := []
  /-- A fragment was read after it had been freed: what the code does from here on is not
  determined. -/
  wild : Bool := false

/-- `h2_sctp_control_kind_t`. -/
inductive ControlKind where
  | init
  | cookieEcho
  | shutdown
  | reset
deriving Repr, DecidableEq

/-- The control packet that is repeated until it is answered. -/
structure Control where
  packet : Packet
  kind : ControlKind
  retries : Nat := 0
  resetInProgress : Bool := false
  resetRetries : Nat := 0
  deadlineMs : Nat
deriving Repr, DecidableEq

/-- The way out: the packet that the transport has refused, the control packet, and the packets
that the transport has taken. -/
structure Link where
  pendingEmit : Option Packet := none
  control : Option Control := none
  wire : List Packet := []
deriving Repr, DecidableEq

/-- What the handshake has learnt about the peer. -/
structure Peer where
  verificationTag : BitVec 32 := 0
  initialTsn : Tsn := 0
  inboundStreams : Nat := 0
  outboundStreams : Nat := 0
  forwardTsn : Bool := false
  interleaving : Bool := false
  streamReset : Bool := false
deriving Repr, DecidableEq

/-- The cookie of a passive opening. -/
structure Cookie where
  bytes : Bytes
  expiresMs : Nat
deriving Repr, DecidableEq

/-- `h2_pal_sctp_association`. -/
structure Association where
  config : Config
  state : State := .new
  lastNowMs : Option Nat := none
  localVerificationTag : BitVec 32
  peer : Peer := {}
  cookie : Option Cookie := none
  shutdownPending : Bool := false
  peerShutdownPending : Bool := false
  heartbeatDeadlineMs : Nat := noDeadline
  /-- The streams that have been allocated, the latest first. -/
  known : List Nat := []
  link : Link := {}
  sender : Sender
  receiver : Receiver

/-- What the surroundings do at one call: whether memory is granted, which result a callback
reports, and the bytes that a random source returns. -/
structure Turn where
  granted : Bool := true
  code : Int := 0
  random : Bytes := []
deriving Repr, DecidableEq

instance : Inhabited Turn := ⟨{}⟩

/-- A routine of the provider. -/
abbrev Op (α : Type) : Type := Fault.Program Turn Association α

end Gizos.Sctp
