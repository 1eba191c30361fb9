import Gizos.Sctp.State
import Mathlib.Logic.Function.Basic

/-! # The receiving side

What `h2_sctp_stream.c` does to the fragments that were received, between two calls of the
surroundings.
-/
namespace Gizos.Sctp

open Serial

namespace RxFragment

variable {fragment first : RxFragment}

/-- `h2_sctp_stream_same_message`. -/
def sameMessage (fragment : RxFragment) (streamId : Nat) (identifier : BitVec 32)
    (unordered interleaved : Bool) : Bool :=
  fragment.streamId = streamId && fragment.messageIdentifier = identifier &&
    fragment.flags.unordered = unordered && fragment.interleaved = interleaved &&
    !fragment.delivered && fragment.data.isSome

/-- A fragment belongs to the message that another one begins. -/
def partOf (fragment first : RxFragment) : Bool :=
  fragment.sameMessage first.streamId first.messageIdentifier first.flags.unordered
    first.interleaved

/-- The fragment is the one of a message that has a sequence number, or without interleaving the
one that has a TSN. -/
def fits (fragment first : RxFragment) (sequence : Nat) : Bool :=
  fragment.partOf first &&
    if first.interleaved then fragment.fragmentSequence = sequence
    else fragment.tsn = first.tsn + BitVec.ofNat 32 sequence

/-- The fragment after its message was handed over. -/
def handedOver (fragment : RxFragment) : RxFragment :=
  { fragment with data := none, dataLen := 0, delivered := true }

end RxFragment

/-- The number that the next ordered message of a stream must have. -/
def InStream.expected (stream : InStream) (interleaved : Bool) : BitVec 32 :=
  if interleaved then stream.nextMidOrdered else stream.nextSsn.setWidth 32

/-- The counters after an ordered message was handed over. -/
def InStream.advance (stream : InStream) (interleaved : Bool) : InStream :=
  if interleaved then { stream with nextMidOrdered := stream.nextMidOrdered + 1 }
  else { stream with nextSsn := stream.nextSsn + 1 }

/-- The counters after an entry of a FORWARD-TSN or I-FORWARD-TSN chunk. -/
def InStream.forward (stream : InStream) (interleaved : Bool) (entry : ForwardEntry) : InStream :=
  if interleaved then
    if entry.unordered then
      if after stream.nextMidUnordered entry.identifier then stream
      else { stream with nextMidUnordered := entry.identifier + 1 }
    else if after stream.nextMidOrdered entry.identifier then stream
    else { stream with nextMidOrdered := entry.identifier + 1 }
  else
    let following := entry.identifier.setWidth 16 + 1
    if (following - stream.nextSsn).toNat < 32767 then { stream with nextSsn := following }
    else stream

/-- The first fragment that a message needs at a sequence number, and what follows it in the list:
`h2_sctp_stream_find_message_fragment`. -/
def findFragment (first : RxFragment) (sequence : Nat) :
    List RxFragment → Option (RxFragment × List RxFragment)
  | [] => none
  | fragment :: rest =>
    if fragment.fits first sequence then some (fragment, rest)
    else findFragment first sequence rest

/-- The loop of `h2_sctp_stream_message_ready`: the fragments of a message, if they are all there
and not too long. -/
def collect (first : RxFragment) (limit : Nat) :
    Nat → Nat → Nat → List RxFragment → Option (List RxFragment)
  | 0, _, _, _ => none
  | fuel + 1, sequence, total, list =>
    match findFragment first sequence list with
    | none => none
    | some (fragment, rest) =>
      if limit < total + fragment.dataLen then none
      else if fragment.flags.last then some [fragment]
      else (collect first limit fuel (sequence + 1) (total + fragment.dataLen) rest).map
        (fragment :: ·)

namespace Receiver

variable (receiver : Receiver) (fragment first : RxFragment)

/-- The fragment at an address, if it is still there. -/
def nodeAt (node : Nat) : Option RxFragment :=
  receiver.rx.find? fun fragment => fragment.node = node

/-- `h2_sctp_stream_find_rx_tsn`. -/
def hasTsn (tsn : Tsn) : Bool :=
  receiver.rx.any fun fragment => fragment.tsn = tsn

/-- `h2_sctp_stream_insert_rx`: at the end if the last fragment comes before, otherwise before the
first one that does not. -/
def insertRx (rx : List RxFragment) : List RxFragment :=
  match rx.getLast? with
  | none => [fragment]
  | some last =>
    if before last.tsn fragment.tsn then rx ++ [fragment]
    else rx.takeWhile (fun other => before other.tsn fragment.tsn) ++
      fragment :: rx.dropWhile fun other => before other.tsn fragment.tsn

/-- The cumulative point after the fragments that follow it without a hole. -/
def runThrough (cumulative : Tsn) : List RxFragment → Tsn
  | [] => cumulative
  | fragment :: rest =>
    if fragment.tsn = cumulative + 1 then runThrough fragment.tsn rest else cumulative

/-- `h2_sctp_stream_advance_cumulative`, from the fragment at an address on. -/
def advanceCumulative (node : Nat) : Receiver :=
  { receiver with
    cumulativeReceivedTsn := runThrough receiver.cumulativeReceivedTsn
      (receiver.rx.dropWhile fun fragment => fragment.node ≠ node) }

/-- The bytes of a fragment, wherever they are. -/
def bytesOf : Bytes :=
  match fragment.data with
  | none => []
  | some (.own bytes) => bytes
  | some (.assembly offset) =>
    ((receiver.assembly.getD []).drop offset).take fragment.dataLen

/-- `h2_sctp_stream_assembly_reset`. -/
def assemblyReset : Receiver :=
  { receiver with
    rx := receiver.rx.map fun fragment =>
      if fragment.assembled && !fragment.delivered then { fragment with data := none }
      else fragment
    assemblyLen := 0
    assemblyCount := 0
    assemblyBegin := none }

/-- `h2_sctp_stream_message_ready`: the fragments of the message that a fragment begins. -/
def messageReady (limit : Nat) (first : RxFragment) : Option (List RxFragment) :=
  let list := receiver.rx.dropWhile fun fragment => fragment.node ≠ first.node
  collect first limit list.length 0 0 list

/-- The length of the payload of some fragments. -/
def totalLen (fragments : List RxFragment) : Nat := (fragments.map RxFragment.dataLen).sum

/-- `h2_sctp_stream_assembly_complete`. -/
def assemblyComplete (parts : List RxFragment) : Bool :=
  first.assembled && receiver.assemblyBegin = some first.node &&
    receiver.assemblyCount = parts.length && receiver.assemblyLen = totalLen parts

/-- The message that the consumer sees: the front of the assembly buffer, or a copy of the
fragments. -/
def received (parts : List RxFragment) : Received where
  data :=
    if receiver.assemblyComplete first parts then
      (receiver.assembly.getD []).take (totalLen parts)
    else parts.flatMap receiver.bytesOf
  streamId := first.streamId
  ppid := first.ppid
  unordered := first.flags.unordered

/-- What `h2_sctp_stream_deliver_one` does once the consumer has taken the message. -/
def handOver (parts : List RxFragment) : Receiver :=
  let complete := receiver.assemblyComplete first parts
  { receiver with
    assemblyLen := if complete then 0 else receiver.assemblyLen
    assemblyCount := if complete then 0 else receiver.assemblyCount
    assemblyBegin := if complete then none else receiver.assemblyBegin
    receiveUsed := parts.foldl (fun used part => sizeSub used part.dataLen) receiver.receiveUsed
    rx := receiver.rx.map fun fragment =>
      if fragment.node ∈ parts.map RxFragment.node then fragment.handedOver else fragment }

/-- The counter of a stream after an ordered message was handed over. -/
def countOrdered : Receiver :=
  if first.flags.unordered then receiver
  else
    { receiver with
      incoming := Function.update receiver.incoming first.streamId
        ((receiver.incoming first.streamId).advance first.interleaved) }

/-- `h2_sctp_stream_prune_delivered`. -/
def pruneDelivered : Receiver :=
  { receiver with
    rx := receiver.rx.filter fun fragment =>
      !(fragment.delivered && !after fragment.tsn receiver.cumulativeReceivedTsn) }

/-- A message that a fragment begins may be handed over: it is unordered, or the next one. -/
def due : Bool :=
  first.flags.unordered ||
    first.messageIdentifier = (receiver.incoming first.streamId).expected first.interleaved

/-- The fragment that an accepted chunk becomes, except for its payload. -/
def header (chunk : DataChunk) (assembled : Bool) : RxFragment where
  node := receiver.nextNode
  tsn := chunk.tsn
  messageIdentifier :=
    if chunk.interleaved then chunk.messageIdentifier
    else (chunk.messageIdentifier.setWidth 16).setWidth 32
  fragmentSequence := if chunk.interleaved && !chunk.flags.first then chunk.word else 0
  ppid := if chunk.interleaved && !chunk.flags.first then 0 else chunk.word
  streamId := chunk.streamId
  flags := chunk.flags
  interleaved := chunk.interleaved
  assembled
  dataLen := chunk.payload.length
  data := some (if assembled then .assembly receiver.assemblyLen else .own chunk.payload)

/-- The chunk continues the message whose first fragment is given. -/
def continues (chunk : DataChunk) (first : RxFragment) : Bool :=
  let header := receiver.header chunk true
  first.sameMessage header.streamId header.messageIdentifier header.flags.unordered
      header.interleaved &&
    if chunk.interleaved then header.fragmentSequence = receiver.assemblyCount
    else chunk.tsn = first.tsn + BitVec.ofNat 32 receiver.assemblyCount

/-- The chunk comes next and has room in the assembly buffer. -/
def mayAssemble (config : Config) (chunk : DataChunk) : Bool :=
  chunk.tsn = receiver.cumulativeReceivedTsn + 1 && receiver.assembly.isSome &&
    chunk.payload.length ≤ config.maxMessageSize - receiver.assemblyLen

/-- The chunk is put in place: it begins a message while none is being assembled, or it continues
the one that is. -/
def assembles (config : Config) (chunk : DataChunk) : Bool :=
  receiver.mayAssemble config chunk &&
    match receiver.assemblyBegin with
    | none => chunk.flags.first
    | some node =>
      !chunk.flags.first && match receiver.nodeAt node with
        | some first => receiver.continues chunk first
        | none => false

/-- To decide whether to put the chunk in place, the first fragment of the message that is being
assembled is read, and it is not there any more. -/
def readsFreed (config : Config) (chunk : DataChunk) : Bool :=
  receiver.mayAssemble config chunk && !chunk.flags.first &&
    match receiver.assemblyBegin with
    | none => false
    | some node => (receiver.nodeAt node).isNone

/-- Bytes written over a buffer at an offset. -/
def overwrite (buffer : Bytes) (offset : Nat) (bytes : Bytes) : Bytes :=
  buffer.take offset ++ bytes ++ buffer.drop (offset + bytes.length)

/-- A chunk becomes a fragment of the list. -/
def store (chunk : DataChunk) (assembled : Bool) : Receiver :=
  let fragment := receiver.header chunk assembled
  { receiver with
    nextNode := receiver.nextNode + 1
    rx := insertRx fragment receiver.rx
    assembly := if assembled then
        receiver.assembly.map fun buffer => overwrite buffer receiver.assemblyLen chunk.payload
      else receiver.assembly
    assemblyLen := if assembled then receiver.assemblyLen + chunk.payload.length
      else receiver.assemblyLen
    assemblyCount := if assembled then receiver.assemblyCount + 1 else receiver.assemblyCount
    assemblyBegin := if assembled && chunk.flags.first then some fragment.node
      else receiver.assemblyBegin }

/-- `h2_sctp_stream_undo_rx`. -/
def undo : Receiver :=
  { receiver with
    rx := receiver.rx.filter fun other => other.node ≠ fragment.node
    assemblyLen := if fragment.assembled then sizeSub receiver.assemblyLen fragment.dataLen
      else receiver.assemblyLen
    assemblyCount := if fragment.assembled then receiver.assemblyCount - 1
      else receiver.assemblyCount
    assemblyBegin :=
      if fragment.assembled && receiver.assemblyBegin = some fragment.node then none
      else receiver.assemblyBegin }

/-- Where the message of a new fragment begins. -/
def firstOf : Option RxFragment :=
  if fragment.flags.first then some fragment
  else if fragment.assembled then receiver.assemblyBegin.bind receiver.nodeAt
  else receiver.rx.find? fun candidate => candidate.flags.first &&
    candidate.sameMessage fragment.streamId fragment.messageIdentifier fragment.flags.unordered
      fragment.interleaved

/-- The payload of a fragment that stays counts, and the cumulative point moves. -/
def keep : Receiver :=
  { receiver with
    receiveUsed := receiver.receiveUsed + fragment.dataLen
    arrivals := receiver.arrivals ++ [Arrival.data fragment.tsn] }.advanceCumulative fragment.node

/-- Drops the fragments that are hit. If one of them was put in place for a message that is still
incomplete, the assembly starts over. -/
def discard (hit : RxFragment → Bool) : Receiver :=
  let dropped := receiver.rx.filter hit
  let rest := { receiver with
    rx := receiver.rx.filter fun fragment => !hit fragment
    receiveUsed := dropped.foldl (fun used fragment => sizeSub used fragment.dataLen)
      receiver.receiveUsed }
  if dropped.any fun fragment => fragment.assembled && !fragment.delivered then rest.assemblyReset
  else rest

/-- What `h2_sctp_stream_handle_forward_tsn` does once the streams are there:
`h2_sctp_stream_discard_through`, then the counters. -/
def forward (chunk : ForwardChunk) : Receiver :=
  let receiver := { receiver with cumulativeReceivedTsn := chunk.newCumulative }.discard
    fun fragment => !after fragment.tsn chunk.newCumulative
  { receiver with
    incoming := chunk.entries.foldl (fun incoming entry =>
      Function.update incoming entry.streamId
        ((incoming entry.streamId).forward chunk.interleaved entry)) receiver.incoming
    arrivals := receiver.arrivals ++ [Arrival.forward chunk.newCumulative]
    deliveryPending := true }

/-- `h2_sctp_stream_reset_incoming`. -/
def resetIncoming (lastTsn : Tsn) (receiver : Receiver) (streamId : Nat) : Receiver :=
  { receiver with incoming := Function.update receiver.incoming streamId {} }.discard
    fun fragment => fragment.streamId = streamId && !after fragment.tsn lastTsn

/-- A reset request is performed for all its streams. -/
def performReset (sequence : Number) (lastTsn : Tsn) (streams : List Nat) : Receiver :=
  { streams.foldl (resetIncoming lastTsn) { receiver with deferredReset := none } with
    expectedResetSequence := receiver.expectedResetSequence + 1
    performed := receiver.performed ++ [sequence]
    deliveryPending := true }

/-- A request is remembered, unless it already is; without memory nothing is. -/
def deferReset (request : DeferredReset) (granted : Bool) : Receiver :=
  { receiver with deferredReset := if granted then some request else none }

/-- The gap block that begins at a TSN: its last TSN, and what follows it. -/
def runEnd (tsn : Tsn) : List RxFragment → Tsn × List RxFragment
  | [] => (tsn, [])
  | fragment :: rest =>
    if fragment.tsn = tsn + 1 then runEnd fragment.tsn rest else (tsn, fragment :: rest)

/-- The gap blocks of `h2_sctp_reliability_send_sack`, up to a number. -/
def gapBlocks (cumulative : Tsn) : Nat → List RxFragment → List (Nat × Nat)
  | 0, _ => []
  | count + 1, list =>
    match list.dropWhile fun fragment => !after fragment.tsn cumulative with
    | [] => []
    | fragment :: rest =>
      let (last, following) := runEnd fragment.tsn rest
      let first := (fragment.tsn - cumulative).toNat
      let stop := (last - cumulative).toNat
      if 65535 < first ∨ 65535 < stop then []
      else (first, stop) :: gapBlocks cumulative count following

/-- The chunk of `h2_sctp_reliability_send_sack`. -/
def sackChunk (config : Config) : SackChunk where
  cumulative := receiver.cumulativeReceivedTsn
  window := min uint32Max (sizeSub config.receiveBufferSize receiver.receiveUsed)
  gaps := gapBlocks receiver.cumulativeReceivedTsn 16 receiver.rx

/-- Wherever a fragment goes, the others stay as they are. -/
theorem insertRx_perm (rx : List RxFragment) :
    (insertRx fragment rx).Perm (fragment :: rx) := by
  unfold insertRx
  split
  · rename_i empty
    rw [List.getLast?_eq_none_iff.1 empty]
  · split
    · exact List.perm_append_singleton fragment rx
    · refine List.perm_middle.trans ?_
      rw [List.takeWhile_append_dropWhile]

variable {fragment}

/-- A fragment that is inserted and taken out again leaves the list as it was. -/
theorem filter_insertRx {rx : List RxFragment} (fresh : ∀ other ∈ rx, other.node ≠ fragment.node) :
    (insertRx fragment rx).filter (fun other => other.node ≠ fragment.node) = rx := by
  have whole : ∀ list : List RxFragment, (∀ other ∈ list, other ∈ rx) →
      list.filter (fun other => decide (other.node ≠ fragment.node)) = list := by
    intro list part
    refine List.filter_eq_self.2 fun other member => ?_
    simpa using fresh other (part other member)
  unfold insertRx
  split
  · rename_i empty
    rw [List.getLast?_eq_none_iff.1 empty]
    simp
  · split
    · rw [List.filter_append, whole rx fun _ member => member]
      simp
    · rw [List.filter_append, whole _ fun _ member => (List.takeWhile_sublist _).mem member,
        List.filter_cons_of_neg (by simp), whole _ fun _ member =>
          (List.dropWhile_sublist _).mem member, List.takeWhile_append_dropWhile]

end Receiver

theorem findFragment_some {sequence : Nat} {list rest : List RxFragment}
    (found : findFragment first sequence list = some (fragment, rest)) :
    fragment.fits first sequence = true ∧ ∃ front, list = front ++ fragment :: rest := by
  induction list with
  | nil => cases found
  | cons head tail ih =>
    unfold findFragment at found
    by_cases fits : head.fits first sequence = true
    · rw [if_pos fits] at found
      cases found
      exact ⟨fits, [], rfl⟩
    · rw [if_neg fits] at found
      obtain ⟨met, front, rfl⟩ := ih found
      exact ⟨met, head :: front, rfl⟩

/-- The fragments that a message is put together from are in the list, in that order. -/
theorem collect_sublist {limit : Nat} :
    ∀ {fuel sequence total : Nat} {list parts : List RxFragment},
      collect first limit fuel sequence total list = some parts → parts.Sublist list
  | 0, _, _, _, _, collected => by cases collected
  | fuel + 1, sequence, total, list, parts, collected => by
    unfold collect at collected
    split at collected
    · cases collected
    · rename_i fragment rest found
      obtain ⟨_, front, rfl⟩ := findFragment_some found
      refine List.Sublist.trans ?_ (List.sublist_append_right front (fragment :: rest))
      split at collected
      · cases collected
      · split at collected
        · cases collected
          exact List.Sublist.cons_cons fragment (List.nil_sublist rest)
        · obtain ⟨others, further, rfl⟩ := Option.map_eq_some_iff.1 collected
          exact List.Sublist.cons_cons fragment (collect_sublist further)

end Gizos.Sctp
