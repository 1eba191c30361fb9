import Gizos.Sctp.Run
import Gizos.Tally

/-! # What the counters of an association count

The bytes in flight, the bytes of the send buffer and the bytes of the receive buffer are sums over
the queues, at every step of every run.
-/
namespace Gizos.Sctp

open Serial

namespace TxFragment

/-- The bytes of a fragment that take room in the send buffer. -/
def liveLen (fragment : TxFragment) : Nat := if fragment.live then fragment.dataLen else 0

/-- The bytes of a fragment that are in flight. -/
def flightLen (fragment : TxFragment) : Nat := if fragment.outstanding then fragment.dataLen else 0

/-- The bytes of a fragment that were sent. -/
def sentLen (fragment : TxFragment) : Nat := if fragment.sent then fragment.dataLen else 0

end TxFragment

open TxFragment (liveLen flightLen sentLen outstanding)

namespace Sender

/-- The counters of the sending side are the sums that they stand for. -/
structure Exact (sender : Sender) (config : Config) : Prop where
  flight : sender.flightSize = tally flightLen sender.tx
  used : sender.sendUsed = tally liveLen sender.tx
  room : sender.sendUsed ≤ config.sendBufferSize

variable {sender : Sender} {config : Config}

/-- Accounting that gives back the bytes of a fragment, whatever else it does. -/
structure Releases (account : Sender → TxFragment → Sender) : Prop where
  flight : ∀ sender fragment,
    (account sender fragment).flightSize = (sender.releaseBytes fragment).flightSize
  used : ∀ sender fragment,
    (account sender fragment).sendUsed = (sender.releaseBytes fragment).sendUsed

theorem releases_accountAbandoned : Releases accountAbandoned := by
  constructor
  all_goals
    intro sender fragment
    unfold accountAbandoned
    split <;> rfl

theorem releases_sampled (now : Nat) : Releases fun sender fragment =>
    (sender.sampleRtt now fragment).accountAcknowledged fragment := by
  constructor
  all_goals
    intro sender fragment
    unfold accountAcknowledged sampleRtt
    split
    · rfl
    · split
      · rfl
      · split <;> rfl

/-- A pass over fragments that are all counted gives back each of them: no guard skips one. -/
theorem foldl_release {account : Sender → TxFragment → Sender} (releases : Releases account) :
    ∀ (hits : List TxFragment) (sender : Sender),
      tally sentLen hits ≤ sender.flightSize →
      tally TxFragment.dataLen hits ≤ sender.sendUsed →
      (hits.foldl account sender).flightSize + tally sentLen hits = sender.flightSize ∧
        (hits.foldl account sender).sendUsed + tally TxFragment.dataLen hits = sender.sendUsed := by
  intro hits
  induction hits with
  | nil =>
    intro sender _ _
    exact ⟨rfl, rfl⟩
  | cons fragment rest ih =>
    intro sender flight used
    simp only [tally_cons] at flight used ⊢
    have flightOne : (account sender fragment).flightSize + fragment.sentLen =
        sender.flightSize := by
      rw [releases.flight]
      unfold sentLen at flight ⊢
      unfold releaseBytes
      by_cases sent : fragment.sent = true
      · rw [if_pos sent] at flight
        have enough : fragment.dataLen ≤ sender.flightSize := by omega
        simp only [sent, enough, decide_true, Bool.and_self, if_true]
        omega
      · simp [sent]
    have usedOne : (account sender fragment).sendUsed + fragment.dataLen = sender.sendUsed := by
      rw [releases.used]
      unfold releaseBytes
      have enough : fragment.dataLen ≤ sender.sendUsed := by omega
      simp only [enough, if_true]
      omega
    have further := ih (account sender fragment) (by omega) (by omega)
    simp only [List.foldl_cons]
    omega

/-- What a pass hits and what it leaves add up to the whole. -/
theorem tally_settled (weight part : TxFragment → Nat) {hit : TxFragment → Bool}
    {settled : TxFragment → TxFragment} (tx : List TxFragment)
    (taken : ∀ fragment, hit fragment = true → weight fragment = part fragment)
    (gone : ∀ fragment, weight (settled fragment) = 0) :
    tally weight (tx.map fun fragment => if hit fragment then settled fragment else fragment) +
      tally part (tx.filter hit) = tally weight tx := by
  rw [tally_map, tally_filter, ← tally_add]
  refine tally_congr fun fragment _ => ?_
  by_cases met : hit fragment = true
  · simp [met, gone, taken fragment met]
  · simp [met]

section

variable (exact : sender.Exact config)

include exact

theorem Exact.settle {hit : TxFragment → Bool} {settled : TxFragment → TxFragment}
    {account : Sender → TxFragment → Sender} (releases : Releases account)
    (live : ∀ fragment, hit fragment = true → fragment.live = true)
    (gone : ∀ fragment, (settled fragment).live = false) :
    (sender.settle hit settled account).Exact config := by
  have flight : tally flightLen (sender.settle hit settled account).tx +
      tally sentLen (sender.tx.filter hit) = tally flightLen sender.tx := by
    refine tally_settled _ _ sender.tx (fun fragment met => ?_) fun fragment => ?_
    · simp [flightLen, sentLen, outstanding, live fragment met]
    · simp [flightLen, outstanding, gone fragment]
  have used : tally liveLen (sender.settle hit settled account).tx +
      tally TxFragment.dataLen (sender.tx.filter hit) = tally liveLen sender.tx := by
    refine tally_settled _ _ sender.tx (fun fragment met => ?_) fun fragment => ?_
    · simp [liveLen, live fragment met]
    · simp [liveLen, gone fragment]
  have flightExact := exact.flight
  have usedExact := exact.used
  have room := exact.room
  have passed := foldl_release releases (sender.tx.filter hit) sender (by omega) (by omega)
  refine ⟨?_, ?_, ?_⟩ <;> simp only [Sender.settle] at flight used ⊢ <;> omega

/-- A queue whose fragments weigh the same keeps the counters exact. -/
theorem Exact.reweigh {other : Sender} (flightSize : other.flightSize = sender.flightSize)
    (sendUsed : other.sendUsed = sender.sendUsed)
    (flight : tally flightLen other.tx = tally flightLen sender.tx)
    (used : tally liveLen other.tx = tally liveLen sender.tx) :
    other.Exact config :=
  ⟨by rw [flightSize, flight, exact.flight], by rw [sendUsed, used, exact.used],
    by rw [sendUsed]; exact exact.room⟩

theorem Exact.relabel {other : Sender} (flightSize : other.flightSize = sender.flightSize)
    (sendUsed : other.sendUsed = sender.sendUsed) {index : Nat} {change : TxFragment → TxFragment}
    (queue : other.tx = sender.tx.modify index change)
    (same : ∀ fragment, (change fragment).outstanding = fragment.outstanding ∧
      (change fragment).live = fragment.live ∧ (change fragment).dataLen = fragment.dataLen) :
    other.Exact config := by
  have weighs : ∀ weight : TxFragment → Nat, (∀ fragment, weight (change fragment) =
    weight fragment) → tally weight other.tx = tally weight sender.tx := by
    intro weight unchanged
    rw [queue]
    cases found : sender.tx[index]? with
    | none => rw [List.modify_eq_self (List.getElem?_eq_none_iff.1 found)]
    | some fragment =>
      have exchanged : tally weight (sender.tx.modify index change) + weight fragment =
          tally weight sender.tx + weight (change fragment) := tally_modify weight found
      rw [unchanged fragment] at exchanged
      omega
  refine exact.reweigh flightSize sendUsed (weighs _ fun fragment => ?_)
    (weighs _ fun fragment => ?_)
  · simp only [flightLen, same fragment]
  · simp only [liveLen, same fragment]

/-- Dropping settled fragments frees no bytes. -/
theorem Exact.prune (through : Tsn) : (sender.prune through).Exact config := by
  refine exact.reweigh rfl rfl (tally_filter_eq ?_) (tally_filter_eq ?_)
  all_goals
    intro fragment _ dropped
    simp only [Bool.not_eq_false', Bool.and_eq_true, Bool.not_eq_true'] at dropped
    simp [flightLen, liveLen, outstanding, dropped.2]

end

/-- The first fragments of a message hold its front. -/
theorem tally_front (data : Bytes) (size count : Nat) :
    tally (fun index => ((data.drop (index * size)).take size).length) (List.range count) =
      min (count * size) data.length := by
  induction count with
  | zero => simp
  | succ count ih =>
    rw [List.range_succ, tally_append, ih, Nat.succ_mul]
    simp only [tally_cons, tally_nil, List.length_take, List.length_drop]
    omega

theorem le_fragmentCount_mul {length : Nat} (positive : 0 < size) :
    length ≤ fragmentCount length size * size := by
  have whole := Nat.div_add_mod length size
  have rest := Nat.mod_lt length positive
  unfold fragmentCount
  rw [Nat.add_mul, Nat.mul_comm (length / size)]
  split
  · omega
  · simp only [ne_eq, Decidable.not_not] at *
    omega

/-- The fragments of a new message are neither sent nor settled. -/
theorem fresh_fragmentsOf {message : Message} {messageId : Nat} {identifier : BitVec 32}
    {fragment : TxFragment}
    (member : fragment ∈ fragmentsOf message messageId identifier size now) :
    fragment.sent = false ∧ fragment.live = true ∧ fragment.tsnAssigned = false := by
  simp only [fragmentsOf, List.mem_map] at member
  obtain ⟨index, _, rfl⟩ := member
  exact ⟨rfl, rfl, rfl⟩

/-- A new message takes its length of the send buffer, and nothing of it is in flight. -/
theorem tally_fragmentsOf (message : Message) (messageId : Nat) (identifier : BitVec 32)
    (now : Nat) (positive : 0 < size) :
    tally flightLen (fragmentsOf message messageId identifier size now) = 0 ∧
      tally liveLen (fragmentsOf message messageId identifier size now) =
        message.data.length := by
  have enough : message.data.length ≤ fragmentCount message.data.length size * size :=
    le_fragmentCount_mul positive
  have whole : tally TxFragment.dataLen (fragmentsOf message messageId identifier size now) =
      message.data.length := by
    unfold fragmentsOf
    rw [tally_map, tally_front message.data size]
    omega
  constructor
  · refine (tally_congr fun fragment member => ?_).trans (tally_zero _)
    simp [flightLen, outstanding, fresh_fragmentsOf member]
  · refine (tally_congr fun fragment member => ?_).trans whole
    simp [liveLen, fresh_fragmentsOf member]

section

variable (exact : sender.Exact config)

include exact

theorem Exact.enqueue {interleaved : Bool} {message : Message} (positive : 0 < size)
    (fits : message.data.length ≤ config.sendBufferSize)
    (room : sender.sendUsed ≤ config.sendBufferSize - message.data.length) :
    (sender.enqueue interleaved size message now).Exact config := by
  have added := tally_fragmentsOf message sender.nextMessageId
    ((sender.outgoing message.streamId).identifier interleaved message.unordered) now positive
  have flight := exact.flight
  have used := exact.used
  refine ⟨?_, ?_, ?_⟩
  all_goals simp only [Sender.enqueue, tally_append]
  all_goals omega

theorem Exact.markSent {index : Nat} {fragment : TxFragment} {retransmission taken : Bool}
    (present : sender.tx[index]? = some fragment) (live : fragment.live = true) :
    (sender.markSent index now retransmission taken).Exact config := by
  have stays : (emitted now retransmission fragment).live = true := live
  have flight : tally flightLen (sender.tx.modify index (emitted now retransmission)) +
      fragment.flightLen = tally flightLen sender.tx +
        (emitted now retransmission fragment).flightLen := tally_modify _ present
  have used : tally liveLen (sender.tx.modify index (emitted now retransmission)) +
      fragment.liveLen = tally liveLen sender.tx +
        (emitted now retransmission fragment).liveLen := tally_modify _ present
  simp only [flightLen, liveLen, outstanding, live, stays] at flight used
  have flightExact := exact.flight
  have usedExact := exact.used
  have room := exact.room
  unfold Sender.markSent
  rw [present]
  refine ⟨?_, ?_, room⟩
  · by_cases sent : fragment.sent = true
    · simp only [sent, emitted, Bool.and_self, if_true] at flight ⊢
      omega
    · simp only [sent, emitted, Bool.and_self, Bool.false_and, Bool.false_eq_true, if_false,
        if_true] at flight ⊢
      omega
  · simp only [emitted, if_true] at used ⊢
    omega

theorem Exact.assignTsn (index : Nat) : (sender.assignTsn index).Exact config := by
  unfold Sender.assignTsn
  split
  · split
    · exact exact
    · exact exact.relabel rfl rfl rfl fun _ => ⟨rfl, rfl, rfl⟩
  · exact exact

theorem Exact.acknowledgeThrough (cumulative : Tsn) :
    (sender.acknowledgeThrough cumulative).Exact config := by
  have settled : (sender.settle (fun fragment => fragment.upTo cumulative && fragment.live)
      acknowledged accountAcknowledged).Exact config := by
    refine exact.settle ⟨fun _ _ => rfl, fun _ _ => rfl⟩ (fun fragment met => ?_) fun _ => ?_
    · simp only [Bool.and_eq_true] at met
      exact met.2
    · simp [TxFragment.live, acknowledged]
  have pruned := settled.prune cumulative
  exact { pruned with }

end

theorem countMiss_weights (highest : Tsn) (fragment : TxFragment) :
    (countMiss highest fragment).flightLen = fragment.flightLen ∧
      (countMiss highest fragment).liveLen = fragment.liveLen := by
  unfold countMiss
  split <;> exact ⟨rfl, rfl⟩

theorem Exact.takeSack (exact : sender.Exact config) (sack : SackChunk) (now : Nat) :
    (sender.takeSack sack now).Exact config := by
  have windowed : ({ sender with peerReceiveWindow := sack.window } : Sender).Exact config :=
    exact.reweigh rfl rfl rfl rfl
  refine windowed.settle (releases_sampled now) (fun fragment met => ?_) fun _ => ?_
  · simp only [newlyAcknowledged, Bool.and_eq_true] at met
    exact met.1.2
  · simp [TxFragment.live, acknowledged]

theorem Exact.moveCumulative (exact : sender.Exact config) (cumulative highest : Tsn) :
    (sender.moveCumulative cumulative highest).Exact config := by
  have counted : ({ sender with tx := sender.tx.map (countMiss highest) } : Sender).Exact
    config := by
    refine exact.reweigh rfl rfl ?_ ?_
    all_goals rw [tally_map]
    · exact tally_congr fun fragment _ => (countMiss_weights highest fragment).1
    · exact tally_congr fun fragment _ => (countMiss_weights highest fragment).2
  exact (counted.prune cumulative).reweigh rfl rfl rfl rfl

theorem Exact.applySack (exact : sender.Exact config) (sack : SackChunk) (now : Nat) :
    (sender.applySack config sack now).Exact config := by
  obtain ⟨highest, cwnd, peak, same⟩ := sender.applySack_eq config sack now
  rw [same]
  have moved := (exact.takeSack sack now).moveCumulative sack.cumulative highest
  exact moved.reweigh rfl rfl rfl rfl

end Sender

variable {heard : Chunk → Prop} {a b : Association}

theorem SenderStep.exact {sender : Sender} (stepped : SenderStep heard a sender)
    (exact : a.sender.Exact a.config) : sender.Exact a.config := by
  cases stepped with
  | enqueue message now _ _ _ fits room sized =>
    refine exact.enqueue ?_ fits room
    unfold Config.payloadSize
    omega
  | assign index fragment _ _ _ => exact exact.assignTsn index
  | markSent index fragment now retransmission taken present _ live _ _ =>
    exact exact.markSent present live
  | enterRecovery exitTsn =>
    obtain ⟨cwnd, ssthresh, fastRecovery, same⟩ := a.sender.enterRecovery_eq a.config exitTsn
    rw [same]
    exact exact.reweigh rfl rfl rfl rfl
  | unmark index => exact exact.relabel rfl rfl rfl fun _ => ⟨rfl, rfl, rfl⟩
  | abandon fragment now _ _ _ =>
    refine exact.settle Sender.releases_accountAbandoned (fun fragment met => ?_) fun _ => ?_
    · simp only [Bool.and_eq_true] at met
      exact met.2
    · simp [TxFragment.live]
  | advance advanced _ _ =>
    refine Sender.Exact.prune ?_ advanced
    exact exact.reweigh rfl rfl rfl rfl
  | sack sack now _ _ _ => exact exact.applySack sack now
  | shutdown cumulative _ => exact exact.acknowledgeThrough cumulative
  | _ => exact exact.reweigh rfl rfl rfl rfl

/-- Subtracting one by one what is there in total does not wrap. -/
theorem foldl_sizeSub : ∀ (list : List RxFragment) (used : Nat),
    tally RxFragment.dataLen list ≤ used → used < 2 ^ 64 →
    list.foldl (fun used fragment => sizeSub used fragment.dataLen) used =
      used - tally RxFragment.dataLen list := by
  intro list
  induction list with
  | nil =>
    intro used _ _
    rfl
  | cons fragment rest ih =>
    intro used enough bounded
    simp only [tally_cons] at enough ⊢
    have one : sizeSub used fragment.dataLen = used - fragment.dataLen := by
      unfold sizeSub
      omega
    rw [List.foldl_cons, ih _ (by omega) (by omega)]
    omega

namespace Receiver

/-- The receive buffer is what its counter says, and every fragment has an address of its own. -/
structure Exact (receiver : Receiver) (config : Config) : Prop where
  nodes : (receiver.rx.map RxFragment.node).Nodup
  fresh : ∀ fragment ∈ receiver.rx, fragment.node < receiver.nextNode
  begun : ∀ node, receiver.assemblyBegin = some node → node < receiver.nextNode
  handed : ∀ fragment ∈ receiver.rx, fragment.delivered = true → fragment.dataLen = 0
  used : receiver.receiveUsed = tally RxFragment.dataLen receiver.rx
  room : receiver.receiveUsed ≤ config.receiveBufferSize
  assembly : receiver.assemblyLen ≤ config.maxMessageSize

variable {receiver : Receiver} {config : Config}

theorem Exact.empty (list : receiver.rx = []) (begun : receiver.assemblyBegin = none)
    (used : receiver.receiveUsed = 0) (assembly : receiver.assemblyLen = 0) :
    receiver.Exact config := by
  refine ⟨?_, ?_, ?_, ?_, ?_, ?_, ?_⟩ <;> simp [list, begun, used, assembly]

theorem assembles_begin (assembles : receiver.assembles config chunk = true)
    (first : chunk.flags.first = true) : receiver.assemblyBegin = none := by
  unfold Receiver.assembles at assembles
  cases begun : receiver.assemblyBegin with
  | none => rfl
  | some node => simp [begun, first] at assembles

/-- A chunk that was stored and is taken back leaves an address that is used up, and bytes in the
assembly buffer that nothing refers to. -/
theorem undo_stored (exact : receiver.Exact config) (bounded : config.maxMessageSize < 2 ^ 64) :
    (receiver.stored config chunk).undo (receiver.fragmentOf config chunk) =
      { receiver with
        wild := receiver.wild || receiver.readsFreed config chunk
        nextNode := receiver.nextNode + 1
        assembly := (receiver.stored config chunk).assembly } := by
  have unlisted : ∀ other ∈ receiver.rx, other.node ≠ (receiver.fragmentOf config chunk).node := by
    intro other member
    exact Nat.ne_of_lt (exact.fresh other member)
  have list := filter_insertRx unlisted
  unfold fragmentOf at list ⊢
  unfold undo stored store
  by_cases placed : receiver.assembles config chunk = true
  · have room := exact.assembly
    have length : sizeSub (receiver.assemblyLen + chunk.payload.length) chunk.payload.length =
        receiver.assemblyLen := by
      unfold sizeSub
      omega
    by_cases first : chunk.flags.first = true
    · have begun := assembles_begin placed first
      simp only [header, placed, first, begun, Bool.and_self, if_true, decide_true] at list ⊢
      simp only [length, list, Nat.add_sub_cancel]
    · have other : receiver.assemblyBegin ≠ some receiver.nextNode := fun same =>
        Nat.lt_irrefl _ (exact.begun _ same)
      simp only [header, placed, first, other, Bool.and_false, Bool.false_eq_true, if_true,
        if_false, decide_false] at list ⊢
      simp only [length, list, Nat.add_sub_cancel]
  · simp only [header, placed, Bool.false_and, Bool.false_eq_true, if_false] at list ⊢
    simp only [list]

/-- The list after fragments were stored, handed over or dropped. -/
theorem Exact.accept (exact : receiver.Exact config)
    (room : receiver.receiveUsed + chunk.payload.length ≤ config.receiveBufferSize) :
    ((receiver.stored config chunk).keep (receiver.fragmentOf config chunk)).Exact config := by
  have perm : ((receiver.stored config chunk).keep (receiver.fragmentOf config chunk)).rx.Perm
      (receiver.fragmentOf config chunk :: receiver.rx) := insertRx_perm _ _
  refine ⟨?_, ?_, ?_, ?_, ?_, ?_, ?_⟩
  · refine (perm.map _).nodup_iff.2 (List.nodup_cons.2 ⟨?_, exact.nodes⟩)
    intro member
    obtain ⟨other, listed, same⟩ := List.mem_map.1 member
    exact Nat.ne_of_lt (exact.fresh other listed) same
  · intro fragment member
    rcases List.mem_cons.1 (perm.mem_iff.1 member) with rfl | listed
    · exact Nat.lt_succ_self _
    · exact Nat.lt_succ_of_lt (exact.fresh fragment listed)
  · intro node begun
    have before := exact.begun node
    simp only [keep, advanceCumulative, stored, store, header] at begun ⊢
    split at begun
    · cases begun
      omega
    · have := before begun
      omega
  · intro fragment member delivered
    rcases List.mem_cons.1 (perm.mem_iff.1 member) with rfl | listed
    · cases delivered
    · exact exact.handed fragment listed delivered
  · have used := exact.used
    rw [tally_perm perm, tally_cons, ← used, Nat.add_comm]
    rfl
  · exact room
  · have before := exact.assembly
    simp only [keep, advanceCumulative, stored, store]
    split
    · rename_i placed
      simp only [Receiver.assembles, mayAssemble, Bool.and_eq_true, decide_eq_true_eq] at placed
      omega
    · exact before

theorem tally_handedOver {parts rx : List RxFragment} (sub : parts.Sublist rx)
    (nodes : (rx.map RxFragment.node).Nodup) :
    tally RxFragment.dataLen (rx.map fun fragment =>
        if fragment.node ∈ parts.map RxFragment.node then fragment.handedOver else fragment) +
      tally RxFragment.dataLen parts = tally RxFragment.dataLen rx := by
  induction sub with
  | slnil => rfl
  | cons fragment sub ih =>
    rename_i parts rest
    simp only [List.map_cons, List.nodup_cons] at nodes
    have outside : fragment.node ∉ parts.map RxFragment.node := fun member =>
      nodes.1 ((sub.map _).mem member)
    have further := ih nodes.2
    simp only [List.map_cons, outside, if_false, tally_cons]
    omega
  | cons_cons fragment sub ih =>
    rename_i parts rest
    simp only [List.map_cons, List.nodup_cons] at nodes
    have same : rest.map (fun other =>
          if other.node ∈ (fragment :: parts).map RxFragment.node then other.handedOver else other)
            =
        rest.map fun other =>
          if other.node ∈ parts.map RxFragment.node then other.handedOver else other := by
      refine List.map_congr_left fun other member => ?_
      have different : other.node ≠ fragment.node := fun equal =>
        nodes.1 (equal ▸ List.mem_map_of_mem member)
      simp only [List.map_cons, List.mem_cons, different, false_or]
    have further := ih nodes.2
    rw [List.map_cons, same]
    have empty : fragment.handedOver.dataLen = 0 := rfl
    simp only [List.map_cons, List.mem_cons, true_or, if_true, tally_cons, empty]
    omega

section

variable (exact : receiver.Exact config)

include exact

theorem Exact.take {first : RxFragment} {parts : List RxFragment}
    (bounded : config.receiveBufferSize < 2 ^ 64) (sub : parts.Sublist receiver.rx) :
    (receiver.taken first parts).Exact config := by
  have handed : ({ receiver with
      inbox := receiver.inbox ++ [receiver.received first parts] }.handOver first parts).Exact
      config := by
    have split := tally_handedOver sub exact.nodes
    have used := exact.used
    have room := exact.room
    have given := foldl_sizeSub parts receiver.receiveUsed (by omega) (by omega)
    refine ⟨?_, ?_, ?_, ?_, ?_, ?_, ?_⟩
    · have same : ∀ fragment : RxFragment, (if fragment.node ∈ parts.map RxFragment.node then
          fragment.handedOver else fragment).node = fragment.node := by
        intro fragment
        split <;> rfl
      simpa only [handOver, List.map_map, Function.comp_def, same] using exact.nodes
    · intro fragment member
      obtain ⟨other, listed, rfl⟩ := List.mem_map.1 member
      have below := exact.fresh other listed
      split <;> exact below
    · intro node begun
      simp only [handOver] at begun
      split at begun
      · cases begun
      · exact exact.begun node begun
    · intro fragment member delivered
      obtain ⟨other, listed, rfl⟩ := List.mem_map.1 member
      split at delivered
      · rename_i inside
        rw [if_pos inside]
        rfl
      · rename_i outside
        rw [if_neg outside]
        exact exact.handed other listed delivered
    · simp only [handOver]
      omega
    · simp only [handOver]
      omega
    · have fits := exact.assembly
      simp only [handOver]
      split <;> omega
  unfold taken countOrdered
  split
  · exact handed
  · exact { handed with }

/-- Dropping fragments that weigh nothing, or giving back what they weigh. -/
theorem Exact.filter {other : Receiver} (keep : RxFragment → Bool)
    (list : other.rx = receiver.rx.filter keep) (node : other.nextNode = receiver.nextNode)
    (begun : other.assemblyBegin = receiver.assemblyBegin)
    (used : other.receiveUsed = tally RxFragment.dataLen (receiver.rx.filter keep))
    (assembly : other.assemblyLen = receiver.assemblyLen) : other.Exact config := by
  have sub : other.rx.Sublist receiver.rx := by
    rw [list]
    exact List.filter_sublist
  refine ⟨exact.nodes.sublist (sub.map _), ?_, ?_, ?_, ?_, ?_, ?_⟩
  · intro fragment member
    rw [node]
    exact exact.fresh fragment (sub.mem member)
  · rw [begun, node]
    exact exact.begun
  · intro fragment member
    exact exact.handed fragment (sub.mem member)
  · rw [used, list]
  · have less := tally_sublist RxFragment.dataLen sub
    have whole := exact.used
    have room := exact.room
    rw [list] at less
    omega
  · rw [assembly]
    exact exact.assembly

theorem Exact.pruneDelivered : receiver.pruneDelivered.Exact config := by
  refine exact.filter _ rfl rfl rfl ?_ rfl
  rw [tally_filter_eq]
  · exact exact.used
  · intro fragment member dropped
    simp only [Bool.not_eq_false', Bool.and_eq_true] at dropped
    exact exact.handed fragment member dropped.1

theorem Exact.assemblyReset : receiver.assemblyReset.Exact config := by
  have same : ∀ fragment : RxFragment,
      (if fragment.assembled && !fragment.delivered then { fragment with data := none }
        else fragment).node = fragment.node ∧
      (if fragment.assembled && !fragment.delivered then { fragment with data := none }
        else fragment).dataLen = fragment.dataLen ∧
      (if fragment.assembled && !fragment.delivered then { fragment with data := none }
        else fragment).delivered = fragment.delivered := by
    intro fragment
    split <;> exact ⟨rfl, rfl, rfl⟩
  refine ⟨?_, ?_, ?_, ?_, ?_, exact.room, ?_⟩
  · simpa only [Receiver.assemblyReset, List.map_map, Function.comp_def, same] using exact.nodes
  · intro fragment member
    obtain ⟨other, listed, rfl⟩ := List.mem_map.1 member
    rw [(same other).1]
    exact exact.fresh other listed
  · exact fun node begun => nomatch begun
  · intro fragment member delivered
    obtain ⟨other, listed, rfl⟩ := List.mem_map.1 member
    rw [(same other).2.2] at delivered
    rw [(same other).2.1]
    exact exact.handed other listed delivered
  · simp only [Receiver.assemblyReset, tally_map, same]
    exact exact.used
  · exact Nat.zero_le _

theorem Exact.discard (bounded : config.receiveBufferSize < 2 ^ 64) (hit : RxFragment → Bool) :
    (receiver.discard hit).Exact config := by
  have parts : tally RxFragment.dataLen (receiver.rx.filter hit) +
      tally RxFragment.dataLen (receiver.rx.filter fun fragment => !hit fragment) =
      tally RxFragment.dataLen receiver.rx := by
    rw [tally_filter, tally_filter, ← tally_add]
    refine tally_congr fun fragment _ => ?_
    cases hit fragment <;> simp
  have used := exact.used
  have room := exact.room
  have given := foldl_sizeSub (receiver.rx.filter hit) receiver.receiveUsed (by omega) (by omega)
  have rest : Receiver.Exact { receiver with
      rx := receiver.rx.filter fun fragment => !hit fragment
      receiveUsed := (receiver.rx.filter hit).foldl
        (fun used fragment => sizeSub used fragment.dataLen) receiver.receiveUsed } config := by
    refine exact.filter (fun fragment => !hit fragment) rfl rfl rfl ?_ rfl
    simp only
    omega
  unfold Receiver.discard
  simp only
  split
  · exact rest.assemblyReset
  · exact rest

theorem Exact.same {other : Receiver} (list : other.rx = receiver.rx)
    (node : receiver.nextNode ≤ other.nextNode)
    (begun : other.assemblyBegin = receiver.assemblyBegin)
    (used : other.receiveUsed = receiver.receiveUsed)
    (assembly : other.assemblyLen = receiver.assemblyLen) : other.Exact config := by
  refine ⟨by rw [list]; exact exact.nodes, ?_, ?_, by rw [list]; exact exact.handed,
    by rw [used, list]; exact exact.used, by rw [used]; exact exact.room,
    by rw [assembly]; exact exact.assembly⟩
  · intro fragment member
    rw [list] at member
    exact Nat.lt_of_lt_of_le (exact.fresh fragment member) node
  · intro other met
    rw [begun] at met
    exact Nat.lt_of_lt_of_le (exact.begun other met) node

theorem Exact.resetIncoming (bounded : config.receiveBufferSize < 2 ^ 64) (lastTsn : Tsn)
    (streamId : Nat) :
    (receiver.resetIncoming lastTsn streamId).Exact config := by
  have renewed : Receiver.Exact
      { receiver with incoming := Function.update receiver.incoming streamId {} } config :=
    exact.same rfl (Nat.le_refl _) rfl rfl rfl
  exact renewed.discard bounded _

theorem Exact.performReset (bounded : config.receiveBufferSize < 2 ^ 64) (sequence : Number)
    (lastTsn : Tsn) (streams : List Nat) :
    (receiver.performReset sequence lastTsn streams).Exact config := by
  have folded : ∀ (streams : List Nat) (receiver : Receiver), receiver.Exact config →
      (streams.foldl (Receiver.resetIncoming lastTsn) receiver).Exact config := by
    intro streams
    induction streams with
    | nil => exact fun _ => id
    | cons streamId rest ih => exact fun receiver exact => ih _ (exact.resetIncoming bounded _ _)
  have cleared : Receiver.Exact { receiver with deferredReset := none } config :=
    exact.same rfl (Nat.le_refl _) rfl rfl rfl
  have reset := folded streams _ cleared
  exact reset.same rfl (Nat.le_refl _) rfl rfl rfl

end

end Receiver

theorem ReceiverStep.exact {receiver : Receiver} (stepped : ReceiverStep heard a receiver)
    (valid : a.config.Valid) (exact : a.receiver.Exact a.config) : receiver.Exact a.config := by
  have bounded := valid.receiveBufferSize.2.2
  cases stepped with
  | accept chunk _ acceptable => exact exact.accept acceptable.room
  | refuse chunk _ _ =>
    have sized := valid.receiveBufferSize.2.1
    rw [Receiver.undo_stored exact (by omega)]
    exact exact.same rfl (Nat.le_succ _) rfl rfl rfl
  | look chunk _ _ | expect request parameters _ _ | defer request granted parameters _ _
  | deliveryPending pending | sackTimer packets deadline =>
    exact exact.same rfl (Nat.le_refl _) rfl rfl rfl
  | take first parts _ _ _ ready =>
    exact exact.take bounded ((collect_sublist ready).trans (List.dropWhile_sublist _))
  | prune => exact exact.pruneDelivered
  | forward chunk _ _ _ =>
    have moved : Receiver.Exact
        { a.receiver with cumulativeReceivedTsn := chunk.newCumulative } a.config :=
      exact.same rfl (Nat.le_refl _) rfl rfl rfl
    have dropped := moved.discard bounded fun fragment => !after fragment.tsn chunk.newCumulative
    exact dropped.same rfl (Nat.le_refl _) rfl rfl rfl
  | performReset sequence lastTsn streams _ _ => exact exact.performReset bounded _ _ _

/-- Both sides of an association count exactly. -/
structure Association.Exact (a : Association) : Prop where
  sender : a.sender.Exact a.config
  receiver : a.receiver.Exact a.config

theorem Association.Exact.step (exact : a.Exact) (valid : a.config.Valid)
    (stepped : Step heard a b) : b.Exact := by
  constructor
  · rw [stepped.config_eq]
    rcases stepped.sender_cases with same | moved | ⟨window, same⟩
    · rw [same]
      exact exact.sender
    · exact moved.exact exact.sender
    · rw [same]
      exact exact.sender.reweigh rfl rfl rfl rfl
  · rw [stepped.config_eq]
    rcases stepped.receiver_cases with same | moved | ⟨values, _, _, rfl⟩
    · rw [same]
      exact exact.receiver
    · exact moved.exact valid exact.receiver
    · exact exact.receiver.same rfl (Nat.le_refl _) rfl rfl rfl

/-- The counters are exact after every call and every chunk. -/
theorem Reachable.exact_passes {config : Config} (valid : config.Valid)
    (reachable : Reachable config a) (passes : a.Passes b) : b.config = config ∧ b.Exact := by
  refine reachable.passes (fun a => a.config = config ∧ a.Exact)
    (fun tag initialTsn buffered => ⟨rfl, ?_, ?_⟩) ?_ passes
  · exact ⟨rfl, rfl, Nat.zero_le _⟩
  · exact Receiver.Exact.empty rfl rfl rfl rfl
  · intro heard a b kept stepped
    have valid' : a.config.Valid := by
      rw [kept.1]
      exact valid
    exact ⟨stepped.config_eq.trans kept.1, kept.2.step valid' stepped⟩

theorem Reachable.exact {config : Config} (valid : config.Valid) (reachable : Reachable config a) :
    a.config = config ∧ a.Exact :=
  reachable.exact_passes valid (.inl rfl)

end Gizos.Sctp
