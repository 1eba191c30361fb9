import Gizos.Sctp.Calm
import Gizos.Sctp.Queue

/-! # What is left of a message that was given up

A fragment leaves the queue when it is settled and the peer has acknowledged its TSN, or when its
TSN was announced as passed. One that was given up before it had a TSN therefore stays; and once a
FORWARD-TSN has been sent there is nothing left from which it could be built again.
-/
namespace Gizos.Sctp

open Serial Fault Relation TxFragment Sample

namespace TxFragment

/-- A fragment carries something, and was not sent without a TSN. -/
structure Sound (fragment : TxFragment) : Prop where
  filled : 0 < fragment.dataLen
  numbered : fragment.sent = true ∨ fragment.acknowledged = true → fragment.tsnAssigned = true

theorem Settles.sound {first second : TxFragment} (settles : Settles first second)
    (sound : first.Sound) : second.Sound := by
  refine ⟨settles.dataLen ▸ sound.filled, fun held => ?_⟩
  rw [settles.tsn.2]
  rcases settles.numbered held with sent | acknowledged | numbered
  · exact sound.numbered (.inl sent)
  · exact sound.numbered (.inr acknowledged)
  · exact numbered

end TxFragment

theorem mul_lt_of_lt_fragmentCount {length size index : Nat}
    (within : index < fragmentCount length size) :
    index * size < length := by
  have whole := Nat.div_add_mod length size
  unfold fragmentCount at within
  by_cases rest : length % size = 0
  · simp only [rest, ne_eq, not_true_eq_false, if_false] at within
    have less : index * size < length / size * size := by
      refine Nat.mul_lt_mul_of_pos_right (by omega) (Nat.pos_of_ne_zero fun zero => ?_)
      rw [zero] at within
      omega
    rw [Nat.mul_comm (length / size)] at less
    omega
  · simp only [rest, ne_eq, not_false_eq_true, if_true] at within
    have less : index * size ≤ length / size * size := Nat.mul_le_mul_right _ (by omega)
    rw [Nat.mul_comm (length / size)] at less
    omega

theorem sound_fragmentsOf {message : Message} {messageId : Nat} {identifier : BitVec 32}
    {size now : Nat} {fragment : TxFragment} (positive : 0 < size)
    (member : fragment ∈ fragmentsOf message messageId identifier size now) : fragment.Sound := by
  simp only [fragmentsOf, List.mem_map, List.mem_range] at member
  obtain ⟨index, within, rfl⟩ := member
  have inside := mul_lt_of_lt_fragmentCount within
  refine ⟨?_, fun held => by simp at held⟩
  simp only [List.length_take, List.length_drop]
  omega

namespace Sender

variable {sender other : Sender}

theorem Ordered.empty (queue : sender.tx = [])
    (peer : sender.peerCumulativeTsn + 1 = sender.nextTsn)
    (announced : sender.advancedPeerAck + 1 = sender.nextTsn) : sender.Ordered := by
  have one : ∀ tsn, tsn + 1 = sender.nextTsn → offset tsn sender.nextTsn = 1 := by
    simp only [offset]
    bv_omega
  have here := one _ peer
  have there := one _ announced
  refine ⟨?_, ?_, ?_, ?_, ?_⟩
  · exact ⟨by omega, by rw [here]; decide⟩
  · exact ⟨by omega, by rw [there]; decide⟩
  · simp [queue]
  · simp [queue]
  · simp [queue]

theorem QueueStep.sound (stepped : QueueStep sender other)
    (sound : ∀ fragment ∈ sender.tx, fragment.Sound) : ∀ fragment ∈ other.tx, fragment.Sound := by
  intro fragment member
  cases stepped with
  | joined message identifier size now _ positive _ queue =>
    rw [queue] at member
    rcases List.mem_append.1 member with old | new
    · exact sound fragment old
    · exact sound_fragmentsOf positive new
  | numbered index old present fresh _ same =>
    rw [same, assignTsn_fresh present fresh] at member
    rcases mem_modify member with unchanged | ⟨before, found, rfl⟩
    · exact sound fragment unchanged
    · exact ⟨(sound before found).filled, fun _ => rfl⟩
  | settled _ settles =>
    obtain ⟨before, found, settled⟩ := before_related settles member
    exact settled.sound (sound before found)
  | passed cumulative middle settles _ queue _ _ _ _ =>
    rw [queue] at member
    obtain ⟨before, found, settled⟩ := before_related settles (List.mem_of_mem_filter member)
    exact settled.sound (sound before found)
  | announced advanced _ _ same =>
    rw [same] at member
    exact sound fragment (List.mem_of_mem_filter member)

end Sender

variable {config : Config} {heard : Chunk → Prop} {a b : Association}

/-- The sending side keeps what every step of its queue keeps, and its first window aside. -/
theorem Step.queue (stepped : Step heard a b) : a.sender.QueueStep b.sender := by
  have same : List.Forall₂ Settles a.sender.tx a.sender.tx :=
    List.forall₂_same.2 fun fragment _ => .refl fragment
  rcases stepped.sender_cases with unchanged | moved | ⟨window, unchanged⟩
  · rw [unchanged]
    exact .settled ⟨rfl, rfl, rfl, rfl⟩ same
  · exact moved.queue
  · rw [unchanged]
    exact .settled ⟨rfl, rfl, rfl, rfl⟩ same

theorem Reachable.sound (reachable : Reachable config a) :
    ∀ fragment ∈ a.sender.tx, fragment.Sound := by
  refine reachable.invariant (fun a => ∀ fragment ∈ a.sender.tx, fragment.Sound) ?_ ?_
  · intro tag initialTsn buffered fragment member
    have empty : (Association.create config tag initialTsn buffered).sender.tx = [] := rfl
    cases member
  · exact fun _ _ _ kept stepped => stepped.queue.sound kept

theorem Reachable.ordered (reachable : Reachable config a) :
    a.sender.widest + 1 < half → a.sender.Ordered := by
  refine reachable.invariant (fun a => a.sender.widest + 1 < half → a.sender.Ordered) ?_ ?_
  · exact fun tag initialTsn buffered _ => Sender.Ordered.empty rfl
      (BitVec.sub_add_cancel initialTsn 1) (BitVec.sub_add_cancel initialTsn 1)
  · exact fun _ _ _ kept stepped => (stepped.queue.ordered kept).2

namespace Sample

/-- A message of seven packets, of which five are sent before all are given up. -/
def givenUp : List (Call × List Turn) :=
  [calm (.send (message 600 0 false (.maxRetransmits 0)) 0), calm (.service 1000)]

/-- The peer acknowledges everything that was sent and announced. -/
def settled : List (Call × List Turn) :=
  givenUp ++ [calm (.input (packet [.sack { cumulative := 4, window := 4000, gaps := [] }]) 1000)]

end Sample

/-- The fragments of the queue that were sent have TSNs of their own, after what the peer has
acknowledged and before the next one. -/
theorem sent_tsns_distinct (reachable : Reachable config a) (spanned : a.sender.widest + 1 < half) :
    (∀ fragment ∈ a.sender.tx, fragment.sent = true →
      after fragment.tsn a.sender.peerCumulativeTsn = true ∧
      before fragment.tsn a.sender.nextTsn = true) ∧
    (a.sender.tx.filter (·.sent)).Pairwise (·.tsn ≠ ·.tsn) := by
  have ordered := reachable.ordered spanned
  have numbered : ∀ fragment ∈ a.sender.tx, fragment.sent = true → fragment.tsnAssigned = true :=
    fun fragment member sent => (reachable.sound fragment member).numbered (.inl sent)
  refine ⟨fun fragment member sent => ?_, ?_⟩
  · have ⟨positive, inside⟩ := ordered.queue fragment member (numbered fragment member sent)
    have near := inside.trans ordered.peer.2
    exact ⟨(after_iff_behind near ordered.peer.2).2 inside, by simp [before_eq, positive, near]⟩
  · refine (ordered.distinct.filter _).imp_of_mem fun left right apart => ?_
    rw [List.mem_filter] at left right
    exact apart (numbered _ left.1 left.2) (numbered _ right.1 right.2)

/-- The two fragments of a message, whose TSNs follow the last one before the numbers wrap. -/
theorem sent_tsns_distinct_message :
    let a := played true true 0 [calm (.send (message 150 0 false .reliable) 0)]
    (a.sender.tx.filter (·.sent)).map (·.tsn) = [0, 1] ∧ a.sender.peerCumulativeTsn = -1 ∧
      (∀ fragment ∈ a.sender.tx, fragment.sent = true →
        after fragment.tsn a.sender.peerCumulativeTsn = true ∧
        before fragment.tsn a.sender.nextTsn = true) ∧
      (a.sender.tx.filter (·.sent)).Pairwise (·.tsn ≠ ·.tsn) :=
  ⟨by decide +kernel, by decide +kernel,
    sent_tsns_distinct (played_reachable _ _ _ _) (by decide +kernel)⟩

/-- With the announced point ahead of the acknowledged one, there is nothing to announce. -/
theorem Sender.Ordered.advanced_eq {sender : Sender} (ordered : sender.Ordered)
    (ahead : after sender.advancedPeerAck sender.peerCumulativeTsn = true) :
    sender.advanced = (sender.peerCumulativeTsn, false) := by
  have closer := (after_iff_behind ordered.announced.2 ordered.peer.2).1 ahead
  have next : offset (sender.peerCumulativeTsn + 1) sender.nextTsn =
      offset sender.peerCumulativeTsn sender.nextTsn - 1 := by
    have one := @offset_add sender.peerCumulativeTsn sender.nextTsn 1 (by omega)
    exact one
  have none : sender.tx.find? (fun fragment =>
      fragment.tsnAssigned && fragment.tsn = sender.peerCumulativeTsn + 1) = none := by
    refine List.find?_eq_none.2 fun fragment member hit => ?_
    simp only [Bool.and_eq_true, decide_eq_true_eq] at hit
    have passed := ordered.passed closer fragment member hit.1
    rw [hit.2] at passed
    omega
  unfold Sender.advanced
  cases sender.tx.length with
  | zero => rfl
  | succ fuel =>
    unfold Sender.walkAbandoned
    rw [none]

/-- A packet announces TSNs as passed. -/
def Packet.Forwards (packet : Packet) : Prop := ∃ chunk, Chunk.forwardTsn chunk ∈ packet.chunks

theorem Says.forwards {tag tag' : BitVec 32} {kind : Option ControlKind} {chunk : Chunk}
    (uttered : Says heard a tag kind chunk) (forwards : (a.packetOf tag' chunk).Forwards) :
    kind = none ∧ ∃ advanced, a.sender.advanced = (advanced, true) := by
  obtain ⟨forward, member⟩ := forwards
  have same : chunk = .forwardTsn forward := (List.mem_singleton.1 member).symm
  subst same
  cases uttered with
  | forward advanced walked _ => exact ⟨rfl, advanced, walked⟩

theorem Reachable.control_silent (reachable : Reachable config a) :
    ∀ control, a.link.control = some control → ¬control.packet.Forwards := by
  refine reachable.invariant (fun a => ∀ control, a.link.control = some control →
    ¬control.packet.Forwards) ?_ ?_
  · intro tag initialTsn buffered control kept
    have none : (Association.create config tag initialTsn buffered).link.control = none := rfl
    cases kept
  · intro heard a b silent stepped
    cases stepped with
    | sender _ | receiver _ => exact silent
    | phase moved => cases moved <;> exact silent
    | link moved =>
      cases moved with
      | sent _ => exact silent
      | retained _ _ => exact silent
      | released => exact silent
      | controlled deadline uttered _ =>
        rintro control same forwards
        cases same
        cases (uttered.forwards forwards).1
      | cleared => exact nofun
      | repeated found packet _ =>
        rintro control same forwards
        cases same
        rw [packet] at forwards
        exact silent _ found forwards

/-- With nothing heard, the points of the peer stay, unless something is announced. -/
theorem SenderStep.points_unheard {sender : Sender}
    (stepped : SenderStep (fun _ => False) a sender) :
    sender.peerCumulativeTsn = a.sender.peerCumulativeTsn ∧
      (sender.advancedPeerAck = a.sender.advancedPeerAck ∨
        ∃ advanced, a.sender.advanced = (advanced, true)) := by
  cases stepped with
  | advance advanced walked _ => exact ⟨rfl, .inr ⟨advanced, walked⟩⟩
  | sack _ _ told _ _ | shutdown _ told | resetAnswered _ _ _ _ told _ => exact told.elim
  | assign index fragment present _ _ =>
    simp only [Sender.assignTsn, present]
    split <;> exact ⟨rfl, .inl rfl⟩
  | markSent index fragment now retransmission taken present _ _ _ _ =>
    unfold Sender.markSent
    rw [present]
    exact ⟨rfl, .inl rfl⟩
  | enterRecovery exitTsn =>
    obtain ⟨cwnd, ssthresh, fastRecovery, recovered⟩ := a.sender.enterRecovery_eq a.config exitTsn
    rw [recovered]
    exact ⟨rfl, .inl rfl⟩
  | abandon fragment now _ _ _ =>
    obtain ⟨_, _, _, _, _, _, _, counted⟩ := a.sender.abandonMessage_recounted fragment.messageId
    rw [counted]
    exact ⟨rfl, .inl rfl⟩
  | _ => exact ⟨rfl, .inl rfl⟩

/-- An association that has announced more than the peer has acknowledged, and has nothing at hand
that would announce it again. -/
structure Silent (before a : Association) : Prop where
  ordered : a.sender.Ordered
  ahead : after a.sender.advancedPeerAck a.sender.peerCumulativeTsn = true
  kept : ∀ packet, a.link.Has packet → ¬packet.Forwards
  sent : ∃ new, a.link.wire = before.link.wire ++ new ∧ ∀ packet ∈ new, ¬packet.Forwards

/-- The association stays silent until something is heard. -/
theorem Silent.step {before : Association} (silent : a.sender.widest + 1 < half → Silent before a)
    (stepped : Step (fun _ => False) a b) (bounded : b.sender.widest + 1 < half) :
    Silent before b := by
  have grown := stepped.queue.ordered fun bounded => (silent bounded).ordered
  have held := silent (by omega)
  have nothing : ∀ advanced, a.sender.advanced ≠ (advanced, true) := by
    intro advanced walked
    rw [held.ordered.advanced_eq held.ahead] at walked
    cases walked
  cases stepped with
  | sender moved =>
    obtain ⟨peer, announced⟩ := moved.points_unheard
    rcases announced with same | ⟨advanced, walked⟩
    · exact ⟨grown.2 bounded, by rw [same, peer]; exact held.ahead, held.kept, held.sent⟩
    · exact absurd walked (nothing advanced)
  | receiver _ => exact { held with }
  | phase moved =>
    cases moved with
    | greet values told _ _ => exact (told.elim id id).elim
    | _ => exact { held with }
  | link moved =>
    have spoken : ∀ packet, Spoken (fun _ => False) a packet → ¬packet.Forwards := by
      intro packet spoken forwards
      cases spoken with
      | said uttered _ =>
        obtain ⟨_, advanced, walked⟩ := uttered.forwards forwards
        exact nothing advanced walked
      | kept has => exact held.kept packet has forwards
    obtain ⟨kept, new, wire, fresh⟩ := moved.speaks spoken
    obtain ⟨old, since, quiet⟩ := held.sent
    refine ⟨held.ordered, held.ahead, kept, old ++ new, ?_, ?_⟩
    · rw [← List.append_assoc, ← since]
      exact wire
    · intro packet member
      exact (List.mem_append.1 member).elim (quiet packet) (fresh packet)

/-- A service call with nothing retained repeats what was announced beyond the point that the peer
has acknowledged exactly if there is no such thing: what was announced is never announced again. -/
theorem forward_repeated_iff {now : Nat} (reachable : Reachable config a)
    (free : a.link.pendingEmit = none) (serviced : Reaches Turn.Any (Call.service now).run a b)
    (spanned : b.sender.widest + 1 < half) :
    (after a.sender.advancedPeerAck a.sender.peerCumulativeTsn = true →
      ∃ packet ∈ a.newPackets b, ∃ chunk, Chunk.forwardTsn chunk ∈ packet.chunks ∧
        before chunk.newCumulative a.sender.advancedPeerAck = false) ↔
      after a.sender.advancedPeerAck a.sender.peerCumulativeTsn = false := by
  refine ⟨fun repeated => ?_, fun behind ahead => by rw [behind] at ahead; cases ahead⟩
  by_contra notBehind
  have ahead : after a.sender.advancedPeerAck a.sender.peerCumulativeTsn = true := by
    simpa using notBehind
  have path : ReflTransGen (Step fun _ => False) a b := by
    refine Call.path (fun chunk member => ?_) serviced
    cases member
  have start : a.sender.widest + 1 < half → Silent a a := by
    intro bounded
    refine ⟨reachable.ordered bounded, ahead, ?_, [], (List.append_nil _).symm, nofun⟩
    rintro packet (pending | control)
    · rw [free] at pending
      cases pending
    · obtain ⟨kept, found, rfl⟩ := Option.map_eq_some_iff.1 control
      exact reachable.control_silent kept found
  have silent : b.sender.widest + 1 < half → Silent a b := by
    clear serviced spanned repeated
    induction path with
    | refl => exact start
    | tail _ stepped ih => exact Silent.step ih stepped
  obtain ⟨new, wire, quiet⟩ := (silent spanned).sent
  obtain ⟨packet, member, chunk, forwards, _⟩ := repeated ahead
  rw [Association.newPackets, wire, List.drop_left] at member
  exact quiet packet member ⟨chunk, forwards⟩

/-- A FORWARD-TSN for five packets was sent and is lost; a minute later nothing but a heartbeat
leaves. -/
theorem forward_not_repeated :
    let a := Sample.played true true 0 Sample.givenUp
    let b := Sample.played true true 0 (Sample.givenUp ++ [Sample.calm (.service 61000)])
    Reachable (Sample.small .active) a ∧ a.lastNowMs.getD 0 + rtoMaxMs ≤ 61000 ∧
      a.link.pendingEmit = none ∧
      after a.sender.advancedPeerAck a.sender.peerCumulativeTsn = true ∧
      Reaches Turn.Calm (Call.service 61000).run a b ∧
      (a.newPackets b).map Packet.chunks = [[.heartbeat []]] := by
  refine ⟨played_reachable true true 0 _, by decide +kernel, by decide +kernel,
    by decide +kernel, ?_, by decide +kernel⟩
  exact ⟨fun _ => {}, fun _ => ⟨rfl, rfl⟩, 0, rfl⟩

/-- The same run, as the general statement tells it. -/
theorem forward_repeated_given_up :
    let a := Sample.played true true 0 Sample.givenUp
    let b := Sample.played true true 0 (Sample.givenUp ++ [Sample.calm (.service 61000)])
    ¬∃ packet ∈ a.newPackets b, ∃ chunk, Chunk.forwardTsn chunk ∈ packet.chunks ∧
      before chunk.newCumulative a.sender.advancedPeerAck = false := by
  intro a b repeated
  have reachable : Reachable (Sample.small .active) a :=
    played_reachable true true 0 Sample.givenUp
  have serviced : Reaches Turn.Any (Call.service 61000).run a b :=
    ⟨fun _ => {}, fun _ => trivial, 0, rfl⟩
  have free : a.link.pendingEmit = none := by decide +kernel
  have spanned : b.sender.widest + 1 < half := by decide +kernel
  have behind := (forward_repeated_iff reachable free serviced spanned).1 fun _ => repeated
  have ahead : after a.sender.advancedPeerAck a.sender.peerCumulativeTsn = true := by
    decide +kernel
  rw [ahead] at behind
  cases behind

end Gizos.Sctp
