import Gizos.Sctp.Accounting
import Mathlib.Data.List.Pairwise

/-! # The transmit queue

How the fragments of the queue, the TSNs they have and the points of the peer change together. As
long as fewer than half of all TSNs are in use, the TSNs of the queue lie between the point that the
peer has acknowledged and the next TSN, none of them twice; nothing of them is left behind the point
that was announced to the peer.
-/
namespace Gizos.Sctp

open Serial Sender

namespace TxFragment

/-- What becomes of a fragment that stays in the queue and gets no TSN: it may be sent,
acknowledged or abandoned, but none of that is taken back. -/
structure Settles (before after : TxFragment) : Prop where
  same : ∃ sentMs retransmits missReports fastRetransmit sent acknowledged abandoned data,
    after = { before with
      sentMs, retransmits, missReports, fastRetransmit, sent, acknowledged, abandoned, data }
  acknowledged : before.acknowledged = true → after.acknowledged = true
  abandoned : before.abandoned = true → after.abandoned = true
  numbered : after.sent = true ∨ after.acknowledged = true →
    before.sent = true ∨ before.acknowledged = true ∨ before.tsnAssigned = true

/-- A fragment may stay as it is. -/
theorem Settles.refl (fragment : TxFragment) : Settles fragment fragment where
  same := ⟨_, _, _, _, _, _, _, _, rfl⟩
  acknowledged := id
  abandoned := id
  numbered := fun held => held.elim .inl fun done => .inr (.inl done)

/-- What becomes of a fragment composes. -/
theorem Settles.trans {first second third : TxFragment} (left : Settles first second)
    (right : Settles second third) : Settles first third where
  same := by
    obtain ⟨_, _, _, _, _, _, _, _, rfl⟩ := left.same
    obtain ⟨_, _, _, _, _, _, _, _, rfl⟩ := right.same
    exact ⟨_, _, _, _, _, _, _, _, rfl⟩
  acknowledged := fun held => right.acknowledged (left.acknowledged held)
  abandoned := fun held => right.abandoned (left.abandoned held)
  numbered := by
    intro held
    rcases right.numbered held with sent | acknowledged | numbered
    · exact left.numbered (.inl sent)
    · exact left.numbered (.inr acknowledged)
    · obtain ⟨_, _, _, _, _, _, _, _, rfl⟩ := left.same
      exact .inr (.inr numbered)

variable {first second : TxFragment}

/-- Two fragments that have no TSN in common. -/
def Apart (left right : TxFragment) : Prop :=
  left.tsnAssigned = true → right.tsnAssigned = true → left.tsn ≠ right.tsn

/-- Being apart is symmetric. -/
instance : Std.Symm Apart where
  symm _ _ apart right left := (apart left right).symm

/-- The TSN stays. -/
theorem Settles.tsn (settles : Settles first second) :
    second.tsn = first.tsn ∧ second.tsnAssigned = first.tsnAssigned := by
  obtain ⟨_, _, _, _, _, _, _, _, rfl⟩ := settles.same
  exact ⟨rfl, rfl⟩

/-- The length stays. -/
theorem Settles.dataLen (settles : Settles first second) : second.dataLen = first.dataLen := by
  obtain ⟨_, _, _, _, _, _, _, _, rfl⟩ := settles.same
  rfl

/-- What is settled stays so. -/
theorem Settles.live (settles : Settles first second) (settled : first.live = false) :
    second.live = false := by
  cases acknowledged : first.acknowledged with
  | true => simp [TxFragment.live, settles.acknowledged acknowledged]
  | false =>
    have abandoned : first.abandoned = true := by
      simpa [TxFragment.live, acknowledged] using settled
    simp [TxFragment.live, settles.abandoned abandoned]

end TxFragment

open TxFragment

namespace Sender

variable {sender other : Sender} {fragment : TxFragment} {change : TxFragment → TxFragment}
  {tx : List TxFragment} {index : Nat}

/-- A fragment with a TSN may be acknowledged. -/
theorem settles_acknowledged (numbered : fragment.tsnAssigned = true) :
    Settles fragment (acknowledged fragment) where
  same := ⟨_, _, _, _, _, _, _, _, rfl⟩
  acknowledged := fun _ => rfl
  abandoned := id
  numbered := fun _ => .inr (.inr numbered)

/-- A fragment may be given up. -/
theorem settles_abandoned (fragment : TxFragment) :
    Settles fragment { fragment with abandoned := true, data := none } where
  same := ⟨_, _, _, _, _, _, _, _, rfl⟩
  acknowledged := id
  abandoned := fun _ => rfl
  numbered := fun held => held.elim .inl fun done => .inr (.inl done)

/-- A miss may be counted. -/
theorem settles_countMiss (highest : Tsn) (fragment : TxFragment) :
    Settles fragment (countMiss highest fragment) := by
  unfold countMiss
  split
  · exact ⟨⟨_, _, _, _, _, _, _, _, rfl⟩, id, id, fun held => held.elim .inl fun done =>
      .inr (.inl done)⟩
  · exact .refl fragment

/-- A fragment with a TSN may be sent. -/
theorem settles_emitted (now : Nat) (retransmission : Bool)
    (numbered : fragment.tsnAssigned = true) :
    Settles fragment (emitted now retransmission fragment) where
  same := ⟨_, _, _, _, _, _, _, _, rfl⟩
  acknowledged := id
  abandoned := id
  numbered := fun _ => .inr (.inr numbered)

/-- The fragments of a queue may settle at once. -/
theorem settles_map (tx : List TxFragment)
    (settles : ∀ fragment ∈ tx, Settles fragment (change fragment)) :
    List.Forall₂ Settles tx (tx.map change) := by
  rw [List.forall₂_map_right_iff, List.forall₂_same]
  exact settles

/-- One fragment of a queue may settle. -/
theorem settles_modify (present : tx[index]? = some fragment)
    (settles : Settles fragment (change fragment)) :
    List.Forall₂ Settles tx (tx.modify index change) := by
  obtain ⟨bound, found⟩ := List.getElem?_eq_some_iff.1 present
  refine List.forall₂_iff_get.2 ⟨by simp, fun i left right => ?_⟩
  simp only [List.get_eq_getElem, List.getElem_modify]
  split
  · rename_i same
    subst same
    rw [found]
    exact settles
  · exact .refl _

/-- The points that bound the TSNs in use. -/
structure SamePoints (sender other : Sender) : Prop where
  next : other.nextTsn = sender.nextTsn
  peer : other.peerCumulativeTsn = sender.peerCumulativeTsn
  announced : other.advancedPeerAck = sender.advancedPeerAck
  widest : other.widest = sender.widest

/-- What a step may do to the queue and to the points around it. -/
inductive QueueStep (sender other : Sender) : Prop where
  | joined (message : Message) (identifier : BitVec 32) (size now : Nat) :
      sender.SamePoints other → 0 < size → message.data ≠ [] →
      other.tx = sender.tx ++ fragmentsOf message sender.nextMessageId identifier size now →
      QueueStep sender other
  /-- A fragment gets a TSN. -/
  | numbered (index : Nat) (fragment : TxFragment) : sender.tx[index]? = some fragment →
      fragment.tsnAssigned = false → fragment.live = true → other = sender.assignTsn index →
      QueueStep sender other
  | settled : sender.SamePoints other → List.Forall₂ Settles sender.tx other.tx →
      QueueStep sender other
  /-- The peer has acknowledged everything up to a point. -/
  | passed (cumulative : Tsn) (middle : List TxFragment) : List.Forall₂ Settles sender.tx middle →
      (∀ fragment ∈ middle, fragment.upTo cumulative = true → fragment.live = false) →
      other.tx = middle.filter (fun fragment => !(fragment.upTo cumulative && !fragment.live)) →
      other.peerCumulativeTsn = later sender.peerCumulativeTsn cumulative →
      (other.advancedPeerAck = sender.advancedPeerAck ∨
        other.advancedPeerAck = later sender.advancedPeerAck cumulative) →
      other.nextTsn = sender.nextTsn → other.widest = max sender.widest other.span →
      QueueStep sender other
  | announced (advanced : Tsn) : sender.advanced = (advanced, true) →
      after advanced sender.advancedPeerAck = true → other = sender.advanceTo advanced →
      QueueStep sender other

/-- A SACK acknowledges a fragment or not. -/
theorem settles_taken (sack : SackChunk) (fragment : TxFragment) :
    Settles fragment (if newlyAcknowledged sack fragment then acknowledged fragment
      else fragment) := by
  split
  · rename_i hit
    simp only [newlyAcknowledged, Bool.and_eq_true] at hit
    exact settles_acknowledged hit.1.1
  · exact .refl fragment

/-- A SACK passes its cumulative point. -/
theorem passed_applySack (config : Config) (sack : SackChunk) (now : Nat) :
    QueueStep sender (sender.applySack config sack now) := by
  obtain ⟨highest, cwnd, peak, same⟩ := sender.applySack_eq config sack now
  obtain ⟨_, _, _, _, _, _, _, counted⟩ := sender.takeSack_recounted sack now
  rw [same, counted]
  refine .passed sack.cumulative
    ((sender.tx.map fun fragment => if newlyAcknowledged sack fragment then acknowledged fragment
      else fragment).map (countMiss highest)) ?_ ?_ rfl rfl (.inr rfl) rfl rfl
  · rw [List.map_map]
    exact settles_map _ fun fragment _ =>
      (settles_taken sack fragment).trans (settles_countMiss highest _)
  · intro counted member reached
    obtain ⟨fragment, taken, rfl⟩ := List.mem_map.1 member
    obtain ⟨before, -, rfl⟩ := List.mem_map.1 taken
    refine (settles_countMiss highest _).live ?_
    have point := (settles_countMiss highest
      (if newlyAcknowledged sack before then acknowledged before else before)).tsn
    simp only [TxFragment.upTo, point] at reached
    split
    · simp [acknowledged, TxFragment.live]
    · rename_i missed
      rw [if_neg missed] at reached
      simp only [newlyAcknowledged, Bool.and_eq_true] at reached missed
      by_contra alive
      exact missed ⟨⟨reached.1, by simpa using alive⟩, by simp [reached.2]⟩

/-- A SHUTDOWN passes its cumulative point. -/
theorem passed_acknowledgeThrough (cumulative : Tsn) :
    QueueStep sender (sender.acknowledgeThrough cumulative) := by
  obtain ⟨_, _, _, _, _, _, _, counted⟩ := settle_recounted recounted_acknowledged
    (fun fragment => fragment.upTo cumulative && fragment.live) acknowledged sender
  unfold acknowledgeThrough
  rw [counted]
  refine .passed cumulative (sender.tx.map fun fragment =>
    if fragment.upTo cumulative && fragment.live then acknowledged fragment else fragment)
    ?_ ?_ rfl rfl (.inl rfl) rfl rfl
  · refine settles_map _ fun fragment _ => ?_
    split
    · rename_i hit
      simp only [TxFragment.upTo, Bool.and_eq_true] at hit
      exact settles_acknowledged hit.1.1
    · exact .refl fragment
  · intro settled member reached
    obtain ⟨fragment, -, rfl⟩ := List.mem_map.1 member
    split
    · simp [acknowledged, TxFragment.live]
    · rename_i missed
      rw [if_neg missed] at reached
      simp only [reached, Bool.true_and] at missed
      simpa using missed

/-- The TSNs in use, as long as they are fewer than half of all. -/
structure Ordered (sender : Sender) : Prop where
  peer : 0 < offset sender.peerCumulativeTsn sender.nextTsn ∧
    offset sender.peerCumulativeTsn sender.nextTsn < half
  announced : 0 < offset sender.advancedPeerAck sender.nextTsn ∧
    offset sender.advancedPeerAck sender.nextTsn < half
  /-- The queue has TSNs after the point that the peer has acknowledged. -/
  queue : ∀ fragment ∈ sender.tx, fragment.tsnAssigned = true →
    0 < offset fragment.tsn sender.nextTsn ∧
      offset fragment.tsn sender.nextTsn < offset sender.peerCumulativeTsn sender.nextTsn
  /-- Nothing is left up to a point that was announced beyond it. -/
  passed : offset sender.advancedPeerAck sender.nextTsn <
      offset sender.peerCumulativeTsn sender.nextTsn →
    ∀ fragment ∈ sender.tx, fragment.tsnAssigned = true →
      offset fragment.tsn sender.nextTsn < offset sender.advancedPeerAck sender.nextTsn
  distinct : sender.tx.Pairwise Apart

/-- Both points are less than half of all TSNs behind. -/
theorem points_of_span (bounded : sender.span + 1 < half) :
    (0 < offset sender.peerCumulativeTsn sender.nextTsn ∧
      offset sender.peerCumulativeTsn sender.nextTsn < half) ∧
    0 < offset sender.advancedPeerAck sender.nextTsn ∧
      offset sender.advancedPeerAck sender.nextTsn < half := by
  unfold span at bounded
  simp only [half] at bounded ⊢
  have peer := @offset_of_succ sender.peerCumulativeTsn sender.nextTsn (by omega)
  have announced := @offset_of_succ sender.advancedPeerAck sender.nextTsn (by omega)
  omega

/-- A TSN belongs to one fragment. -/
theorem Ordered.unique (ordered : sender.Ordered) {left right : TxFragment}
    (left_mem : left ∈ sender.tx)
    (right_mem : right ∈ sender.tx) (left_numbered : left.tsnAssigned = true)
    (right_numbered : right.tsnAssigned = true) (same : left.tsn = right.tsn) : left = right := by
  by_contra different
  exact ordered.distinct.forall left_mem right_mem different left_numbered right_numbered same

/-- A fragment comes from an earlier one. -/
theorem before_related {α β : Type} {relates : α → β → Prop} {left : List α} {right : List β}
    (related : List.Forall₂ relates left right) {after : β} (member : after ∈ right) :
    ∃ before ∈ left, relates before after := by
  induction related with
  | nil => cases member
  | cons first _ ih =>
    rcases List.mem_cons.1 member with rfl | member
    · exact ⟨_, List.mem_cons_self, first⟩
    · obtain ⟨before, found, related⟩ := ih member
      exact ⟨before, List.mem_cons_of_mem _ found, related⟩

/-- TSNs stay apart when nothing is numbered. -/
theorem apart_settled {settled : List TxFragment} (settles : List.Forall₂ Settles tx settled)
    (apart : tx.Pairwise Apart) : settled.Pairwise Apart := by
  induction settles with
  | nil => exact .nil
  | cons first rest ih =>
    obtain ⟨head, tail⟩ := List.pairwise_cons.1 apart
    refine List.pairwise_cons.2 ⟨fun other member => ?_, ih tail⟩
    obtain ⟨before, member', settles'⟩ := before_related rest member
    intro left right
    rw [first.tsn.1, settles'.tsn.1]
    rw [first.tsn.2] at left
    rw [settles'.tsn.2] at right
    exact head before member' left right

/-- The order is kept while the points stay. -/
theorem Ordered.keep (ordered : sender.Ordered) (same : sender.SamePoints other)
    (queue : ∀ fragment ∈ other.tx, fragment.tsnAssigned = true →
      ∃ before ∈ sender.tx, Settles before fragment)
    (distinct : other.tx.Pairwise Apart) : other.Ordered := by
  refine ⟨?_, ?_, ?_, ?_, distinct⟩
  · rw [same.next, same.peer]
    exact ordered.peer
  · rw [same.next, same.announced]
    exact ordered.announced
  · intro fragment member numbered
    obtain ⟨before, found, settles⟩ := queue fragment member numbered
    rw [same.next, same.peer, settles.tsn.1]
    exact ordered.queue before found (settles.tsn.2 ▸ numbered)
  · intro ahead fragment member numbered
    obtain ⟨before, found, settles⟩ := queue fragment member numbered
    rw [same.next, same.peer, same.announced] at ahead
    rw [same.next, same.announced, settles.tsn.1]
    exact ordered.passed ahead before found (settles.tsn.2 ▸ numbered)

/-- The order is kept when the points pass what leaves the queue. -/
theorem Ordered.move (ordered : sender.Ordered) (next : other.nextTsn = sender.nextTsn)
    (bounded : other.span + 1 < half)
    (queue : ∀ fragment ∈ other.tx, fragment.tsnAssigned = true →
      (∃ before ∈ sender.tx, Settles before fragment) ∧
        offset fragment.tsn sender.nextTsn < offset other.peerCumulativeTsn sender.nextTsn ∧
        (offset other.advancedPeerAck sender.nextTsn <
            offset other.peerCumulativeTsn sender.nextTsn →
          offset fragment.tsn sender.nextTsn < offset other.advancedPeerAck sender.nextTsn))
    (distinct : other.tx.Pairwise Apart) : other.Ordered := by
  obtain ⟨peer, announced⟩ := points_of_span bounded
  refine ⟨peer, announced, ?_, ?_, distinct⟩
  all_goals rw [next]
  · intro fragment member numbered
    obtain ⟨⟨before, found, settles⟩, ahead, -⟩ := queue fragment member numbered
    have inside := ordered.queue before found (settles.tsn.2 ▸ numbered)
    rw [← settles.tsn.1] at inside
    exact ⟨inside.1, ahead⟩
  · intro announced fragment member numbered
    exact (queue fragment member numbered).2.2 announced

/-- A point that may follow another stays or reaches it. -/
theorem later_eq {old new cumulative : Tsn} (moved : new = old ∨ new = later old cumulative) :
    new = old ∨ new = cumulative := by
  rcases moved with same | moved
  · exact .inl same
  · rw [moved, later]
    split
    · exact .inr rfl
    · exact .inl rfl

/-- The order is kept when a cumulative point passes settled fragments. -/
theorem Ordered.pass {cumulative : Tsn} {middle : List TxFragment} (ordered : sender.Ordered)
    (settles : List.Forall₂ Settles sender.tx middle)
    (reached : ∀ fragment ∈ middle, fragment.upTo cumulative = true → fragment.live = false)
    (tx : other.tx = middle.filter fun fragment => !(fragment.upTo cumulative && !fragment.live))
    (peer : other.peerCumulativeTsn = later sender.peerCumulativeTsn cumulative)
    (announced : other.advancedPeerAck = sender.advancedPeerAck ∨
      other.advancedPeerAck = later sender.advancedPeerAck cumulative)
    (next : other.nextTsn = sender.nextTsn) (bounded : other.span + 1 < half) : other.Ordered := by
  have points := points_of_span bounded
  rw [next] at points
  refine ordered.move next bounded ?_ ?_
  · intro fragment member numbered
    rw [tx, List.mem_filter] at member
    obtain ⟨before, found, settled⟩ := before_related settles member.1
    have inside := ordered.queue before found (settled.tsn.2 ▸ numbered)
    have behind := fun ahead => ordered.passed ahead before found (settled.tsn.2 ▸ numbered)
    rw [← settled.tsn.1] at inside behind
    have kept : after fragment.tsn cumulative = true := by
      by_contra passed
      have upTo : fragment.upTo cumulative = true := by
        simp only [TxFragment.upTo, numbered, Bool.eq_false_of_not_eq_true passed,
          Bool.not_false, Bool.and_self]
      simp [upTo, reached fragment member.1 upTo] at member
    have near : offset fragment.tsn sender.nextTsn < half := by
      have bound := ordered.peer.2
      omega
    refine ⟨⟨before, found, settled⟩, ?_⟩
    by_cases moved : after cumulative sender.peerCumulativeTsn = true
    · have here : other.peerCumulativeTsn = cumulative := by
        rw [peer, later, if_pos moved]
      rw [here] at points ⊢
      have ahead := (after_iff_behind near points.1.2).1 kept
      have forward := (after_iff_behind points.1.2 ordered.peer.2).1 moved
      refine ⟨ahead, fun beyond => ?_⟩
      rcases later_eq announced with unmoved | reached
      · rw [unmoved] at beyond ⊢
        exact behind (by omega)
      · rw [reached] at beyond
        omega
    · have here : other.peerCumulativeTsn = sender.peerCumulativeTsn := by
        rw [peer, later, if_neg moved]
      rw [here] at points ⊢
      refine ⟨inside.2, fun beyond => ?_⟩
      rcases later_eq announced with unmoved | reached
      · rw [unmoved] at beyond ⊢
        exact behind beyond
      · rw [reached] at beyond points
        exact absurd ((after_iff_behind points.2.2 points.1.2).2 beyond) moved
  · rw [tx]
    exact (apart_settled settles ordered.distinct).filter _

/-- A fragment without a TSN gets the next one. -/
theorem assignTsn_fresh
    (present : sender.tx[index]? = some fragment) (fresh : fragment.tsnAssigned = false) :
    sender.assignTsn index = { sender with
      nextTsn := sender.nextTsn + 1
      tx := sender.tx.modify index fun fragment =>
        { fragment with tsn := sender.nextTsn, tsnAssigned := true }
      assigned := sender.assigned ++
        [{ fragment with tsn := sender.nextTsn, tsnAssigned := true }] }.measured := by
  unfold assignTsn
  simp only [present, fresh, Bool.false_eq_true, if_false]

/-- A fragment of a changed queue was there or is the changed one. -/
theorem mem_modify (member : fragment ∈ tx.modify index change) :
    fragment ∈ tx ∨ ∃ old ∈ tx, change old = fragment := by
  obtain ⟨place, bound, rfl⟩ := List.mem_iff_getElem.1 member
  rw [List.getElem_modify]
  split
  · exact .inr ⟨_, List.getElem_mem _, rfl⟩
  · exact .inl (List.getElem_mem _)

/-- An unused TSN is apart from all others. -/
theorem apart_modify {tsn : Tsn} (apart : tx.Pairwise Apart)
    (unused : ∀ fragment ∈ tx, fragment.tsnAssigned = true → fragment.tsn ≠ tsn) :
    (tx.modify index fun fragment => { fragment with tsn, tsnAssigned := true }).Pairwise
      Apart := by
  refine List.pairwise_iff_getElem.2 fun left right leftBound rightBound less => ?_
  simp only [List.length_modify] at leftBound rightBound
  simp only [List.getElem_modify]
  have held := List.pairwise_iff_getElem.1 apart left right leftBound rightBound less
  by_cases first : index = left
  · rw [if_pos first, if_neg (by omega)]
    exact fun _ numbered => (unused _ (List.getElem_mem rightBound) numbered).symm
  · rw [if_neg first]
    by_cases second : index = right
    · rw [if_pos second]
      exact fun numbered _ => unused _ (List.getElem_mem leftBound) numbered
    · rw [if_neg second]
      exact held

/-- The order is kept when a fragment gets the next TSN. -/
theorem Ordered.number (ordered : sender.Ordered)
    (present : sender.tx[index]? = some fragment) (fresh : fragment.tsnAssigned = false)
    (bounded : (sender.assignTsn index).widest + 1 < half) : (sender.assignTsn index).Ordered := by
  have numbered := assignTsn_fresh present fresh
  have spanned : (sender.assignTsn index).span + 1 < half := by
    have recorded : (sender.assignTsn index).span ≤ (sender.assignTsn index).widest := by
      rw [numbered]
      exact Nat.le_max_right _ _
    omega
  have points := points_of_span spanned
  have further : ∀ tsn, offset tsn sender.nextTsn < half →
      offset tsn (sender.nextTsn + 1) = offset tsn sender.nextTsn + 1 := by
    intro tsn near
    simp only [half] at near
    exact offset_succ (by omega)
  have peer := further _ ordered.peer.2
  have announced := further _ ordered.announced.2
  have next : offset sender.nextTsn (sender.nextTsn + 1) = 1 := by
    rw [offset_succ] <;> simp
  have members : ∀ other ∈ (sender.assignTsn index).tx, other.tsnAssigned = true →
      other.tsn = sender.nextTsn ∨ ∃ old ∈ sender.tx, old.tsnAssigned = true ∧ old.tsn =
        other.tsn := by
    intro other member given
    rw [numbered] at member
    rcases mem_modify member with unchanged | ⟨old, -, rfl⟩
    · exact .inr ⟨other, unchanged, given, rfl⟩
    · exact .inl rfl
  refine ⟨points.1, points.2, ?_, ?_, ?_⟩
  · intro other member given
    have place := members other member given
    rw [numbered]
    change 0 < offset other.tsn (sender.nextTsn + 1) ∧ offset other.tsn (sender.nextTsn + 1) <
      offset sender.peerCumulativeTsn (sender.nextTsn + 1)
    have positive := ordered.peer.1
    rcases place with new | ⟨old, found, given', same⟩
    · rw [new, next, peer]
      omega
    · have inside := ordered.queue old found given'
      have bound := ordered.peer.2
      rw [same] at inside
      rw [further _ (by omega)]
      omega
  · intro ahead other member given
    have place := members other member given
    rw [numbered] at ahead ⊢
    change offset sender.advancedPeerAck (sender.nextTsn + 1) <
      offset sender.peerCumulativeTsn (sender.nextTsn + 1) at ahead
    change offset other.tsn (sender.nextTsn + 1) < offset sender.advancedPeerAck
      (sender.nextTsn + 1)
    have positive := ordered.announced.1
    rcases place with new | ⟨old, found, given', same⟩
    · rw [new, next, announced]
      omega
    · have inside := ordered.queue old found given'
      have behind := ordered.passed (by omega) old found given'
      have bound := ordered.peer.2
      rw [same] at inside behind
      rw [further _ (by omega)]
      omega
  · rw [numbered]
    exact apart_modify ordered.distinct fun other member given same => by
      have inside := ordered.queue other member given
      rw [same, offset_self] at inside
      omega

/-- The walk over what is settled passes only settled fragments. -/
theorem walkAbandoned_passes (sender : Sender) : ∀ (fuel : Nat) (start : Tsn) (included : Bool),
    ∃ count, (sender.walkAbandoned fuel start included).1 = start + BitVec.ofNat 32 count ∧
      ∀ passed, 0 < passed → passed ≤ count → ∃ fragment ∈ sender.tx,
        fragment.tsnAssigned = true ∧ fragment.tsn = start + BitVec.ofNat 32 passed ∧
          fragment.live = false := by
  intro fuel
  induction fuel with
  | zero => exact fun start included => ⟨0, by simp [walkAbandoned], fun _ _ _ => by omega⟩
  | succ fuel ih =>
    intro start included
    unfold walkAbandoned
    cases found : sender.tx.find? fun fragment =>
        fragment.tsnAssigned && fragment.tsn = start + 1 with
    | none => exact ⟨0, by simp, fun _ _ _ => by omega⟩
    | some fragment =>
      by_cases live : fragment.live = true
      · simp only [live, if_true]
        exact ⟨0, by simp, fun _ _ _ => by omega⟩
      · simp only [live, Bool.false_eq_true, if_false]
        obtain ⟨count, reached, passes⟩ := ih (start + 1) (included || fragment.abandoned)
        have shift : ∀ gone : Nat, start + 1 + BitVec.ofNat 32 gone =
            start + BitVec.ofNat 32 (gone + 1) := by
          intro gone
          rw [BitVec.add_assoc, BitVec.add_comm 1, BitVec.ofNat_add]
          rfl
        refine ⟨count + 1, reached.trans (shift count), fun passed positive within => ?_⟩
        have hit := List.find?_some found
        simp only [Bool.and_eq_true, decide_eq_true_eq] at hit
        by_cases first : passed = 1
        · subst first
          exact ⟨fragment, List.mem_of_find?_eq_some found, hit.1, hit.2, by simpa using live⟩
        · obtain ⟨other, member, numbered, tsn, settled⟩ := passes (passed - 1)
            (by omega) (by omega)
          have back : passed - 1 + 1 = passed := by omega
          rw [shift, back] at tsn
          exact ⟨other, member, numbered, tsn, settled⟩

/-- Everything up to a point is announced as passed. -/
theorem Ordered.announce {advanced : Tsn} (ordered : sender.Ordered)
    (walked : sender.advanced = (advanced, true)) : (sender.advanceTo advanced).Ordered := by
  obtain ⟨count, reached, passes⟩ :=
    sender.walkAbandoned_passes sender.tx.length sender.peerCumulativeTsn false
  have here : advanced = sender.peerCumulativeTsn + BitVec.ofNat 32 count := by
    rw [← reached]
    exact (congrArg Prod.fst walked).symm
  -- The walk would have passed the next TSN otherwise, which nothing in the queue has.
  have short : count < offset sender.peerCumulativeTsn sender.nextTsn := by
    by_contra long
    obtain ⟨fragment, member, numbered, tsn, -⟩ :=
      passes (offset sender.peerCumulativeTsn sender.nextTsn) ordered.peer.1 (by omega)
    have inside := ordered.queue fragment member numbered
    rw [tsn, offset_add (Nat.le_refl _)] at inside
    omega
  have place : offset advanced sender.nextTsn =
      offset sender.peerCumulativeTsn sender.nextTsn - count := by
    rw [here, offset_add (by omega)]
  have bound := ordered.peer.2
  have beyond : ∀ fragment ∈ (sender.advanceTo advanced).tx, fragment.tsnAssigned = true →
      fragment ∈ sender.tx ∧ offset fragment.tsn sender.nextTsn < offset advanced
        sender.nextTsn := by
    intro fragment member numbered
    obtain ⟨found, kept⟩ := List.mem_filter.1 member
    have inside := ordered.queue fragment found numbered
    refine ⟨found, ?_⟩
    by_contra behind
    obtain ⟨other, member', numbered', tsn, settled⟩ := passes
      (offset sender.peerCumulativeTsn sender.nextTsn - offset fragment.tsn sender.nextTsn)
      (by omega) (by omega)
    have same : other.tsn = fragment.tsn := by
      refine @behind_inj _ _ sender.nextTsn ?_
      rw [tsn, offset_add (by omega)]
      omega
    have whole := ordered.unique member' found numbered' numbered same
    subst whole
    have upTo : other.upTo advanced = true := by
      have passed : ¬after other.tsn advanced = true := by
        have near : offset other.tsn sender.nextTsn < half := by omega
        rw [after_iff_behind near (by omega)]
        exact behind
      simp only [TxFragment.upTo, numbered, Bool.eq_false_of_not_eq_true passed, Bool.not_false,
        Bool.and_self]
    simp [upTo, settled] at kept
  refine ⟨ordered.peer, ?_, ?_, ?_, ordered.distinct.filter _⟩
  · change 0 < offset advanced sender.nextTsn ∧ offset advanced sender.nextTsn < half
    omega
  · exact fun fragment member numbered =>
      ordered.queue fragment (beyond fragment member numbered).1 numbered
  · exact fun _ fragment member numbered => (beyond fragment member numbered).2

/-- A step keeps the order while the TSNs in use are few. -/
theorem QueueStep.ordered (stepped : QueueStep sender other)
    (ordered : sender.widest + 1 < half → sender.Ordered) :
    sender.widest ≤ other.widest ∧ (other.widest + 1 < half → other.Ordered) := by
  cases stepped with
  | joined message identifier size now same _ _ queue =>
    refine ⟨same.widest.ge, fun bounded => ?_⟩
    refine (ordered (same.widest ▸ bounded)).keep same (fun fragment member numbered => ?_) ?_
    · rw [queue] at member
      rcases List.mem_append.1 member with old | new
      · exact ⟨fragment, old, .refl fragment⟩
      · rw [(fresh_fragmentsOf new).2.2] at numbered
        cases numbered
    · rw [queue, List.pairwise_append]
      refine ⟨(ordered (same.widest ▸ bounded)).distinct, ?_, fun _ _ _ new _ numbered => ?_⟩
      · refine List.pairwise_iff_getElem.2 fun place _ bound _ _ numbered => ?_
        rw [(fresh_fragmentsOf (List.getElem_mem bound)).2.2] at numbered
        cases numbered
      · rw [(fresh_fragmentsOf new).2.2] at numbered
        cases numbered
  | numbered index fragment present fresh _ same =>
    subst same
    have widest : (sender.assignTsn index).widest = max sender.widest
      (sender.assignTsn index).span := by
      rw [assignTsn_fresh present fresh]
      rfl
    refine ⟨by omega, fun bounded => ?_⟩
    exact (ordered (by omega)).number present fresh bounded
  | settled same settles =>
    refine ⟨same.widest.ge, fun bounded => ?_⟩
    have held := ordered (same.widest ▸ bounded)
    exact held.keep same (fun _ member _ => before_related settles member)
      (apart_settled settles held.distinct)
  | passed cumulative middle settles reached queue peer announced next widest =>
    refine ⟨by omega, fun bounded => ?_⟩
    exact (ordered (by omega)).pass settles reached queue peer announced next (by omega)
  | announced advanced walked _ same =>
    subst same
    exact ⟨Nat.le_refl _, fun bounded => (ordered bounded).announce walked⟩

end Sender

variable {heard : Chunk → Prop} {a b : Association}

/-- Every step of the sending side is one of the queue. -/
theorem SenderStep.queue {sender : Sender} (stepped : SenderStep heard a sender) :
    a.sender.QueueStep sender := by
  have same : List.Forall₂ Settles a.sender.tx a.sender.tx :=
    List.forall₂_same.2 fun fragment _ => .refl fragment
  cases stepped with
  | enqueue message now _ some _ _ _ sized =>
    refine .joined message _ (a.config.payloadSize a.peer.interleaving) now ⟨rfl, rfl, rfl, rfl⟩
      ?_ some rfl
    unfold Config.payloadSize
    omega
  | assign index fragment present _ turn =>
    by_cases assigned : fragment.tsnAssigned = true
    · have still : a.sender.assignTsn index = a.sender := by
        simp only [Sender.assignTsn, present, assigned, if_true]
      rw [still]
      exact .settled ⟨rfl, rfl, rfl, rfl⟩ same
    · have live : fragment.live = true := by
        rcases turn with picked | outstanding
        · obtain ⟨other, found, waiting⟩ := pickUnsent_some picked
          rw [present] at found
          cases found
          simp only [TxFragment.waiting, Bool.and_eq_true] at waiting
          exact waiting.2
        · simp only [TxFragment.outstanding, Bool.and_eq_true] at outstanding
          exact outstanding.2
      exact .numbered index fragment present (by simpa using assigned) live rfl
  | markSent index fragment now retransmission taken present _ _ numbered _ =>
    unfold Sender.markSent
    rw [present]
    exact .settled ⟨rfl, rfl, rfl, rfl⟩
      (settles_modify present (settles_emitted now retransmission numbered))
  | enterRecovery exitTsn =>
    obtain ⟨cwnd, ssthresh, fastRecovery, recovered⟩ := a.sender.enterRecovery_eq a.config exitTsn
    rw [recovered]
    exact .settled ⟨rfl, rfl, rfl, rfl⟩ same
  | unmark index =>
    refine .settled ⟨rfl, rfl, rfl, rfl⟩ ?_
    cases present : a.sender.tx[index]? with
    | none =>
      simp only [List.modify_eq_self (List.getElem?_eq_none_iff.1 present)]
      exact same
    | some fragment =>
      refine settles_modify present ?_
      exact ⟨⟨_, _, _, _, _, _, _, _, rfl⟩, id, id, fun held => held.elim .inl fun done =>
        .inr (.inl done)⟩
  | abandon fragment now _ _ _ =>
    obtain ⟨_, _, _, _, _, _, _, counted⟩ := a.sender.abandonMessage_recounted fragment.messageId
    rw [counted]
    refine .settled ⟨rfl, rfl, rfl, rfl⟩ (settles_map _ fun fragment _ => ?_)
    split
    · exact settles_abandoned fragment
    · exact .refl fragment
  | advance advanced walked ahead => exact .announced advanced walked ahead rfl
  | sack sack now _ _ _ => exact passed_applySack a.config sack now
  | shutdown cumulative _ => exact passed_acknowledgeThrough cumulative
  | _ => exact .settled ⟨rfl, rfl, rfl, rfl⟩ same

/-- A property of fragments that nothing done to one in the queue takes away. -/
structure Upheld (holds : TxFragment → Prop) : Prop where
  numbered : ∀ fragment tsn, holds fragment → holds { fragment with tsn, tsnAssigned := true }
  emitted : ∀ fragment now retransmission, holds fragment →
    holds (Sender.emitted now retransmission fragment)
  unmarked : ∀ fragment, holds fragment → holds { fragment with fastRetransmit := false }
  missed : ∀ fragment highest, holds fragment → holds (Sender.countMiss highest fragment)
  abandoned : ∀ fragment, holds fragment → holds { fragment with abandoned := true, data := none }
  acknowledged : ∀ fragment, holds fragment → holds (Sender.acknowledged fragment)

namespace Upheld

variable {holds : TxFragment → Prop} {sender : Sender} (upheld : Upheld holds)

section

variable (kept : ∀ fragment ∈ sender.tx, holds fragment)

include kept

/-- It holds after one fragment has changed. -/
theorem modify {change : TxFragment → TxFragment}
    (changed : ∀ fragment, holds fragment → holds (change fragment)) (index : Nat) :
    ∀ fragment ∈ sender.tx.modify index change, holds fragment := by
  intro fragment member
  rcases mem_modify member with same | ⟨old, found, rfl⟩
  · exact kept fragment same
  · exact changed old (kept old found)

/-- It holds after some fragments have changed. -/
theorem hit {change : TxFragment → TxFragment}
    (changed : ∀ fragment, holds fragment → holds (change fragment)) (hit : TxFragment → Bool) :
    ∀ fragment ∈ sender.tx.map (fun fragment => if hit fragment then change fragment else fragment),
      holds fragment := by
  intro fragment member
  obtain ⟨old, found, rfl⟩ := List.mem_map.1 member
  split
  · exact changed old (kept old found)
  · exact kept old found

include upheld

/-- It holds after a fragment is numbered. -/
theorem assignTsn (index : Nat) : ∀ fragment ∈ (sender.assignTsn index).tx, holds fragment := by
  unfold Sender.assignTsn
  split
  · split
    · exact kept
    · exact modify kept (fun old => upheld.numbered old _) index
  · exact kept

/-- It holds after a fragment is sent. -/
theorem markSent (index now : Nat) (retransmission taken : Bool) :
    ∀ fragment ∈ (sender.markSent index now retransmission taken).tx, holds fragment := by
  unfold Sender.markSent
  split
  · exact kept
  · exact modify kept (fun old => upheld.emitted old now retransmission) index

/-- A SACK acknowledges fragments, counts misses and drops what it has passed. -/
theorem applySack (config : Config) (sack : SackChunk) (now : Nat) :
    ∀ fragment ∈ (sender.applySack config sack now).tx, holds fragment := by
  obtain ⟨highest, cwnd, peak, same⟩ := sender.applySack_eq config sack now
  obtain ⟨_, _, _, _, _, _, _, counted⟩ := sender.takeSack_recounted sack now
  rw [same]
  intro fragment member
  obtain ⟨old, found, rfl⟩ := List.mem_map.1 (List.mem_of_mem_filter member)
  exact upheld.missed old highest (hit kept upheld.acknowledged _ old found)

/-- It holds after a SHUTDOWN has acknowledged fragments. -/
theorem acknowledgeThrough (cumulative : Tsn) :
    ∀ fragment ∈ (sender.acknowledgeThrough cumulative).tx, holds fragment := by
  obtain ⟨_, _, _, _, _, _, _, counted⟩ := settle_recounted recounted_acknowledged
    (fun fragment => fragment.upTo cumulative && fragment.live) Sender.acknowledged sender
  unfold Sender.acknowledgeThrough
  intro fragment member
  exact hit kept upheld.acknowledged _ fragment (List.mem_of_mem_filter member)

end

include upheld in
/-- Every step keeps the property of the queue, if new messages bring it along. -/
theorem step (stepped : SenderStep heard a sender)
    (kept : ∀ fragment ∈ a.sender.tx, holds fragment)
    (joins : ∀ message now, a.state = .connected → message.data ≠ [] →
      sender.accepted = a.sender.accepted ++ [message] →
      ∀ identifier, ∀ fragment ∈ fragmentsOf message a.sender.nextMessageId identifier
        (a.config.payloadSize a.peer.interleaving) now, holds fragment) :
    ∀ fragment ∈ sender.tx, holds fragment := by
  cases stepped with
  | enqueue message now connected filled _ _ _ _ =>
    intro fragment member
    rcases List.mem_append.1 member with old | new
    · exact kept fragment old
    · exact joins message now connected filled rfl _ fragment new
  | assign index _ _ _ _ => exact upheld.assignTsn kept index
  | markSent index _ now retransmission taken _ _ _ _ _ =>
    exact upheld.markSent kept index now retransmission taken
  | enterRecovery exitTsn =>
    obtain ⟨_, _, _, same⟩ := a.sender.enterRecovery_eq a.config exitTsn
    rw [same]
    exact kept
  | unmark index => exact modify kept upheld.unmarked index
  | abandon fragment now _ _ _ =>
    obtain ⟨_, _, _, _, _, _, _, counted⟩ := a.sender.abandonMessage_recounted fragment.messageId
    exact hit kept upheld.abandoned _
  | advance advanced _ _ =>
    exact fun fragment member => kept fragment (List.mem_of_mem_filter member)
  | sack sack now _ _ _ => exact upheld.applySack kept a.config sack now
  | shutdown cumulative _ => exact upheld.acknowledgeThrough kept cumulative
  | _ => exact kept

end Upheld

end Gizos.Sctp
