import Gizos.Sctp.Queue

/-! # What a round trip is measured on

A pending measurement names a TSN and the time at which it was sent. It is worth something only if
the acknowledgement that ends it cannot be for another transmission: the fragment was sent once, at
that time, and nothing up to it was sent again since. Whatever could make the measurement ambiguous
gives it up, so that every measurement that is taken is worth something.
-/
namespace Gizos.Sctp

open Fault Fault.Program Pal Serial Sender

variable {sample : Tsn × Nat} {now : Nat} {fragment : TxFragment}

/-- A fragment that waits for the acknowledgement of its only transmission. -/
structure TxFragment.Timed (tsn : Tsn) (sentMs : Nat) (fragment : TxFragment) : Prop where
  assigned : fragment.tsnAssigned = true
  tsn : fragment.tsn = tsn
  sent : fragment.sent = true
  sentMs : fragment.sentMs = sentMs
  once : fragment.retransmits = 0
  live : fragment.live = true

/-- A measurement that is worth something: its fragment is in the queue and was sent once, and since
then no TSN up to it was sent again. -/
structure Sender.Unambiguous (sender : Sender) (tsn : Tsn) (sentMs : Nat) : Prop where
  timed : ∃ fragment ∈ sender.tx, fragment.Timed tsn sentMs
  since : ∃ earlier later,
    sender.sendings = earlier ++ { tsn, sentMs, retransmission := false } :: later ∧
      ∀ sending ∈ later, sending.retransmission = true → after sending.tsn tsn = true

/-- Every pending measurement is worth something, and what was not sent was not sent again. -/
structure Sender.Karn (sender : Sender) : Prop where
  unsent : ∀ fragment ∈ sender.tx, fragment.sent = false → fragment.retransmits = 0
  pending : ∀ tsn sentMs, sender.rttSample = some (tsn, sentMs) → sender.Unambiguous tsn sentMs

variable {config : Config} {heard : Chunk → Prop} {a : Association} {sender other : Sender}
  {tsn : Tsn} {sentMs : Nat}

theorem Sender.Karn.idle (empty : sender.tx = []) (unmeasured : sender.rttSample = none) :
    sender.Karn where
  unsent fragment member := by simp [empty] at member
  pending _ _ measured := by simp [unmeasured] at measured

namespace Sender

/-- A way to settle a fragment that gives up the measurement of its TSN, and never starts one. -/
def Clears (account : Sender → TxFragment → Sender) : Prop :=
  ∀ sender fragment sample, (account sender fragment).rttSample = some sample →
    sender.rttSample = some sample ∧ (fragment.tsnAssigned = true → fragment.tsn ≠ sample.1)

theorem forgetSample_some (kept : (sender.forgetSample tsn).rttSample = some sample) :
    sender.rttSample = some sample ∧ tsn ≠ sample.1 := by
  unfold forgetSample at kept
  split at kept
  · cases kept
  · rename_i other
    rw [kept] at other
    exact ⟨kept, fun same => other (same ▸ rfl)⟩

theorem clears_acknowledged : Clears accountAcknowledged := fun sender fragment sample kept => by
  obtain ⟨pending, other⟩ := forgetSample_some
    (show (sender.forgetSample _).rttSample = _ from kept)
  exact ⟨pending, fun _ => other⟩

theorem clears_abandoned : Clears accountAbandoned := by
  intro sender fragment sample kept
  unfold accountAbandoned releaseBytes at kept
  split at kept
  · obtain ⟨pending, other⟩ := forgetSample_some kept
    exact ⟨pending, fun _ => other⟩
  · rename_i unassigned
    exact ⟨kept, fun assigned => absurd assigned unassigned⟩

theorem sampleRtt_some (kept : (sender.sampleRtt now fragment).rttSample = some sample) :
    sender.rttSample = some sample := by
  unfold sampleRtt at kept
  split at kept
  · exact kept
  · split at kept
    · exact kept
    · split at kept <;> cases kept

theorem clears_sampled (now : Nat) : Clears fun sender fragment =>
    (sender.sampleRtt now fragment).accountAcknowledged fragment := by
  intro sender fragment sample kept
  obtain ⟨pending, other⟩ := clears_acknowledged _ fragment sample kept
  exact ⟨sampleRtt_some pending, other⟩

/-- A pass over the queue gives up the measurement of what it hits. -/
theorem settle_rttSample {account : Sender → TxFragment → Sender} (clears : Clears account)
    {hit : TxFragment → Bool} {settled : TxFragment → TxFragment}
    (kept : (sender.settle hit settled account).rttSample = some sample) :
    sender.rttSample = some sample ∧ ∀ fragment ∈ sender.tx, hit fragment = true →
      fragment.tsnAssigned = true → fragment.tsn ≠ sample.1 := by
  have folded : ∀ (hits : List TxFragment) (start : Sender),
      (hits.foldl account start).rttSample = some sample →
      start.rttSample = some sample ∧
        ∀ fragment ∈ hits, fragment.tsnAssigned = true → fragment.tsn ≠ sample.1 := by
    intro hits
    induction hits with
    | nil => exact fun _ pending => ⟨pending, fun _ member => absurd member List.not_mem_nil⟩
    | cons fragment rest ih =>
      intro start pending
      obtain ⟨before, others⟩ := ih _ pending
      obtain ⟨first, other⟩ := clears start fragment sample before
      exact ⟨first, List.forall_mem_cons.2 ⟨other, others⟩⟩
  obtain ⟨pending, others⟩ := folded _ sender kept
  exact ⟨pending, fun fragment member hits => others fragment (List.mem_filter.2 ⟨member, hits⟩)⟩

/-- What the record of transmissions and the timed fragment outlive. -/
theorem Unambiguous.carry (held : sender.Unambiguous tsn sentMs)
    (sendings : other.sendings = sender.sendings)
    (survives : ∀ fragment ∈ sender.tx, fragment.Timed tsn sentMs →
      ∃ later ∈ other.tx, later.Timed tsn sentMs) : other.Unambiguous tsn sentMs := by
  obtain ⟨fragment, member, timed⟩ := held.timed
  refine ⟨survives fragment member timed, ?_⟩
  rw [sendings]
  exact held.since

/-- A measurement that outlives a pass over the queue is as good as before. -/
theorem Unambiguous.settle {account : Sender → TxFragment → Sender} (clears : Clears account)
    (accounts : ∀ (sender : Sender) fragment, sender.Recounted (account sender fragment))
    {hit : TxFragment → Bool} {settled : TxFragment → TxFragment}
    (pending : ∀ tsn sentMs, sender.rttSample = some (tsn, sentMs) → sender.Unambiguous tsn sentMs)
    (kept : (sender.settle hit settled account).rttSample = some (tsn, sentMs)) :
    (sender.settle hit settled account).Unambiguous tsn sentMs := by
  obtain ⟨before, others⟩ := settle_rttSample clears kept
  obtain ⟨_, _, _, _, _, _, _, counted⟩ := settle_recounted accounts hit settled sender
  refine (pending tsn sentMs before).carry (by rw [counted]) fun fragment member timed => ?_
  -- A timed fragment that were hit would have taken the measurement with it.
  have missed : ¬hit fragment = true := fun hits => others fragment member hits
    timed.assigned timed.tsn
  exact ⟨fragment, List.mem_map.2 ⟨fragment, member, if_neg missed⟩, timed⟩

theorem Unambiguous.prune (held : sender.Unambiguous tsn sentMs) (through : Tsn) :
    (sender.prune through).Unambiguous tsn sentMs := by
  refine held.carry rfl fun fragment member timed =>
    ⟨fragment, List.mem_filter.2 ⟨member, ?_⟩, timed⟩
  simp [timed.live]

end Sender

theorem TxFragment.Timed.missed (timed : fragment.Timed tsn sentMs) (highest : Tsn) :
    (Sender.countMiss highest fragment).Timed tsn sentMs := by
  unfold Sender.countMiss
  split
  · exact { timed with }
  · exact timed

namespace Sender

theorem Unambiguous.moveCumulative (held : sender.Unambiguous tsn sentMs)
    (cumulative highest : Tsn) :
    (sender.moveCumulative cumulative highest).Unambiguous tsn sentMs := by
  have counted : Unambiguous { sender with
      fastRecovery := sender.fastRecovery.filter fun exitTsn => before cumulative exitTsn
      tx := sender.tx.map (countMiss highest)
      peerCumulativeTsn := later sender.peerCumulativeTsn cumulative
      advancedPeerAck := later sender.advancedPeerAck cumulative } tsn sentMs :=
    held.carry rfl fun fragment member timed =>
      ⟨_, List.mem_map_of_mem member, timed.missed highest⟩
  have pruned := counted.prune cumulative
  exact { pruned with }

/-- A fragment of the queue is at the position that is changed, or it stays. -/
theorem mem_modify_of_mem {change : TxFragment → TxFragment} {index : Nat} {tx : List TxFragment}
    (member : fragment ∈ tx) :
    fragment ∈ tx.modify index change ∨
      tx[index]? = some fragment ∧ change fragment ∈ tx.modify index change := by
  obtain ⟨place, bound, rfl⟩ := List.mem_iff_getElem.1 member
  have inside : place < (tx.modify index change).length := by
    rw [List.length_modify]
    exact bound
  have found := List.getElem_mem inside
  rw [List.getElem_modify] at found
  by_cases same : index = place
  · rw [if_pos same] at found
    subst same
    exact .inr ⟨List.getElem?_eq_getElem bound, found⟩
  · rw [if_neg same] at found
    exact .inl found

theorem Unambiguous.assignTsn (held : sender.Unambiguous tsn sentMs) (index : Nat) :
    (sender.assignTsn index).Unambiguous tsn sentMs := by
  unfold Sender.assignTsn
  split
  · rename_i fragment present
    split
    · exact held
    · rename_i assigned
      refine held.carry rfl fun other member timed => ?_
      rcases mem_modify_of_mem member with stays | ⟨there, -⟩
      · exact ⟨other, stays, timed⟩
      · rw [present] at there
        cases there
        exact absurd timed.assigned assigned
  · exact held

/-- The end of a transmission: a first one may start a measurement, and a repeated one gives up that
of a TSN that is not before its own. -/
theorem Karn.markSent (karn : sender.Karn) {index now : Nat} {fragment : TxFragment}
    {retransmission taken : Bool} (present : sender.tx[index]? = some fragment)
    (live : fragment.live = true) (assigned : fragment.tsnAssigned = true)
    (first : retransmission = false → fragment.waiting = true)
    (kept : (sender.markSent index now retransmission taken).rttSample = some (tsn, sentMs)) :
    (sender.markSent index now retransmission taken).Unambiguous tsn sentMs := by
  have inside : fragment ∈ sender.tx := List.mem_of_getElem? present
  have marked : (sender.markSent index now retransmission taken).tx =
      sender.tx.modify index (emitted now retransmission) := by
    simp only [Sender.markSent, present]
  have logged : (sender.markSent index now retransmission taken).sendings =
      sender.sendings ++ [{ tsn := fragment.tsn, sentMs := now, retransmission }] := by
    simp only [Sender.markSent, present]
  simp only [Sender.markSent, present] at kept
  -- An older measurement stays if the fragment is not the timed one and not before it.
  have older : sender.rttSample = some (tsn, sentMs) → (fragment.sent = true → fragment.tsn ≠ tsn) →
      (retransmission = true → after fragment.tsn tsn = true) →
      (sender.markSent index now retransmission taken).Unambiguous tsn sentMs := by
    intro pending other ahead
    have held := karn.pending tsn sentMs pending
    obtain ⟨found, member, timed⟩ := held.timed
    obtain ⟨earlier, later, log, since⟩ := held.since
    constructor
    · rw [marked]
      rcases mem_modify_of_mem member with stays | ⟨there, -⟩
      · exact ⟨found, stays, timed⟩
      · rw [present] at there
        cases there
        exact absurd timed.tsn (other timed.sent)
    · refine ⟨earlier, later ++ [{ tsn := fragment.tsn, sentMs := now, retransmission }], ?_, ?_⟩
      · rw [logged, log, List.append_assoc, List.cons_append]
      · intro sending member again
        rcases List.mem_append.1 member with old | new
        · exact since sending old again
        · rw [List.mem_singleton.1 new] at again ⊢
          exact ahead again
  cases retransmission with
  | true =>
    obtain ⟨pending, ahead⟩ := Option.filter_eq_some_iff.1 kept
    refine older pending (fun _ same => ?_) fun _ => ahead
    rw [same] at ahead
    exact absurd ahead (by simp [after, before_eq])
  | false =>
    have waiting := first rfl
    simp only [TxFragment.waiting, Bool.and_eq_true, Bool.not_eq_true'] at waiting
    simp only [Bool.false_eq_true, if_false] at kept
    split at kept
    · -- The measurement starts here.
      cases kept
      constructor
      · rw [marked]
        have there : (sender.tx.modify index (emitted sentMs false))[index]? =
            some (emitted sentMs false fragment) := by
          simp [present]
        exact ⟨_, List.mem_of_getElem? there, assigned, rfl, rfl, rfl,
          karn.unsent fragment inside waiting.1, live⟩
      · exact ⟨sender.sendings, [], logged, by simp⟩
    · exact older kept (fun sent => absurd sent (by simp [waiting.1])) (by simp)

end Sender

theorem upheld_unsent :
    Upheld fun fragment => fragment.sent = false → fragment.retransmits = 0 where
  numbered _ _ unsent := unsent
  emitted _ _ _ _ := nofun
  unmarked _ unsent := unsent
  missed fragment highest unsent := by
    unfold Sender.countMiss
    split <;> exact unsent
  abandoned _ unsent := unsent
  acknowledged _ unsent := unsent

theorem SenderStep.karn {sender : Sender} (stepped : SenderStep heard a sender)
    (karn : a.sender.Karn) : sender.Karn := by
  refine ⟨upheld_unsent.step stepped karn.unsent fun _ _ _ _ _ _ fragment member _ => ?_, ?_⟩
  · obtain ⟨index, -, rfl⟩ := List.mem_map.1 member
    rfl
  intro tsn sentMs kept
  have quiet : sender.rttSample = a.sender.rttSample → sender.sendings = a.sender.sendings →
      sender.tx = a.sender.tx → sender.Unambiguous tsn sentMs := by
    intro sample sendings tx
    refine (karn.pending tsn sentMs (sample ▸ kept)).carry sendings fun fragment member timed => ?_
    exact ⟨fragment, tx ▸ member, timed⟩
  cases stepped with
  | enqueue message now _ _ _ _ _ _ =>
    exact (karn.pending tsn sentMs kept).carry rfl fun fragment member timed =>
      ⟨fragment, List.mem_append_left _ member, timed⟩
  | assign index fragment present _ _ =>
    have same : (a.sender.assignTsn index).rttSample = a.sender.rttSample := by
      simp only [Sender.assignTsn, present]
      split <;> rfl
    exact (karn.pending tsn sentMs (same ▸ kept)).assignTsn index
  | markSent index fragment now retransmission taken present _ live assigned first =>
    exact karn.markSent present live assigned first kept
  | enterRecovery exitTsn =>
    obtain ⟨_, _, _, same⟩ := a.sender.enterRecovery_eq a.config exitTsn
    exact quiet (by rw [same]) (by rw [same]) (by rw [same])
  | unmark index =>
    refine (karn.pending tsn sentMs kept).carry rfl fun fragment member timed => ?_
    rcases mem_modify_of_mem member with stays | ⟨-, changed⟩
    · exact ⟨fragment, stays, timed⟩
    · exact ⟨_, changed, timed.assigned, timed.tsn, timed.sent, timed.sentMs,
        timed.once, timed.live⟩
  | abandon fragment now _ _ _ =>
    exact .settle clears_abandoned recounted_abandoned karn.pending kept
  | advance advanced _ _ =>
    have pending := karn.pending tsn sentMs kept
    exact @Sender.Unambiguous.prune { a.sender with advancedPeerAck := advanced } tsn sentMs
      { pending with } advanced
  | sack sack now _ _ _ =>
    obtain ⟨highest, cwnd, peak, same⟩ := a.sender.applySack_eq a.config sack now
    rw [same] at kept ⊢
    have taken : (a.sender.takeSack sack now).Unambiguous tsn sentMs :=
      .settle (clears_sampled now) (recounted_sampled now)
        (fun tsn sentMs before => ⟨(karn.pending tsn sentMs before).timed,
          (karn.pending tsn sentMs before).since⟩) kept
    have moved := taken.moveCumulative sack.cumulative highest
    exact { moved with }
  | shutdown cumulative _ =>
    have settled : (a.sender.settle (fun fragment => fragment.upTo cumulative && fragment.live)
        Sender.acknowledged Sender.accountAcknowledged).Unambiguous tsn sentMs :=
      .settle clears_acknowledged recounted_acknowledged karn.pending kept
    have pruned := settled.prune cumulative
    exact { pruned with }
  | _ => exact quiet rfl rfl rfl

theorem Step.karn {b : Association} (stepped : Step heard a b) (karn : a.sender.Karn) :
    b.sender.Karn := by
  rcases stepped.sender_cases with same | moved | ⟨window, same⟩
  · rw [same]
    exact karn
  · exact moved.karn karn
  · rw [same]
    exact ⟨karn.unsent, fun tsn sentMs pending =>
      ⟨(karn.pending tsn sentMs pending).timed, (karn.pending tsn sentMs pending).since⟩⟩

theorem Reachable.karn (reachable : Reachable config a) : a.sender.Karn :=
  reachable.invariant (fun a => a.sender.Karn) (fun _ _ _ => .idle rfl rfl)
    fun _ _ _ karn stepped => stepped.karn karn

/-! Measurements are taken from what is pending, and from nothing else. -/

namespace Sender

/-- What is known of the round trip. -/
def estimate (sender : Sender) : Bool × Nat × Nat × Nat :=
  (sender.rttInitialized, sender.srttMs, sender.rttvarMs, sender.rtoMs)

variable {now : Nat} {fragment found : TxFragment}

/-- A measurement depends on what is pending, on what is known and on the TSN that is met. -/
theorem estimate_sampleRtt (sample : other.rttSample = sender.rttSample)
    (same : other.estimate = sender.estimate) (tsn : found.tsn = fragment.tsn) :
    (other.sampleRtt now found).estimate = (sender.sampleRtt now fragment).estimate := by
  simp only [estimate, Prod.mk.injEq] at same
  obtain ⟨initialized, srtt, rttvar, rto⟩ := same
  unfold sampleRtt
  rw [sample, tsn]
  cases sender.rttSample with
  | none => simp only [estimate, initialized, srtt, rttvar, rto]
  | some pending =>
    dsimp only
    split
    · simp only [estimate, initialized, srtt, rttvar, rto]
    · split <;> simp only [estimate, initialized, srtt, rttvar, rto]

/-- What is known of the round trip changes only when the pending fragment is met, and not when it
was sent later than now. -/
theorem estimate_changed (changed : (sender.sampleRtt now fragment).estimate ≠ sender.estimate) :
    ∃ sentMs, sender.rttSample = some (fragment.tsn, sentMs) ∧ sentMs ≤ now := by
  unfold sampleRtt at changed
  cases pending : sender.rttSample with
  | none => simp [pending] at changed
  | some sample =>
    obtain ⟨tsn, sentMs⟩ := sample
    simp only [pending] at changed
    split at changed
    · exact absurd rfl changed
    · rename_i same
      split at changed
      · exact absurd rfl changed
      · rename_i late
        exact ⟨sentMs, by rw [not_not.1 same], not_lt.1 late⟩

/-- What a measurement leaves pending was pending before, for another fragment. -/
theorem sampled_rttSample
    (kept : ((sender.sampleRtt now fragment).accountAcknowledged fragment).rttSample =
      some sample) :
    sender.rttSample = some sample ∧ fragment.tsn ≠ sample.1 := by
  obtain ⟨pending, other⟩ :=
    forgetSample_some (show ((sender.sampleRtt now fragment).forgetSample _).rttSample =
      _ from kept)
  exact ⟨sampleRtt_some pending, other⟩

/-- A pass over fragments takes at most one measurement, from the pending one. -/
theorem estimate_fold : ∀ (hits : List TxFragment) (start : Sender),
    (hits.foldl (fun sender fragment => (sender.sampleRtt now fragment).accountAcknowledged
      fragment) start).estimate ≠ start.estimate →
    ∃ fragment ∈ hits, ∃ sentMs, start.rttSample = some (fragment.tsn, sentMs) ∧ sentMs ≤ now ∧
      (hits.foldl (fun sender fragment => (sender.sampleRtt now fragment).accountAcknowledged
        fragment) start).estimate = (start.sampleRtt now fragment).estimate
  | [], _, changed => absurd rfl changed
  | fragment :: rest, start, changed => by
    have further := estimate_fold rest ((start.sampleRtt now fragment).accountAcknowledged fragment)
    have next : ((start.sampleRtt now fragment).accountAcknowledged fragment).estimate =
      (start.sampleRtt now fragment).estimate := rfl
    by_cases first : (start.sampleRtt now fragment).estimate = start.estimate
    · obtain ⟨found, member, sentMs, pending, early, measured⟩ :=
        further fun same => changed (same.trans (next.trans first))
      have before := (sampled_rttSample pending).1
      refine ⟨found, List.mem_cons_of_mem _ member, sentMs, before, early, measured.trans ?_⟩
      exact estimate_sampleRtt (pending.trans before.symm) (next.trans first) rfl
    · obtain ⟨sentMs, pending, early⟩ := estimate_changed first
      refine ⟨fragment, List.mem_cons_self, sentMs, pending, early, ?_⟩
      by_contra again
      -- The measurement that was just taken is not pending any more.
      obtain ⟨found, _, _, left, _, _⟩ := further again
      obtain ⟨before, other⟩ := sampled_rttSample left
      exact other (congrArg Prod.fst (Option.some.inj (pending.symm.trans before)))

end Sender

/-- In every reachable state a pending measurement is worth something: its fragment is in the queue,
live, and was sent once at the time on record, and no TSN up to it was sent again since. So is every
measurement that is taken, wherever in a packet the SACK stands that ends it: what is known of the
round trip changes to what the pending measurement says, and its fragment is acknowledged for the
first time. -/
theorem samples_unambiguous (reachable : Reachable config a) :
    (∀ tsn sentMs, a.sender.rttSample = some (tsn, sentMs) → a.sender.Unambiguous tsn sentMs) ∧
      ∀ (packet : Packet) (now : Nat) (answers : Nat → Turn) (time count : Nat) (sack : SackChunk),
        packet.chunks[count]? = some (.sack sack) →
        let sender := (a.station packet now answers time count).sender
        (sender.takeSack sack now).estimate ≠ sender.estimate →
        ∃ fragment ∈ sender.tx, ∃ sentMs, sender.rttSample = some (fragment.tsn, sentMs) ∧
          fragment.Timed fragment.tsn sentMs ∧ sender.Unambiguous fragment.tsn sentMs ∧
          Sender.newlyAcknowledged sack fragment = true ∧ sentMs ≤ now ∧
          (sender.takeSack sack now).estimate = (sender.sampleRtt now fragment).estimate := by
  refine ⟨reachable.karn.pending, ?_⟩
  intro packet now answers time count sack _ sender changed
  have karn : sender.Karn := reachable.station (fun a => a.sender.Karn)
    (fun _ _ _ => .idle rfl rfl) (fun _ _ _ karn stepped => stepped.karn karn) packet now answers
    time count
  obtain ⟨hit, member, sentMs, pending, early, measured⟩ := estimate_fold
    (sender.tx.filter (Sender.newlyAcknowledged sack))
    { sender with peerReceiveWindow := sack.window }
    changed
  have held := karn.pending hit.tsn sentMs pending
  obtain ⟨fragment, inside, timed⟩ := held.timed
  have acknowledged := (List.mem_filter.1 member).2
  simp only [Sender.newlyAcknowledged, Bool.and_eq_true] at acknowledged
  refine ⟨fragment, inside, sentMs, ?_⟩
  rw [timed.tsn]
  refine ⟨pending, timed, held, ?_, early, measured.trans ?_⟩
  · simp only [Sender.newlyAcknowledged, timed.assigned, timed.live, timed.tsn, Bool.and_self,
      Bool.true_and]
    exact acknowledged.2
  · exact estimate_sampleRtt rfl rfl timed.tsn.symm

/-- A message is timed from when it is sent, and the SACK for it is a measurement. -/
theorem samples_unambiguous_once :
    let a := Sample.played true true 0 [Sample.calm (.send (Sample.message 50 0 false .reliable) 5)]
    let sack : SackChunk := { cumulative := 0, window := 4000, gaps := [] }
    let sender := (a.station (Sample.packet [.sack sack]) 25 (fun _ => {}) 0 0).sender
    a.sender.Unambiguous 0 5 ∧ (sender.takeSack sack 25).estimate = (true, 20, 10, 200) ∧
      ∃ fragment ∈ sender.tx, Sender.newlyAcknowledged sack fragment = true := by
  intro a sack sender
  have reachable : Reachable (Sample.small .active) a := Sample.played_reachable true true 0 _
  have held := samples_unambiguous reachable
  refine ⟨held.1 0 5 (by decide +kernel), by decide +kernel, ?_⟩
  obtain ⟨fragment, member, _, _, _, _, acknowledged, _⟩ :=
    held.2 (Sample.packet [.sack sack]) 25 (fun _ => {}) 0 0 sack rfl (by decide +kernel)
  exact ⟨fragment, member, acknowledged⟩

end Gizos.Sctp
