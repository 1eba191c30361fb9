import Gizos.Sctp.Walk

/-! # Sending and acknowledging, step by step -/
namespace Gizos.Sctp

open Fault Fault.Program Pal Serial Relation

variable {heard : Chunk → Prop} {a : Association}

/-- A fragment may be put into a packet: it is its turn, or it is sent once more. -/
structure Sendable (sender : Sender) (index : Nat) (fragment : TxFragment)
    (retransmission : Bool) : Prop where
  present : sender.tx[index]? = some fragment
  live : fragment.live = true
  due : sender.pickUnsent = some index ∨ fragment.outstanding = true
  first : retransmission = false → fragment.waiting = true

/-- What follows an emission runs whether the packet was taken or retained. -/
theorem dwells_whenEmitted {body : Op Unit} {change : Bool → Op Unit}
    (walks : Dwells heard body
      (fun _ after => RestsAt heard (change true) after)
      (fun code after => code = errWouldBlock → RestsAt heard (change false) after) a) :
    RestsAt heard (whenEmitted body change) a := by
  refine .bind (.attempt (walks.mono ?_ ?_))
  · intro _ after changes
    exact changes
  · intro code after changes
    by_cases blocked : code = errWouldBlock
    · simp only [blocked, if_true]
      exact .bind ((changes blocked).mono (fun _ _ _ => .fail trivial) fun _ _ _ => trivial)
    · simp only [blocked, if_false]
      exact .fail trivial

/-- A fragment is numbered, said and marked as sent. -/
theorem dwells_emitFragment {index now : Nat} {fragment : TxFragment} {retransmission : Bool}
    (sendable : Sendable a.sender index fragment retransmission) :
    RestsAt heard (emitFragment index now retransmission) a := by
  refine .bind (.read ?_)
  simp only [id_eq, sendable.present, Option.bind_some]
  cases data : fragment.data with
  | none => exact .fail trivial
  | some payload =>
    refine .bind (.require (fun _ => ?_) fun _ => trivial)
    refine .bind (.require (fun free => ?_) fun _ => trivial)
    have carried : fragment.data.isSome = true := by
      rw [data]
      rfl
    refine .bind (.update (.sender (.assign index fragment sendable.present carried
      sendable.due)) ?_)
    obtain ⟨tsn, numbered⟩ := (a.sender.numbered_eq : ∃ tsn, a.sender.numbered fragment = _)
    have present := Sender.getElem?_assignTsn sendable.present
    rw [numbered] at present
    refine .bind (.read ?_)
    simp only [Association.fragmentPacket, Association.mapSender, present, Option.map_some]
    refine dwells_whenEmitted (dwells_emitPacket
      (.data _ payload (List.mem_of_getElem? present) rfl data) ?_ ?_ ?_)
    · intro _ link
      exact .update (.sender (.markSent index _ now retransmission true present
        (by rw [data]; rfl) sendable.live rfl sendable.first)) trivial
    · intro link _
      exact .update (.sender (.markSent index _ now retransmission false present
        (by rw [data]; rfl) sendable.live rfl sendable.first)) trivial
    · intro code link state unblocked blocked
      exact absurd blocked unblocked

/-- The fragment whose turn it is may be sent. -/
theorem Sendable.of_picked {sender : Sender} {index : Nat} {fragment : TxFragment}
    (picked : sender.pickUnsent = some index) (present : sender.tx[index]? = some fragment) :
    Sendable sender index fragment false := by
  obtain ⟨found, same, waiting⟩ := Sender.pickUnsent_some picked
  obtain rfl : found = fragment := Option.some.inj (same.symm.trans present)
  have live : found.live = true := by
    simp only [TxFragment.waiting, Bool.and_eq_true] at waiting
    exact waiting.2
  exact ⟨present, live, .inl picked, fun _ => waiting⟩

/-- A fragment that is outstanding may be sent once more. -/
theorem Sendable.of_outstanding {sender : Sender} {index : Nat} {fragment : TxFragment}
    (present : sender.tx[index]? = some fragment) (outstanding : fragment.outstanding = true) :
    Sendable sender index fragment true := by
  have live : fragment.live = true := by
    simp only [TxFragment.outstanding, Bool.and_eq_true] at outstanding
    exact outstanding.2
  exact ⟨present, live, .inr outstanding, nofun⟩

/-- What the window allows is sent, one fragment after the other. -/
theorem rests_sendLoop (limit now : Nat) : ∀ fuel, Rests heard (sendLoop limit now fuel)
  | 0 => .pure ()
  | fuel + 1 => by
    refine .reading fun a => ?_
    cases found : a.sender.pickUnsent.bind fun index =>
        a.sender.tx[index]?.map fun fragment => (index, fragment) with
    | none => exact .pure trivial
    | some pair =>
      obtain ⟨index, picked, mapped⟩ := Option.bind_eq_some_iff.1 found
      obtain ⟨fragment, present, rfl⟩ := Option.map_eq_some_iff.1 mapped
      by_cases full : limit < fragment.dataLen ∨ limit - fragment.dataLen < a.sender.flightSize
      · simp only [full, if_true]
        exact .pure trivial
      · simp only [full, if_false]
        refine .bind ((dwells_emitFragment (.of_picked picked present)).mono ?_ ?_)
        · intro _ after _
          exact (rests_updateSender fun a => .schedule _).bind
            (fun _ => rests_sendLoop limit now fuel) after
        · exact fun _ _ _ => trivial

/-- Nothing is sent while a packet is retained. -/
theorem rests_sendPending (now : Nat) : Rests heard (sendPending now) :=
  Wanders.reading fun a => (Wanders.require _ _).bind (fun _ => rests_sendLoop _ _ _) a

/-- A marked fragment is sent once more or given up. -/
theorem rests_retransmitMarked (now : Nat) :
    ∀ count index, Rests heard (retransmitMarked now index count)
  | 0, _ => .pure ()
  | count + 1, index => by
    have next := rests_retransmitMarked now count (index + 1)
    refine .reading fun a => ?_
    cases present : a.sender.tx[index]? with
    | none =>
      simp only [id_eq, present]
      exact .pure trivial
    | some fragment =>
      simp only [id_eq, present]
      by_cases marked : (fragment.fastRetransmit && fragment.outstanding) = true
      · have outstanding : fragment.outstanding = true := by
          simp only [Bool.and_eq_true] at marked
          exact marked.2
        simp only [marked, Bool.not_true, Bool.false_eq_true, if_false]
        by_cases outlived : fragment.outlived now = true
        · simp only [outlived, if_true]
          have moved : ({ fragment with fastRetransmit := false } : TxFragment) ∈
              a.sender.tx.modify index fun fragment =>
                { fragment with fastRetransmit := false } := by
            refine List.mem_of_getElem? (i := index) ?_
            rw [List.getElem?_modify_eq, present]
            rfl
          exact .bind (Ensures.update ⟨.tail (.single (.sender (.unmark index)))
            (.sender (.abandon { fragment with fastRetransmit := false } now moved outstanding
              outlived)), next _⟩)
        · simp only [outlived]
          refine .bind (.require (fun _ => ?_) fun _ => trivial)
          exact .bind ((dwells_emitFragment (.of_outstanding present outstanding)).mono
            (fun _ after _ => next after) fun _ _ _ => trivial)
      · simp only [marked, Bool.not_false, if_true]
        exact next a

/-- Recovery is entered before the marked fragments are sent. -/
theorem rests_fastRetransmit (now : Nat) : Rests heard (fastRetransmit now) := by
  refine .reading fun a => ?_
  by_cases marked : (a.sender.tx.any fun fragment =>
      fragment.outstanding && fragment.fastRetransmit) = true
  · simp only [id_eq, marked, if_true]
    exact .bind (.update (.sender (.enterRecovery _)) (rests_retransmitMarked now _ 0 _))
  · simp only [id_eq, marked]
    exact .pure trivial

/-- An expired fragment is sent once more or given up. -/
theorem rests_expireLoop (rto now : Nat) :
    ∀ count index answered deadline, Rests heard (expireLoop rto now index count answered deadline)
  | 0, _, _, deadline => .pure deadline
  | count + 1, index, answered, deadline => by
    have next := rests_expireLoop rto now count (index + 1)
    refine .reading fun a => ?_
    cases present : a.sender.tx[index]? with
    | none =>
      simp only [id_eq, present]
      exact .pure trivial
    | some fragment =>
      simp only [id_eq, present]
      refine Ensures.branch (fun _ => next answered _ a) fun busy => ?_
      have outstanding : fragment.outstanding = true := by simpa using busy
      refine Ensures.branch (fun _ => next answered _ a) fun _ => ?_
      refine Ensures.branch (fun _ => next answered _ a) fun _ => ?_
      refine Ensures.branch (fun outlived => ?_) fun _ => ?_
      · exact Moves.bind (Moves.update (.sender (.abandon fragment now
          (List.mem_of_getElem? present) outstanding outlived)) (next answered _ _))
      refine Ensures.branch (fun _ => Moves.pure trivial) fun _ => ?_
      have backs : Rests heard (onlyIf (!answered) (updateSender Sender.backOff)) :=
        (rests_updateSender fun _ => .backOff).onlyIf
      have emits : ∀ b : Association, b.sender.tx[index]? = some fragment →
          Dwells heard (emitFragment index now true)
            (fun _ => RestsAt heard (do
              onlyIf (!answered) (updateSender Sender.backOff)
              expireLoop rto now (index + 1) count true deadline))
            (fun code => RestsAt heard (do
              require (code = errWouldBlock) code
              onlyIf (!answered) (updateSender Sender.backOff)
              pure now)) b := by
        intro b same
        refine (dwells_emitFragment (.of_outstanding same outstanding)).mono ?_ ?_
        · intro _ after _
          exact (backs.bind fun _ => next true deadline) after
        · intro code after _
          exact ((Wanders.require _ _).bind fun _ => backs.bind fun _ => .pure now) after
      refine Moves.bind (Moves.onlyIf ?_ ?_)
      · intro _
        exact .update (.sender .collapse) (.bind (.attempt (emits _ present)))
      · intro _
        exact .bind (.attempt (emits a present))

/-- The point moves once it is announced. -/
theorem rests_advanceAbandoned (now : Nat) : Rests heard (advanceAbandoned now) := by
  refine .reading fun a => ?_
  obtain ⟨advanced, included, walked⟩ : ∃ advanced included,
      a.sender.advanced = (advanced, included) := ⟨_, _, rfl⟩
  simp only [id_eq, walked]
  by_cases moves : (included && after advanced a.sender.advancedPeerAck) = true
  · simp only [moves, if_true]
    simp only [Bool.and_eq_true] at moves
    rw [moves.1] at walked
    refine dwells_whenEmitted (dwells_emitToPeer (.forward advanced walked moves.2) ?_ ?_ ?_)
    · intro _ link
      exact .update (.sender (.advance advanced walked moves.2)) trivial
    · intro link _
      exact .update (.sender (.advance advanced walked moves.2)) trivial
    · intro code link state unblocked blocked
      exact absurd blocked unblocked
  · simp only [moves]
    exact .pure trivial

/-- Losses, timers and announcements are served in turn. -/
theorem rests_reliabilityService (now deadline : Nat) :
    Rests heard (reliabilityService now deadline) := by
  refine .reading fun a => ?_
  refine (wanders_orElse ((rests_fastRetransmit now).bind fun _ => .pure deadline)).bind
    (fun _ => .reading fun b => ?_) a
  exact (rests_expireLoop _ now _ 0 false _).bind
    (fun deadline => (rests_advanceAbandoned now).bind fun _ => .pure deadline) b

/-- A valid SACK is taken, and then sending goes on. -/
theorem rests_handleSack (sack : SackChunk) (now : Nat) (told : heard (.sack sack)) :
    Rests heard (handleSack sack now) := by
  refine .reading fun a => ?_
  by_cases old : before sack.cumulative a.sender.peerCumulativeTsn = true
  · simp only [id_eq, old, if_true]
    exact .pure trivial
  · simp only [id_eq, old]
    refine .bind (.require (fun valid => ?_) fun _ => trivial)
    refine .bind (.update (.sender (.sack sack now told (by simpa using old) valid)) ?_)
    exact ((wanders_orElse (rests_reliabilityService now noDeadline)).bind fun _ =>
      (wanders_tolerating (rests_sendPending now))) _

/-- A SACK that is said clears its timer. -/
theorem rests_sendSack (now : Nat) : Rests heard (sendSack now) := by
  refine .reading fun a => ?_
  refine .bind (.attempt ((dwells_say .sack).mono ?_ ?_))
  · intro _ after _
    exact ((rests_updateReceiver fun _ => .sackTimer _ _).onlyIf.bind fun _ => .conclude _) after
  · intro _ after _
    exact ((rests_updateReceiver fun _ => .sackTimer _ _).onlyIf.bind fun _ => .conclude _) after

/-- Data starts the timer of the SACK or has it sent. -/
theorem rests_noteData (now : Nat) (immediate : Bool) : Rests heard (noteData now immediate) := by
  refine (rests_updateReceiver fun _ => .sackTimer _ _).bind fun _ => Wanders.reading fun a => ?_
  refine Wanders.branch (fun _ => Wanders.pure ()) (fun _ => ?_) a
  exact (rests_updateReceiver fun _ => .sackTimer _ _).bind fun _ =>
    .branch (fun _ => .pure ()) fun _ => rests_sendSack now

/-- A SACK is sent when it is due. -/
theorem rests_serviceSack (now deadline : Nat) : Rests heard (serviceSack now deadline) := by
  refine .reading fun a => Wanders.branch (fun _ => .pure _) (fun _ => ?_) a
  refine .branch (fun _ => .pure _) fun _ => .branch (fun _ => .pure _) fun _ => ?_
  exact wanders_orElse ((rests_sendSack now).bind fun _ => .pure deadline)

end Gizos.Sctp
