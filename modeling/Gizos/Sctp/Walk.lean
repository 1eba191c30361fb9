import Gizos.Sctp.Steady

/-! # Every call is a path of steps

The routines are walked through once, with the guards of the steps that they take.
-/
namespace Gizos.Sctp

open Fault Fault.Program Pal Serial Relation Association

variable {onReturn : Unit → Association → Prop} {onFail : Int → Association → Prop}
  {onReset : Association → Prop} {kind : Option ControlKind} {now : Nat} {chunk : Chunk}

namespace Association

/-- A packet of a control kind is kept. -/
def keepControl (a : Association) (packet : Packet) (kind : Option ControlKind) (now : Nat) :
    Association :=
  match kind with
  | none => a
  | some kind => a.setControl packet kind now

end Association

variable {heard : Chunk → Prop} {a : Association}

theorem ensures_allocate {onReturn : Bool → Association → Prop}
    (returns : ∀ granted, onReturn granted a) :
    Ensures Turn.Any allocate onReturn onFail onReset a :=
  fun answers _ time => returns (answers time).granted

theorem moves_allocate {step : Association → Association → Prop}
    {onReturn : Bool → Association → Prop} (returns : ∀ granted, onReturn granted a) :
    Moves Turn.Any step allocate onReturn onFail a :=
  ensures_allocate fun granted => ⟨.refl, returns granted⟩

theorem ensures_invokeEmit {packet : Packet} {onReturn : Int → Association → Prop}
    (taken : onReturn 0 (a.transmit packet)) (refused : ∀ code, code ≠ 0 → onReturn code a) :
    Ensures Turn.Any (invokeEmit packet) onReturn onFail onReset a := by
  intro answers _ time
  change onReturn (answers time).code (if (answers time).code = 0 then a.transmit packet else a)
  by_cases zero : (answers time).code = 0
  · rw [if_pos zero, zero]
    exact taken
  · rw [if_neg zero]
    exact refused _ zero

/-- How an emission ends: the packet was taken, it was retained, something else is retained, or it
failed for good. -/
theorem ensures_emitPacket {packet : Packet}
    (taken : a.link.pendingEmit = none →
      onReturn () ((a.keepControl packet kind now).transmit packet))
    (retained : a.link.pendingEmit = none →
      onFail errWouldBlock ((a.keepControl packet kind now).retain packet))
    (busy : a.link.pendingEmit ≠ none → onFail errWouldBlock a)
    (starved : kind ≠ none → onFail errNoMemory a)
    (broken : a.link.pendingEmit = none → ∀ code, code ≠ 0 → code ≠ errWouldBlock →
      onFail code (a.keepControl packet kind now).failed) :
    Ensures Turn.Any (emitPacket packet kind now) onReturn onFail onReset a := by
  have emission : a.link.pendingEmit = none →
      Ensures Turn.Any (invokeEmit packet >>= fun code =>
        if code = errWouldBlock then (do
          update fun association => association.retain packet
          fail errWouldBlock)
        else if code = 0 then pure ()
        else do
          update Association.failed
          fail code) onReturn onFail onReset (a.keepControl packet kind now) := by
    intro free
    refine .bind (ensures_invokeEmit ?_ ?_)
    · exact .pure (taken free)
    · intro code nonzero
      by_cases blocked : code = errWouldBlock
      · rw [if_pos blocked]
        exact .bind (.update (.fail (retained free)))
      · rw [if_neg blocked, if_neg nonzero]
        exact .bind (.update (.fail (broken free code nonzero blocked)))
  refine .bind (.read (.bind (.require ?_ ?_)))
  · intro idle
    have free : a.link.pendingEmit = none := by simpa using idle
    cases kind with
    | none => exact emission free
    | some kind =>
      refine .bind (ensures_allocate ?_)
      intro granted
      refine .bind (.require ?_ ?_)
      · intro _
        exact .bind (.update (emission free))
      · intro _
        exact starved nofun
  · intro filled
    exact busy (by simpa using filled)

theorem failed_eq (b : Association) : ∃ link state, b.failed = { b with link, state } := by
  unfold Association.failed
  split
  · exact ⟨b.link, b.state, rfl⟩
  · exact ⟨_, _, rfl⟩

/-- A packet that may be said is kept if it is a control packet, and may leave then. -/
theorem keepControl_path {tag : BitVec 32} (now : Nat) (spoken : Says heard a tag kind chunk)
    (free : a.link.pendingEmit = none) :
    ReflTransGen (Step heard) a (a.keepControl (a.packetOf tag chunk) kind now) ∧
      Spoken heard (a.keepControl (a.packetOf tag chunk) kind now) (a.packetOf tag chunk) ∧
      (a.keepControl (a.packetOf tag chunk) kind now).link.pendingEmit = none := by
  cases kind with
  | none => exact ⟨.refl, .said spoken free, free⟩
  | some kind => exact ⟨.single (.link (.controlled _ spoken free)), .kept (.inr rfl), free⟩

/-- An emission of what may be said changes nothing but the link and, when it fails for good, the
state. -/
theorem dwells_emitPacket {tag : BitVec 32} (spoken : Says heard a tag none chunk)
    (taken : a.link.pendingEmit = none → ∀ link, onReturn () { a with link })
    (blocked : ∀ link, onFail errWouldBlock { a with link })
    (broken : ∀ code link state, code ≠ errWouldBlock → onFail code { a with link, state }) :
    Dwells heard (emitPacket (a.packetOf tag chunk) none now) onReturn onFail a := by
  refine ensures_emitPacket ?_ ?_ ?_ ?_ ?_
  · intro free
    exact ⟨.single (.sent (.said spoken free)), taken free _⟩
  · intro free
    exact ⟨.single (.retained (.said spoken free) free), blocked _⟩
  · intro _
    exact ⟨.refl, blocked a.link⟩
  · exact fun kept => absurd rfl kept
  · intro free code _ unblocked
    refine ⟨.single (.failed a), ?_⟩
    obtain ⟨link, state, failed⟩ := failed_eq a
    change onFail code a.failed
    rw [failed]
    exact broken _ _ _ unblocked

theorem dwells_emitToPeer (spoken : Says heard a a.peer.verificationTag none chunk)
    (taken : a.link.pendingEmit = none → ∀ link, onReturn () { a with link })
    (blocked : ∀ link, onFail errWouldBlock { a with link })
    (broken : ∀ code link state, code ≠ errWouldBlock → onFail code { a with link, state }) :
    Dwells heard (emitToPeer chunk none now) onReturn onFail a :=
  .bind (.read (.bind (.read (dwells_emitPacket spoken taken blocked broken))))

section Wanders

variable {step : Association → Association → Prop}

theorem wanders_orElse {α : Type} {codes : List Int} {value : α} {body : Op α}
    (wanders : Wanders Turn.Any step body) : Wanders Turn.Any step (orElse codes value body) :=
  wanders.recovering fun _ => .branch (fun _ => .pure value) fun _ => .fail _

theorem wanders_tolerating {codes : List Int} {body : Op Unit}
    (wanders : Wanders Turn.Any step body) : Wanders Turn.Any step (tolerating codes body) :=
  wanders_orElse wanders

theorem wanders_allocate : Wanders Turn.Any step allocate := fun _ => moves_allocate fun _ =>
    trivial

end Wanders

theorem rests_updateSender {change : Sender → Sender}
    (stepped : ∀ a : Association, SenderStep heard a (change a.sender)) :
    Rests heard (updateSender change) := .update fun a => .sender (stepped a)

theorem rests_updateReceiver {change : Receiver → Receiver}
    (stepped : ∀ a : Association, ReceiverStep heard a (change a.receiver)) :
    Rests heard (updateReceiver change) := .update fun a => .receiver (stepped a)

theorem dwells_say (spoken : Says heard a a.peer.verificationTag none chunk) :
    RestsAt heard (emitToPeer chunk none now) a :=
  dwells_emitToPeer spoken (fun _ _ => trivial) (fun _ => trivial) fun _ _ _ _ => trivial

theorem rests_say (spoken : ∀ a, Says heard a a.peer.verificationTag none chunk) :
    Rests heard (emitToPeer chunk none now) := fun a => dwells_say (spoken a)

theorem rests_failed : Rests heard (update Association.failed) := .update Lingers.failed

/-- A packet that was retained is taken, or the association fails with it. -/
theorem rests_retryPendingEmit : Rests heard retryPendingEmit := by
  refine .reading fun a => ?_
  cases pending : a.link.pendingEmit with
  | none => exact Moves.pure trivial
  | some packet =>
    have resent : Lingers heard a (a.transmit packet) := .sent (.kept (.inl pending))
    refine Ensures.bind (ensures_invokeEmit ?_ ?_)
    · refine Ensures.bind (Ensures.require (fun _ => ?_) fun _ => ⟨.single resent, trivial⟩)
      refine Ensures.bind (Ensures.update (Ensures.pure ⟨.single ⟨?_, rfl, .inr ?_⟩, trivial⟩))
      · exact resent.path.tail (.link .released)
      refine ⟨rfl, rfl, rfl, rfl, rfl, fun _ other uttered => ?_⟩
      rcases uttered with sent | retained
      · exact .inl (List.mem_append_left [packet] sent)
      · rw [pending] at retained
        cases retained
        exact .inl (List.mem_append_right _ List.mem_cons_self)
    · intro code nonzero
      refine Ensures.bind (Ensures.require (fun _ => ?_) fun _ => ⟨.refl, trivial⟩)
      refine Ensures.bind (Ensures.update ?_)
      rw [if_neg nonzero]
      refine Ensures.bind (Ensures.update (Ensures.fail ⟨.single ⟨?_, ?_⟩, trivial⟩))
      · exact .head (.link .released) (failed_path _)
      unfold Association.failed
      split
      · rename_i ended
        exact ⟨rfl, .inr ⟨rfl, rfl, rfl, rfl, rfl, fun lasting => absurd ended.symm lasting⟩⟩
      · exact ⟨rfl, .inl rfl⟩

/-- The clock is taken over unless it goes back. -/
theorem ensures_validateOperation (returns : onReturn () { a with lastNowMs := some now })
    (refused : onFail errInvalidArg a) :
    Ensures Turn.Any (validateOperation now) onReturn onFail onReset a := by
  refine .bind (.require (fun _ => ?_) fun _ => refused)
  refine .bind (.read (.bind (.require (fun _ => ?_) fun _ => refused)))
  exact .update returns

theorem rests_validateOperation (now : Nat) : Rests heard (validateOperation now) := by
  refine (Wanders.require _ _).bind fun _ => .reading fun a => ?_
  exact (Wanders.require _ _).bind (fun _ => .update fun a => .idle _ _ _) a

end Gizos.Sctp
