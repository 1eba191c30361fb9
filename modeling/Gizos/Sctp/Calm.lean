import Gizos.Sctp.Run

/-! # Calls whose surroundings grant everything

Memory is granted and the transport takes every packet. What a call then does is determined by the
state alone.
-/
namespace Gizos.Sctp

open Fault Fault.Program Pal Serial

variable {onReturn : Unit → Association → Prop} {now : Nat}

/-- Memory is granted, and callbacks report success. -/
def Turn.Calm (turn : Turn) : Prop := turn.granted = true ∧ turn.code = 0

variable {a : Association}

/-- What a call achieves when everything is granted is where some run leads. -/
theorem reaches_of_achieves {α : Type} {body : Op α} {post : Association → Prop}
    (achieved : Achieves Turn.Calm body (fun _ => post) a) :
    ∃ b, Reaches Turn.Any body a b ∧ post b := by
  have ending := achieved (fun _ => {}) (fun _ => ⟨rfl, rfl⟩) 0
  refine ⟨(body (fun _ => {}) 0 a).state, ⟨fun _ => {}, fun _ => trivial, 0, rfl⟩, ?_⟩
  cases outcome : body (fun _ => {}) 0 a with
  | returned value after time =>
    rw [outcome] at ending
    exact ending
  | failed code after time | stopped after =>
    rw [outcome] at ending
    exact ending.elim

/-- An allocation is granted. -/
theorem achieves_allocate {onReturn : Bool → Association → Prop} (holds : onReturn true a) :
    Achieves Turn.Calm allocate onReturn a := by
  intro answers calm time
  change onReturn (answers time).granted a
  rw [(calm time).1]
  exact holds

/-- So are many, one after the other. -/
theorem achieves_allocateEach {onReturn : Bool → Association → Prop} (holds : onReturn true a) :
    ∀ count, Achieves Turn.Calm (allocateEach count) onReturn a
  | 0 => .pure holds
  | count + 1 => .bind (achieves_allocate (achieves_allocateEach holds count))

/-- The transport takes the packet. -/
theorem achieves_invokeEmit {packet : Packet} {onReturn : Int → Association → Prop}
    (holds : onReturn 0 (a.transmit packet)) :
      Achieves Turn.Calm (invokeEmit packet) onReturn a := by
  intro answers calm time
  change onReturn (answers time).code (if (answers time).code = 0 then a.transmit packet else a)
  rw [(calm time).2]
  exact holds

/-- A packet is taken, and kept if it is to be repeated. -/
theorem achieves_emitPacket {packet : Packet} {kind : Option ControlKind}
    (free : a.link.pendingEmit = none)
    (holds : onReturn () ((a.keepControl packet kind now).transmit packet)) :
    Achieves Turn.Calm (emitPacket packet kind now) onReturn a := by
  have emission : Achieves Turn.Calm (invokeEmit packet >>= fun code =>
      if code = errWouldBlock then (do
        update fun association => association.retain packet
        fail errWouldBlock)
      else if code = 0 then pure ()
      else do
        update Association.failed
        fail code) onReturn (a.keepControl packet kind now) :=
    .bind (achieves_invokeEmit (.pure holds))
  refine .bind (.read (.bind (.require ?_ ?_)))
  · intro _
    cases kind with
    | none => exact emission
    | some kind =>
      refine .bind (achieves_allocate (.bind (.require ?_ ?_)))
      · intro _
        exact .bind (.update emission)
      · exact fun refused => refused rfl
  · intro busy
    rw [free] at busy
    exact busy rfl

/-- A clock that does not go back is taken over. -/
theorem achieves_validateOperation (early : now < noDeadline) (later : a.lastNowMs.getD 0 ≤ now)
    (holds : onReturn () { a with lastNowMs := some now }) :
    Achieves Turn.Calm (validateOperation now) onReturn a := by
  refine .bind (.require (fun _ => ?_) fun late => late early)
  refine .bind (.read (.bind (.require (fun _ => ?_) fun back => ?_)))
  · exact .update holds
  · exact back later

/-- A stream is there or created. -/
theorem achieves_getOrCreate {streamId : Nat} {onReturn : Bool → Association → Prop}
    (holds : ∀ known, onReturn true { a with known }) :
    Achieves Turn.Calm (getOrCreate streamId) onReturn a := by
  refine .bind (.read ?_)
  by_cases present : streamId ∈ a.known
  · simp only [present, decide_true, if_true]
    exact .pure (holds a.known)
  · simp only [present, decide_false, Bool.false_eq_true, if_false]
    refine .bind (achieves_allocate ?_)
    exact .bind (.update (.pure (holds _)))

/-- Nothing is sent when nothing waits. -/
theorem ensures_sendLoop_idle {admits : Turn → Prop} {limit : Nat}
    {onFail : Int → Association → Prop} {onReset : Association → Prop}
    (idle : a.sender.pickUnsent = none) (holds : onReturn () a) :
    ∀ fuel, Ensures admits (sendLoop limit now fuel) onReturn onFail onReset a
  | 0 => .pure holds
  | fuel + 1 => by
    refine .bind (.read ?_)
    simp only [idle, Option.bind_none]
    exact .pure holds

/-- An empty queue leaves the service nothing to do. -/
theorem ensures_reliabilityService_empty {admits : Turn → Prop}
    {onReturn : Nat → Association → Prop} {onFail : Int → Association → Prop}
    {onReset : Association → Prop} (deadline : Nat) (empty : a.sender.tx = [])
    (holds : onReturn deadline a) :
    Ensures admits (reliabilityService now deadline) onReturn onFail onReset a := by
  have still : a.sender.advanced = (a.sender.peerCumulativeTsn, false) := by
    unfold Sender.advanced
    rw [empty]
    rfl
  refine .bind (.read (.bind (.recovering (.bind (.bind (.read ?_))))))
  simp only [id_eq, empty, List.any_nil, Bool.false_eq_true, if_false]
  refine .pure (.pure (.bind (.read ?_)))
  simp only [empty, List.length_nil]
  refine .bind (.pure (.bind (.bind (.read ?_))))
  simp only [id_eq, still, Bool.false_and, Bool.false_eq_true, if_false]
  exact .pure (.pure holds)

/-- A fragment is numbered, taken and marked as sent. -/
theorem achieves_emitFragment {index : Nat} {retransmission : Bool} {fragment : TxFragment}
    {payload : Bytes} (present : a.sender.tx[index]? = some fragment)
    (data : fragment.data = some payload)
    (fits : a.config.fits a.peer.interleaving fragment.dataLen = true)
    (free : a.link.pendingEmit = none)
    (holds : onReturn () (((a.mapSender fun sender => sender.assignTsn index).transmit
      (a.packetOf a.peer.verificationTag
      (.data ((a.sender.numbered fragment).chunk a.peer.interleaving payload)))).mapSender
      fun sender => sender.markSent index now retransmission true)) :
    Achieves Turn.Calm (emitFragment index now retransmission) onReturn a := by
  have numbered := Sender.getElem?_assignTsn present
  refine .bind (.read ?_)
  simp only [id_eq, present, data, Option.bind_some, Option.map_some]
  refine .bind (.require (fun _ => ?_) fun unfit => unfit fits)
  refine .bind (.require (fun _ => ?_) fun busy => busy free)
  refine .bind (.update (.bind (.read ?_)))
  simp only [Association.fragmentPacket, Association.mapSender, numbered, Option.map_some]
  refine .bind (.attempt (Achieves.ensures (achieves_emitPacket free ?_)))
  exact .update holds

end Gizos.Sctp
