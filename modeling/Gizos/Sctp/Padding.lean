import Gizos.Sctp.Abandoned

/-! # Fragments and the packets that carry them

A message is cut into fragments that fill a packet, but a chunk is padded to a multiple of four
bytes before it is put into one. A fragment that fills a packet of another length is therefore never
sent.
-/
namespace Gizos.Sctp

open Fault Fault.Program Pal Serial

variable {fragment : TxFragment} {onReset : Association → Prop}

/-- Every fragment of a message of a length fits a packet: packets are a multiple of four bytes
long, or the message leaves in one of them the bytes that are over. -/
def Config.Carries (config : Config) (interleaved : Bool) (length : Nat) : Prop :=
  config.maxPacketSize % 4 = 0 ∨ length + config.maxPacketSize % 4 ≤ config.payloadSize interleaved

variable {config : Config} {interleaved : Bool} {message : Message} {messageId : Nat}
  {identifier : BitVec 32} {now : Nat}

/-- The padding takes what a packet is longer than a multiple of four. -/
theorem Config.fits_iff {length : Nat}
    (room : commonHeaderSize + dataHeaderSize interleaved < config.maxPacketSize) :
    config.fits interleaved length = true ↔
      length + config.maxPacketSize % 4 ≤ config.payloadSize interleaved := by
  unfold Config.fits padded Config.payloadSize
  rw [decide_eq_true_iff]
  simp only [commonHeaderSize] at room ⊢
  omega

/-- No fragment is longer than the message or than a packet allows. -/
theorem dataLen_fragmentsOf {size : Nat}
    (member : fragment ∈ fragmentsOf message messageId identifier size now) :
    fragment.dataLen ≤ min message.data.length size := by
  simp only [fragmentsOf, List.mem_map, List.mem_range] at member
  obtain ⟨index, -, rfl⟩ := member
  simp only [List.length_take, List.length_drop]
  omega

theorem longest_fragmentsOf {size : Nat} (positive : 0 < size) (filled : message.data ≠ []) :
    ∃ fragment ∈ fragmentsOf message messageId identifier size now,
      fragment.dataLen = min message.data.length size := by
  have long : 0 < message.data.length := List.length_pos_of_ne_nil filled
  have enough : message.data.length ≤ fragmentCount message.data.length size * size :=
    Sender.le_fragmentCount_mul positive
  have some : 0 < fragmentCount message.data.length size := by
    refine Nat.pos_of_ne_zero fun none => ?_
    rw [none] at enough
    omega
  refine ⟨_, List.mem_map_of_mem (List.mem_range.2 some), ?_⟩
  simp only [Nat.zero_mul, List.drop_zero, List.length_take]
  omega

theorem fragments_fit_iff
    (room : commonHeaderSize + dataHeaderSize interleaved < config.maxPacketSize)
    (filled : message.data ≠ []) :
    (∀ fragment ∈ fragmentsOf message messageId identifier (config.payloadSize interleaved) now,
        config.fits interleaved fragment.dataLen = true) ↔
      config.Carries interleaved message.data.length := by
  have positive : 0 < config.payloadSize interleaved := by
    unfold Config.payloadSize
    omega
  constructor
  · intro fit
    obtain ⟨fragment, member, longest⟩ := longest_fragmentsOf positive filled
    have fits := (Config.fits_iff room).1 (fit fragment member)
    by_cases whole : config.maxPacketSize % 4 = 0
    · exact .inl whole
    · exact .inr (by omega)
  · intro carries fragment member
    have short := dataLen_fragmentsOf member
    refine (Config.fits_iff room).2 ?_
    rcases carries with whole | spare
    · omega
    · omega

variable {heard : Chunk → Prop} {a b : Association}

/-- What a fragment has to bring along to be put into a packet. -/
structure TxFragment.Loaded (config : Config) (interleaved : Bool) (fragment : TxFragment) :
    Prop where
  fits : config.fits interleaved fragment.dataLen = true
  carried : fragment.live = true → fragment.data.isSome = true

theorem upheld_loaded (config : Config) (interleaved : Bool) :
    Upheld (TxFragment.Loaded config interleaved) where
  numbered _ _ loaded := { loaded with }
  emitted _ _ _ loaded := { loaded with }
  unmarked _ loaded := { loaded with }
  missed fragment highest loaded := by
    unfold Sender.countMiss
    split
    · exact { loaded with }
    · exact loaded
  abandoned _ loaded := ⟨loaded.fits, fun live => by simp [TxFragment.live] at live⟩
  acknowledged _ loaded :=
    ⟨loaded.fits, fun live => by simp [TxFragment.live, Sender.acknowledged] at live⟩

theorem SenderStep.accepted_cases {sender : Sender} (stepped : SenderStep heard a sender) :
    sender.accepted = a.sender.accepted ∨
      a.state = .connected ∧ ∃ message, sender.accepted = a.sender.accepted ++ [message] := by
  cases stepped with
  | enqueue message _ connected _ _ _ _ _ => exact .inr ⟨connected, message, rfl⟩
  | assign index fragment present _ _ =>
    left
    simp only [Sender.assignTsn, present]
    split <;> rfl
  | markSent index fragment now retransmission taken present _ _ _ _ =>
    left
    simp only [Sender.markSent, present]
  | enterRecovery exitTsn =>
    obtain ⟨_, _, _, same⟩ := a.sender.enterRecovery_eq a.config exitTsn
    rw [same]
    exact .inl rfl
  | abandon fragment now _ _ _ =>
    obtain ⟨_, _, _, _, _, _, _, counted⟩ := a.sender.abandonMessage_recounted fragment.messageId
    rw [counted]
    exact .inl rfl
  | sack sack now _ _ _ =>
    obtain ⟨highest, cwnd, peak, same⟩ := a.sender.applySack_eq a.config sack now
    obtain ⟨_, _, _, _, _, _, _, counted⟩ := a.sender.takeSack_recounted sack now
    rw [same, counted]
    exact .inl rfl
  | shutdown cumulative _ =>
    obtain ⟨_, _, _, _, _, _, _, counted⟩ := Sender.settle_recounted Sender.recounted_acknowledged
      (fun fragment => fragment.upTo cumulative && fragment.live) Sender.acknowledged a.sender
    unfold Sender.acknowledgeThrough
    rw [counted]
    exact .inl rfl
  | _ => exact .inl rfl

/-- Before it is open, an association has accepted nothing; from then on the peer is settled, and
the fragments of messages that can be carried are loaded. -/
structure Association.Fitting (a : Association) : Prop where
  closed : a.state = .new ∨ a.state = .connecting → a.sender.accepted = [] ∧ a.sender.tx = []
  loaded : (∀ message ∈ a.sender.accepted,
      a.config.Carries a.peer.interleaving message.data.length) →
    ∀ fragment ∈ a.sender.tx, fragment.Loaded a.config a.peer.interleaving

theorem Config.Valid.room (valid : config.Valid) (interleaved : Bool) :
    commonHeaderSize + dataHeaderSize interleaved < config.maxPacketSize := by
  have size := valid.maxPacketSize.1
  have header : dataHeaderSize interleaved ≤ 20 := by cases interleaved <;> decide
  simp only [commonHeaderSize]
  omega

theorem loaded_fragmentsOf (valid : config.Valid) (filled : message.data ≠ [])
    (carries : config.Carries interleaved message.data.length)
    (member : fragment ∈ fragmentsOf message messageId identifier (config.payloadSize interleaved)
      now) : fragment.Loaded config interleaved := by
  refine ⟨(fragments_fit_iff (valid.room interleaved) filled).2 carries fragment member, ?_⟩
  simp only [fragmentsOf, List.mem_map] at member
  obtain ⟨index, -, rfl⟩ := member
  exact fun _ => rfl

/-- Nothing joins an empty queue without a new message. -/
theorem SenderStep.tx_empty {sender : Sender} (stepped : SenderStep heard a sender)
    (unopened : a.state ≠ .connected) (empty : a.sender.tx = []) : sender.tx = [] := by
  have nothing : Upheld fun _ => False :=
    ⟨fun _ _ => id, fun _ _ _ => id, fun _ => id, fun _ _ => id, fun _ => id, fun _ => id⟩
  refine List.eq_nil_iff_forall_not_mem.2 (nothing.step stepped ?_ ?_)
  · rw [empty]
    exact fun fragment member => List.not_mem_nil member
  · exact fun _ _ connected => absurd connected unopened

theorem Association.Fitting.sender {sender : Sender} (fitting : a.Fitting) (valid : a.config.Valid)
    (stepped : SenderStep heard a sender) : Association.Fitting { a with sender } := by
  constructor
  · intro unopened
    have state : a.state ≠ .connected := by
      intro connected
      rw [connected] at unopened
      rcases unopened with new | connecting
      · cases new
      · cases connecting
    obtain ⟨accepted, tx⟩ := fitting.closed unopened
    have same := stepped.accepted_cases.resolve_right fun joined => state joined.1
    exact ⟨same.trans accepted, stepped.tx_empty state tx⟩
  · intro carried
    have earlier : ∀ message ∈ a.sender.accepted,
        a.config.Carries a.peer.interleaving message.data.length := by
      intro message member
      refine carried message ?_
      rcases stepped.accepted_cases with same | ⟨-, added, grown⟩
      · exact same ▸ member
      · exact grown ▸ List.mem_append_left _ member
    refine (upheld_loaded a.config a.peer.interleaving).step stepped (fitting.loaded earlier) ?_
    intro message now _ filled joined identifier fragment member
    have last : message ∈ sender.accepted := joined ▸ List.mem_append_right _ List.mem_cons_self
    exact loaded_fragmentsOf valid filled (carried message last) member

theorem Association.Fitting.step (fitting : a.Fitting) (valid : a.config.Valid)
    (stepped : Step heard a b) : b.Fitting := by
  cases stepped with
  | link _ | receiver _ => exact { fitting with }
  | sender moved => exact fitting.sender valid moved
  | phase moved =>
    cases moved with
    | idle _ _ _ => exact { fitting with }
    | start new => exact ⟨fun _ => fitting.closed (.inl new), fitting.loaded⟩
    | greet values _ _ connecting =>
      obtain ⟨accepted, tx⟩ := fitting.closed (.inr connecting)
      refine ⟨fun _ => ⟨accepted, tx⟩, fun _ fragment member => ?_⟩
      have empty : (a.applyPeerInit values).sender.tx = [] := tx
      rw [empty] at member
      cases member
    | bake _ _ => exact { fitting with }
    | connect now _ _ => exact ⟨nofun, fitting.loaded⟩
    | fail => exact ⟨nofun, fitting.loaded⟩
    | shutDown _ _ => exact ⟨nofun, fitting.loaded⟩
    | peerShutDown _ _ => exact ⟨nofun, fitting.loaded⟩
    | shutdownFlags _ _ _ _ => exact { fitting with }
    | close _ _ => exact ⟨nofun, fitting.loaded⟩

theorem Reachable.fitting (valid : config.Valid) (reachable : Reachable config a) :
    a.config = config ∧ a.Fitting := by
  refine reachable.invariant (fun a => a.config = config ∧ a.Fitting) ?_ ?_
  · intro tag initialTsn buffered
    refine ⟨rfl, fun _ => ⟨rfl, rfl⟩, fun _ fragment member => ?_⟩
    have empty : (Association.create config tag initialTsn buffered).sender.tx = [] := rfl
    cases member
  · rintro heard a b ⟨same, fitting⟩ stepped
    exact ⟨stepped.config_eq.trans same, fitting.step (same ▸ valid) stepped⟩

/-- Every fragment of the queue can be put into a packet. -/
def Association.Ready (a : Association) : Prop :=
  a.state = .connected ∧ ∀ fragment ∈ a.sender.tx, fragment.Loaded a.config a.peer.interleaving

/-- A call does not fail with `INVALID_STATE` unless the transport has failed for good. -/
def Excused (code : Int) (b : Association) : Prop := code = errInvalidState → b.state = .failed

theorem failed_state {connected : Association} (state : connected.state = .connected) :
    connected.failed.state = .failed := by
  unfold Association.failed
  rw [state]
  rfl

/-- A fragment that is loaded is sent, or the transport does not take it. -/
theorem ensures_emitFragment {index : Nat} {retransmission : Bool} (ready : a.Ready)
    (present : a.sender.tx[index]? = some fragment) (live : fragment.live = true) :
    Ensures Turn.Any (emitFragment index now retransmission) (fun _ => Association.Ready) Excused
      onReset a := by
  have upheld := upheld_loaded a.config a.peer.interleaving
  have loaded := ready.2 fragment (List.mem_of_getElem? present)
  obtain ⟨payload, data⟩ := Option.isSome_iff_exists.1 (loaded.carried live)
  have numbered := Sender.getElem?_assignTsn present
  have blocked : ∀ state : Association, Excused errWouldBlock state := by
    intro state same
    cases same
  refine .bind (.read ?_)
  simp only [id_eq, present, data, Option.bind_some, Option.map_some]
  refine .bind (.require (fun _ => ?_) fun unfit => absurd loaded.fits unfit)
  refine .bind (.require (fun _ => ?_) fun _ => blocked a)
  refine .bind (.update (.bind (.read ?_)))
  simp only [Association.fragmentPacket, Association.mapSender, numbered, Option.map_some]
  refine .bind (.attempt (ensures_emitPacket ?_ ?_ ?_ ?_ ?_))
  · intro _
    refine .update ⟨ready.1, ?_⟩
    exact upheld.markSent (upheld.assignTsn ready.2 index) index now retransmission true
  · intro _
    exact .bind (.update (.fail (blocked _)))
  · intro _
    exact .bind (.update (.fail (blocked _)))
  · exact fun kind => absurd rfl kind
  · intro _ code _ unblocked
    simp only [unblocked, if_false]
    exact .fail fun _ => failed_state ready.1

theorem ensures_sendLoop (limit : Nat) :
    ∀ (fuel : Nat) {a : Association}, a.Ready →
      Ensures Turn.Any (sendLoop limit now fuel) (fun _ _ => True) Excused onReset a
  | 0, _, _ => .pure trivial
  | fuel + 1, a, ready => by
    refine .bind (.read ?_)
    cases found : a.sender.pickUnsent.bind fun index =>
        a.sender.tx[index]?.map fun fragment => (index, fragment) with
    | none => exact .pure trivial
    | some pair =>
      obtain ⟨index, picked, mapped⟩ := Option.bind_eq_some_iff.1 found
      obtain ⟨fragment, present, rfl⟩ := Option.map_eq_some_iff.1 mapped
      have sendable := Sendable.of_picked picked present
      by_cases full : limit < fragment.dataLen ∨ limit - fragment.dataLen < a.sender.flightSize
      · simp only [full, if_true]
        exact .pure trivial
      · simp only [full, if_false]
        refine .bind ((ensures_emitFragment ready present sendable.live).mono ?_
          (fun _ _ => id) fun _ => id)
        intro _ b sent
        exact .bind (.update (ensures_sendLoop limit fuel sent))

theorem ensures_sendPending (ready : a.Ready) :
    Ensures Turn.Any (sendPending now) (fun _ _ => True) Excused onReset a := by
  refine .bind (.read (.bind (.require (fun _ => ?_) fun _ => ?_)))
  · exact ensures_sendLoop _ _ ready
  · intro same
    cases same

/-- How queueing a message ends: it fails for another reason than `INVALID_STATE`, or the message
has joined the queue. -/
theorem ensures_queueMessage {onReset : Association → Prop} (valid : a.config.Valid) :
    Ensures Turn.Any (queueMessage message now)
      (fun _ b => message.data ≠ [] ∧ ∃ known, b = { a with
        known
        sender := a.sender.enqueue a.peer.interleaving (a.config.payloadSize a.peer.interleaving)
          message now })
      Excused onReset a := by
  have other : ∀ code : Int, code ≠ errInvalidState → ∀ b, Excused code b := by
    intro code different b same
    exact absurd same different
  refine .bind (.read (.bind (.require (fun _ => ?_) ?_)))
  · refine .bind (.require (fun _ => ?_) fun tight => ?_)
    · refine .bind (.require (fun counted => ?_) fun _ => other _ (by decide) a)
      have filled : message.data ≠ [] := by
        intro empty
        refine counted.1 ?_
        simp [fragmentCount, empty]
      refine .bind (ensures_getOrCreate fun found known => ?_)
      refine .bind (.require (fun _ => ?_) fun _ => other _ (by decide) _)
      refine .bind (ensures_allocateEach (fun granted => ?_) _)
      refine .bind (.require (fun _ => ?_) fun _ => other _ (by decide) _)
      exact .update ⟨filled, known, rfl⟩
    · exact absurd (valid.room _) tight
  · exact fun _ => other _ (by decide) a

/-- As long as every message can be carried, sending one does not fail with `INVALID_STATE`. -/
theorem ensures_sendMessage (valid : a.config.Valid) (fitting : a.Fitting)
    (connected : a.state = .connected)
    (earlier : ∀ message ∈ a.sender.accepted,
      a.config.Carries a.peer.interleaving message.data.length)
    (carries : a.config.Carries a.peer.interleaving message.data.length) :
    Ensures Turn.Any (sendMessage message now) (fun _ _ => True) Excused onReset a := by
  have other : ∀ code : Int, code ≠ errInvalidState → ∀ b, Excused code b := by
    intro code different b same
    exact absurd same different
  refine .bind (.require (fun _ => ?_) fun _ => other _ (by decide) a)
  refine .bind (ensures_validateOperation ?_ (other _ (by decide) a))
  refine .bind (.read ?_)
  refine .bind (.require (fun _ => ?_) fun closed => absurd connected closed)
  refine .bind (.require (fun _ => ?_) fun _ => other _ (by decide) _)
  refine .bind (.require (fun _ => ?_) fun _ => other _ (by decide) _)
  have queueing := @ensures_queueMessage message now { a with lastNowMs := some now } onReset valid
  refine .bind (queueing.mono ?_ (fun _ _ => id) fun _ => id)
  rintro _ b ⟨filled, known, queued⟩
  have ready : b.Ready := by
    subst queued
    refine ⟨connected, fun fragment member => ?_⟩
    rcases List.mem_append.1 member with old | new
    · exact fitting.loaded earlier fragment old
    · exact loaded_fragmentsOf valid filled carries new
  refine .recovering ((ensures_sendPending ready).mono (fun _ _ => id) ?_ fun _ => id)
  intro code after excused
  by_cases tolerated : code ∈ [errWouldBlock]
  · rw [if_pos tolerated]
    exact .ret trivial
  · rw [if_neg tolerated]
    exact .fail excused

/-- The fragments of an accepted message all pass the size check exactly if the message can be
carried. As long as that holds of every message, every fragment of the queue passes it at any time,
and sending does not fail with `INVALID_STATE` unless the transport has failed for good. -/
theorem message_fits_iff (valid : config.Valid) (reachable : Reachable config a) :
    (∀ message now b, Yields Turn.Any (queueMessage message now) a () b →
      ((∀ fragment ∈ b.sender.tx.drop a.sender.tx.length,
          config.fits b.peer.interleaving fragment.dataLen = true) ↔
        config.Carries a.peer.interleaving message.data.length)) ∧
    ((∀ message ∈ a.sender.accepted, config.Carries a.peer.interleaving message.data.length) →
      (∀ fragment ∈ a.sender.tx, config.fits a.peer.interleaving fragment.dataLen = true) ∧
      (a.state = .connected → ∀ message now,
        config.Carries a.peer.interleaving message.data.length →
        Ensures Turn.Any (sendMessage message now) (fun _ _ => True)
          (fun code b => code = errInvalidState → b.state = .failed) (fun _ => True) a)) := by
  obtain ⟨same, fitting⟩ := reachable.fitting valid
  subst same
  refine ⟨fun message now b queued => ?_, fun earlier => ⟨fun fragment member => ?_, ?_⟩⟩
  · have queueing := @ensures_queueMessage message now a (fun _ => True) valid
    obtain ⟨filled, known, rfl⟩ := queueing.yielded queued
    have new : (a.sender.enqueue a.peer.interleaving
        (a.config.payloadSize a.peer.interleaving) message now).tx.drop a.sender.tx.length =
        fragmentsOf message a.sender.nextMessageId
          ((a.sender.outgoing message.streamId).identifier a.peer.interleaving message.unordered)
          (a.config.payloadSize a.peer.interleaving) now := List.drop_left
    rw [new]
    exact fragments_fit_iff (valid.room _) filled
  · exact (fitting.loaded earlier fragment member).fits
  · intro connected message now carries
    exact ensures_sendMessage valid fitting connected earlier carries

namespace Sample

/-- A configuration whose packets are two bytes longer than a multiple of four. -/
def odd : Config := { small .active with maxPacketSize := 130 }

/-- An association with such packets, after an exchange that opens it. -/
def oddly : Association :=
  replay
    [calm (.start 0), calm (.input (packet [.initAck (peer false)]) 0),
      calm (.input (packet [.cookieAck]) 0)]
    (Association.create odd 1 0 true)

theorem oddly_reachable : Reachable odd oddly := Reachable.replay _ (.created 1 0 true)

end Sample

/-- A message that fills a packet of 130 bytes is accepted and never sent: the call fails with
`INVALID_STATE`, and the association stays connected with the message in its queue. -/
theorem full_packet_not_sent :
    let a := Sample.oddly
    let message := Sample.message 102 0 false .reliable
    let outcome := (sendMessage message 0) (fun _ => {}) 0 a
    Sample.odd.Valid ∧ Reachable Sample.odd a ∧ a.state = .connected ∧
      ((queueMessage message 0) (fun _ => {}) 0 a).value = some () ∧
      outcome.failure = some errInvalidState ∧ outcome.state.state = .connected ∧
      outcome.state.sender.tx.map TxFragment.sent = [false] := by
  exact ⟨by decide, Sample.oddly_reachable, by decide +kernel⟩

/-- A message of 100 bytes leaves two of them free and can be sent. -/
theorem message_fits_iff_spare :
    Ensures Turn.Any (sendMessage (Sample.message 100 0 false .reliable) 0) (fun _ _ => True)
      (fun code b => code = errInvalidState → b.state = .failed) (fun _ => True) Sample.oddly := by
  have fresh : Sample.oddly.sender.accepted = [] := by decide +kernel
  have plain : Sample.oddly.peer.interleaving = false := by decide +kernel
  refine ((message_fits_iff (by decide) Sample.oddly_reachable).2 ?_).2 (by decide +kernel) _ 0 ?_
  · rw [fresh]
    exact fun message member => by cases member
  · rw [plain]
    exact .inr (by decide)

end Gizos.Sctp
