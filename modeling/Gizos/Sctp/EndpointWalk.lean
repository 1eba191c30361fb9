import Gizos.Sctp.Stage
import Gizos.Sctp.StreamsWalk

/-! # Opening, closing and serving an association, step by step -/
namespace Gizos.Sctp

open Fault Fault.Program Pal Serial Relation Association

variable {heard : Chunk → Prop} {a : Association}

variable {values : InitValues} {now : Nat} {packet : Packet} {chunk : Chunk}

theorem ensures_sendInitAck {reuse : Bool} {onReturn : Unit → Association → Prop}
    {onFail : Int → Association → Prop} {onReset : Association → Prop}
    (told : heard (.init values)) (state : a.state = .connecting)
    (peer : a.peer = peerOf a.config values)
    (cached : reuse = true → a.cookie.isSome = true)
    (taken : ∀ cookie b, ReflTransGen (Step heard) a b → Abides { a with cookie } b → onReturn () b)
    (blocked : ∀ cookie b, ReflTransGen (Step heard) a b → Abides { a with cookie } b →
      onFail errWouldBlock b)
    (starved : ∀ code, code ≠ errWouldBlock → onFail code a)
    (broken : ∀ code cookie, code ≠ errWouldBlock →
      onFail code ({ a with cookie } : Association).failed) :
    Ensures Turn.Any (sendInitAck now reuse) onReturn onFail onReset a := by
  -- From where there is a cookie, the chunk may be said.
  have emission : ∀ cookie : Cookie,
      ReflTransGen (Step heard) a { a with cookie := some cookie } →
      Ensures Turn.Any (do
        let values ← read fun association =>
          association.initValues (some ((association.cookie.map Cookie.bytes).getD []))
        emitToPeer (.initAck values) none now) onReturn onFail onReset
        { a with cookie := some cookie } := by
    intro cookie path
    have spoken : Says heard { a with cookie := some cookie } a.peer.verificationTag none
        (.initAck (({ a with cookie := some cookie } : Association).initValues
          (some cookie.bytes))) := .initAck values cookie state told peer rfl
    refine .bind (.read (.bind (.read (.bind (.read (ensures_emitPacket ?_ ?_ ?_ ?_ ?_))))))
    · intro free
      exact taken _ _ (path.tail (.link (.sent (.said spoken free)))) (abides_transmit _ _)
    · intro free
      exact blocked _ _ (path.tail (.link (.retained (.said spoken free) free)))
        (abides_retain _ free)
    · intro _
      exact blocked _ _ path (.refl _)
    · exact fun absent => absurd rfl absent
    · intro _ code _ unblocked
      exact broken code _ unblocked
  cases reuse with
  | true =>
    obtain ⟨cookie, found⟩ := Option.isSome_iff_exists.1 (cached rfl)
    have same : a = { a with cookie := some cookie } := by
      rw [← found]
    refine .bind (.pure ?_)
    rw [same]
    exact emission cookie (by rw [← same])
  | false =>
    refine .bind (.bind fun answers _ time => ?_)
    unfold random Program.call
    by_cases zero : (answers time).code = 0
    · simp only [zero, if_true]
      exact .update (emission _ (.single (.phase (.bake _ state))))
    · simp only [zero, if_false]
      by_cases would : (answers time).code = errWouldBlock
      · rw [would]
        exact blocked a.cookie a .refl (.refl a)
      · exact starved _ would

/-- An INIT that could not be answered leaves no trace, unless the association has failed. -/
theorem restored_failed (a : Association) (values : InitValues) (cookie : Option Cookie) :
    { (({ a.applyPeerInit values with cookie } : Association).failed.restorePeerState a) with
      cookie := a.cookie } = a.failed := by
  have state : (a.applyPeerInit values).state = a.state := rfl
  unfold failed
  simp only [state]
  split <;> rfl

theorem ensures_handleInit (told : heard (.init values)) :
    Always Turn.Any (handleInit values now) (March heard a) a := by
  refine .bind (.read (.branch (fun _ => .pure (.refl a)) fun known => ?_))
  have state : a.state = .connecting := not_not.1 known
  refine .bind (.require (fun valid => ?_) fun _ => .refl a)
  have greeted : Step heard a (a.applyPeerInit values) :=
    .phase (.greet values (.inl told) valid state)
  have introduced : ∀ cookie b, ReflTransGen (Step heard) (a.applyPeerInit values) b →
      Abides { a.applyPeerInit values with cookie } b → March heard a b := fun _ _ path abides =>
    ⟨.head greeted path, .introduced state valid abides⟩
  have cached : a.reusesCookie values now = true → a.cookie.isSome = true := by
    intro reuses
    simp only [reusesCookie, Bool.and_eq_true, Option.any_eq_true] at reuses
    obtain ⟨cookie, found, _⟩ := reuses.1.1
    rw [found]
    rfl
  refine .bind (.update (.bind (.attempt (ensures_sendInitAck told state rfl cached ?_ ?_ ?_ ?_))))
  · exact fun cookie b path abides => .pure (introduced cookie b path abides)
  · exact fun cookie b path abides => .pure (introduced cookie b path abides)
  · intro code unblocked
    simp only [unblocked, if_false]
    exact .bind (.update (.fail (.refl a)))
  · intro code cookie unblocked
    simp only [unblocked, if_false]
    refine .bind (.update (.fail ?_))
    rw [id_eq, restored_failed]
    exact .failed a

/-- The same for an INIT-ACK whose cookie could not be echoed. -/
theorem restored_control (state : a.state = .connecting) :
    ((a.applyPeerInit values).keepControl packet (some .cookieEcho) now).failed.restorePeerState a =
      a.failed := by
  have same : ((a.applyPeerInit values).keepControl packet (some .cookieEcho) now).state =
    .connecting := state
  unfold failed
  rw [same, state]
  rfl

theorem ensures_handleInitAck (told : heard (.initAck values)) :
    Always Turn.Any (handleInitAck values now) (March heard a) a := by
  refine .bind (.read (.branch (fun _ => .pure (.refl a)) fun known => ?_))
  simp only [id_eq, ne_eq, not_or, Decidable.not_not] at known
  obtain ⟨active, connecting, -⟩ := known
  refine .bind (.require (fun valid => ?_) fun _ => .refl a)
  refine .bind (.require (fun _ => ?_) fun _ => .refl a)
  refine .bind (ensures_allocateEach (fun _ => ?_) _)
  refine .bind (.require (fun _ => ?_) fun _ => .refl a)
  have greeted : Step heard a (a.applyPeerInit values) :=
    .phase (.greet values (.inr told) valid connecting)
  have introduced : March heard a (a.applyPeerInit values) :=
    ⟨.single greeted, .introduced connecting valid (Abides.refl (a.applyPeerInit values))⟩
  have spoken : Says heard (a.applyPeerInit values) (a.applyPeerInit values).peer.verificationTag
      (some .cookieEcho) (.cookieEcho (values.cookie.getD [])) :=
    .cookieEcho values _ connecting told rfl
  refine .bind (.update (.bind (.attempt (.bind
    (.require (fun _ => ?_) fun _ => .fail introduced)))))
  refine .bind (.read (.bind (.read (ensures_emitPacket ?_ ?_ ?_ ?_ ?_))))
  · intro free
    obtain ⟨path, leaves, _⟩ := keepControl_path now spoken free
    exact .pure ⟨.head greeted (path.tail (.link (.sent leaves))),
      .echoed values _ active connecting valid rfl (hasUttered_transmit _ _ _ _)⟩
  · intro free
    obtain ⟨path, leaves, still⟩ := keepControl_path now spoken free
    exact .pure ⟨.head greeted (path.tail (.link (.retained leaves still))),
      .echoed values _ active connecting valid rfl (hasUttered_retain _ _ _ _)⟩
  · intro _
    exact .pure introduced
  · intro _
    exact .bind (.update (.fail (.refl a)))
  · intro free code _ unblocked
    refine .branch (fun blocked => absurd blocked unblocked) fun _ =>
      .branch (fun _ => .bind (.update (.fail ?_))) fun _ => .fail ⟨?_, ?_⟩
    · rw [id_eq, restored_control connecting]
      exact .failed a
    · exact .head greeted ((keepControl_path now spoken free).1.trans (failed_path _))
    · obtain ⟨config, state⟩ := broken_cases (a.applyPeerInit values)
        (packetOf (a.applyPeerInit values) (a.applyPeerInit values).peer.verificationTag
          (.cookieEcho (values.cookie.getD []))) (some .cookieEcho) now
      exact .broken config state

/-- A reply that may be said leaves the stage as it was, and is handed to the transport unless
something else is retained. -/
theorem ensures_reply (spoken : Says heard a a.peer.verificationTag none chunk) :
    Ensures Turn.Any (replying (emitToPeer chunk none now))
      (fun _ b => Lingers heard a b ∧ a.SameStage b ∧
        (a.link.pendingEmit = none → b.HasUttered chunk))
      (fun _ => March heard a) (March heard a) a := by
  refine .recovering (.bind (.read (.bind (.read (ensures_emitPacket ?_ ?_ ?_ ?_ ?_)))))
  · intro free
    exact ⟨.sent (.said spoken free), sameStage_transmit a _, fun _ =>
      hasUttered_transmit a _ chunk a⟩
  · intro free
    exact .pure ⟨.retained (.said spoken free) free, sameStage_retain _ free, fun _ =>
      hasUttered_retain a _ chunk a⟩
  · intro busy
    exact .pure ⟨.refl a, .refl a, fun free => absurd free busy⟩
  · exact fun kind => absurd rfl kind
  · intro _ code _ unblocked
    refine .branch (fun blocked => absurd blocked unblocked) fun _ => ?_
    exact .fail (.failed a)

theorem ensures_handleCookieEcho {cookie : Bytes} (told : heard (.cookieEcho cookie)) :
    Always Turn.Any (handleCookieEcho cookie now) (March heard a) a := by
  refine .bind (.read (.branch (fun _ => .pure (.refl a)) fun passed => ?_))
  simp only [id_eq, Bool.or_eq_true, Bool.and_eq_true, Bool.not_eq_true', decide_eq_true_eq,
    decide_eq_false_iff_not, not_or, not_and, Bool.not_eq_false, Option.any_eq_true] at passed
  obtain ⟨own, found, _, same⟩ := passed.2
  subst same
  have connecting : a.state ≠ .connected → a.state = .connecting := fun fresh =>
    Decidable.not_not.1 (passed.1 fresh)
  have open' : a.state = .connecting ∨ a.state = .connected := by
    by_cases established : a.state = .connected
    · exact .inr established
    · exact .inl (connecting established)
  refine .bind ((ensures_reply (.cookieAck own found told open')).mono ?_ (fun _ _ => id)
    fun _ => id)
  rintro _ b ⟨lingers, replied, uttered⟩
  have stage := replied.stage_eq lingers.abides.config
  have connects : ∀ c : Association, c.state = b.state → c.cookie = b.cookie →
      a.state = .connecting → Step heard c (c.connect now) := fun c state cookie fresh =>
    .phase (.connect now (state.trans (replied.state.trans fresh))
      (.inr ⟨own, cookie.trans (replied.cookie.trans found), told⟩))
  refine .bind (.onlyIf (fun opening => .update ?_) fun _ => ?_)
  · have cleared : ReflTransGen (Step heard) a b.clearControl :=
      lingers.path.tail (.link .cleared)
    refine .onlyIf (fun fresh => .update ?_) fun established => ?_
    · have fresh := connecting (by simpa using fresh)
      refine ⟨cleared.tail (connects _ rfl rfl fresh),
        .answered own none fresh found told (.inl rfl) ?_ uttered⟩
      rw [← stage]
      rfl
    · refine ⟨cleared, .retired (by simpa using established) ?_ (by rw [← stage]; rfl)
        replied.uttered⟩
      simp only [id_eq, Bool.or_eq_true, decide_eq_true_eq] at opening
      rcases opening with init | echo
      · exact .inl (by simp [pledge, init])
      · exact .inr (by simp [pledge, echo])
  · refine .onlyIf (fun fresh => .update ?_) fun established => lingers.march
    have fresh := connecting (by simpa using fresh)
    refine ⟨lingers.path.tail (connects _ rfl rfl fresh),
      .answered own a.pledge fresh found told (.inr rfl) ?_ uttered⟩
    change ({ b.stage with state := .connected } : Stage) = _
    rw [stage]
    rfl

theorem ensures_handleCookieAck (told : heard .cookieAck) :
    Always Turn.Any (handleCookieAck now) (March heard a) a := by
  refine .bind (.read (.branch (fun _ => .pure (.refl a)) fun known => .update ?_))
  simp only [id_eq, ne_eq, not_or, Decidable.not_not] at known
  exact ⟨.tail (.single (.link .cleared)) (.phase (.connect now known.2 (.inl ⟨told, known.1⟩))),
    .acknowledged known.1 known.2 told rfl fun _ _ => id⟩

theorem rests_handleHeartbeat (info : Bytes) (now : Nat) :
    Rests heard (handleHeartbeat info now) := by
  refine .reading fun a => ?_
  refine (Wanders.require _ _).bind (fun _ => wanders_allocate.bind fun _ =>
    (Wanders.require _ _).bind fun _ =>
      .recovering ?_ fun _ => .branch (fun _ => .pure ()) fun _ => .fail _) a
  exact (Wanders.require _ _).bind fun _ => (Wanders.require _ _).bind fun _ =>
    rests_say fun _ => .heartbeatAck

namespace Association

/-- The two flags of a shutdown after a change. -/
def flags (a : Association) (own others : Bool → Bool) : Association :=
  { a with
    shutdownPending := own a.shutdownPending
    peerShutdownPending := others a.peerShutdownPending }

end Association

theorem failed_flags (b : Association) (own others : Bool → Bool) :
    (b.flags own others).failed = b.failed.flags own others := by
  have state : (b.flags own others).state = b.state := rfl
  unfold failed
  rw [state]
  split <;> rfl

theorem shutdown_failed (b : Association) : b.failed.shutdownPending = b.shutdownPending ∧
    b.failed.peerShutdownPending = b.peerShutdownPending := by
  obtain ⟨link, state, failed⟩ := failed_eq b
  rw [failed]
  exact ⟨rfl, rfl⟩

/-- An emission after a flag was lowered, which is raised again if the emission fails. The steps are
taken in the other order: the packet leaves while the flag is still up. -/
theorem ensures_lowered {kind : Option ControlKind} {onReturn : Unit → Association → Prop}
    {onFail : Int → Association → Prop} {onReset : Association → Prop}
    (own others own' others' : Bool → Bool)
    (spoken : Says heard a a.peer.verificationTag kind chunk)
    (lowered : ∀ flag, own flag = true → flag = true)
    (lowered' : ∀ flag, others flag = true → flag = true)
    (raised : own' (own a.shutdownPending) = a.shutdownPending)
    (raised' : others' (others a.peerShutdownPending) = a.peerShutdownPending)
    (taken : ∀ packet, ReflTransGen (Step heard) a
        (((a.flags own others).keepControl packet kind now).transmit packet) →
      onReturn () (((a.flags own others).keepControl packet kind now).transmit packet))
    (retained : a.link.pendingEmit = none → ∀ packet, ReflTransGen (Step heard) a
        (((a.flags own others).keepControl packet kind now).retain packet) →
      onReturn () (((a.flags own others).keepControl packet kind now).retain packet))
    (busy : a.link.pendingEmit ≠ none → ReflTransGen (Step heard) a (a.flags own others) →
      onReturn () (a.flags own others))
    (starved : ReflTransGen (Step heard) a ((a.flags own others).flags own' others') →
      onFail errNoMemory (a.flags own others))
    (broken : ∀ code packet, ReflTransGen (Step heard) a
        (((a.flags own others).keepControl packet kind now).failed.flags own' others') →
      onFail code ((a.flags own others).keepControl packet kind now).failed) :
    Ensures Turn.Any (tolerating [errWouldBlock] (emitToPeer chunk kind now)) onReturn
      onFail onReset
      (a.flags own others) := by
  have lower : ∀ b : Association, Step heard b (b.flags own others) := fun b =>
    .phase (.shutdownFlags _ _ (lowered _) fun up => .inl (lowered' _ up))
  have raise : ∀ b : Association, b.shutdownPending = a.shutdownPending →
      b.peerShutdownPending = a.peerShutdownPending →
      (b.flags own others).flags own' others' = b := by
    intro b same same'
    rw [← same] at raised
    rw [← same'] at raised'
    unfold flags
    simp only [raised, raised']
  have kept : ∀ packet, (a.flags own others).keepControl packet kind now =
      (a.keepControl packet kind now).flags own others := by
    intro packet
    cases kind <;> rfl
  refine .recovering (.bind (.read (.bind (.read (ensures_emitPacket ?_ ?_ ?_ ?_ ?_)))))
  · intro free
    obtain ⟨path, leaves, _⟩ := keepControl_path now spoken free
    refine taken _ ((path.tail (.link (.sent leaves))).tail ?_)
    rw [kept]
    exact lower _
  · intro free
    obtain ⟨path, leaves, still⟩ := keepControl_path now spoken free
    refine .ret (retained free _ ((path.tail (.link (.retained leaves still))).tail ?_))
    rw [kept]
    exact lower _
  · intro filled
    exact .ret (busy filled (.single (lower a)))
  · intro _
    refine .fail (starved ?_)
    rw [raise a rfl rfl]
  · intro free code _ unblocked
    have foreign : code ∉ [errWouldBlock] := by simpa using unblocked
    have path := (keepControl_path now spoken free).1.trans (failed_path _)
    rw [if_neg foreign]
    refine .fail (broken code _ ?_)
    rw [kept, failed_flags, raise]
    · exact path
    · cases kind <;> exact (shutdown_failed _).1
    · cases kind <;> exact (shutdown_failed _).2

/-- A shutdown of the peer is taken over before anything is said about it. -/
theorem ensures_handleShutdown {cumulative : Tsn} (told : heard (.shutdown cumulative)) :
    Always Turn.Any (handleShutdown cumulative now)
      (fun b => ∃ shut, March heard a shut ∧
        shut.stage = { a.stage with state := .shuttingDown } ∧ Lingers heard shut b) a := by
  have flagged : ∀ (b : Association) (flag : Bool),
      Lingers heard b { b with peerShutdownPending := flag } := fun b flag =>
    ⟨.single (.phase (.shutdownFlags _ _ id fun _ => .inr ⟨cumulative, told⟩)),
      abides_aside rfl rfl rfl rfl rfl rfl⟩
  refine .bind (.update (.bind (.update ?_)))
  refine Ensures.weaken (always_of_dwells ?_) fun b lingers =>
    ⟨_, ⟨.tail (.single (.sender (.shutdown cumulative told)))
      (.phase (.peerShutDown cumulative told)), .peerShutDown cumulative told rfl⟩, rfl, lingers⟩
  refine .bind (.read ?_)
  by_cases used : (a.sender.acknowledgeThrough cumulative).sendUsed = 0
  · simp only [notifyState, mapSender, used, ne_eq, not_true, if_false]
    refine .bind (.update (flagged _ false) ?_)
    refine .bind (.attempt (.recovering (dwells_emitToPeer ?_ ?_ ?_ ?_)))
    · exact .shutdownAck (.inl ⟨by simp, cumulative, told⟩) used
    · exact fun _ _ => .pure trivial
    · exact fun _ => .ret (.pure trivial)
    · intro code link state unblocked
      have foreign : code ∉ [errWouldBlock] := by simpa using unblocked
      rw [if_neg foreign]
      refine .fail (Wanders.branch (fun _ => ?_) (fun _ => Wanders.fail code) _)
      exact (Wanders.update fun b => flagged b true).bind fun _ => Wanders.fail _
  · simp only [notifyState, mapSender, ne_eq, used, not_false_eq_true, if_true]
    exact .pure trivial

theorem marches_handleShutdownAck (told : heard .shutdownAck) :
    Marches heard (handleShutdownAck now) := by
  refine .reading fun a => Ensures.branch (fun _ => Ensures.pure ⟨.refl, trivial⟩) fun known => ?_
  have closing : a.state = .shuttingDown := not_not.1 known
  refine Ensures.bind ((ensures_reply (.shutdownComplete closing told)).mono ?_
    (fun _ _ march => ⟨.single march, trivial⟩) fun _ march => .single march)
  rintro _ b ⟨lingers, replied, -⟩
  have still : b.state = .shuttingDown := replied.state.trans closing
  refine Ensures.update ⟨.tail (.single lingers.march) ⟨?_, .closed still rfl rfl⟩, trivial⟩
  exact .tail (.single (.link .cleared)) (.phase (.close still (.inl told)))

theorem rests_dispatchData {chunk : DataChunk} (told : heard (.data chunk)) :
    Rests heard (dispatchChunk now (.data chunk)) := by
  refine .reading fun a => ?_
  by_cases state : a.state = .connected ∨ a.state = .shuttingDown
  · have passes : ¬(a.state ≠ .connected ∧ a.state ≠ .shuttingDown) := by
      rintro ⟨left, right⟩
      exact state.elim left right
    rw [if_neg passes]
    exact dwells_handleData told state
  · rw [if_pos (not_or.1 state)]
    exact .pure trivial

/-- A chunk is dispatched: whatever is done may rely on it. -/
theorem marches_dispatchChunk (told : heard chunk) : Marches heard (dispatchChunk now chunk) := by
  cases chunk with
  | init values => exact marches_of_always fun _ => ensures_handleInit told
  | initAck values => exact marches_of_always fun _ => ensures_handleInitAck told
  | cookieEcho cookie => exact marches_of_always fun _ => ensures_handleCookieEcho told
  | cookieAck => exact marches_of_always fun _ => ensures_handleCookieAck told
  | data chunk => exact marches_of_rests (rests_dispatchData told)
  | sack chunk => exact marches_of_rests (rests_handleSack _ _ told)
  | forwardTsn chunk => exact marches_of_rests (rests_handleForwardTsn told)
  | reconfig parameters =>
    exact marches_of_rests (rests_handleReconfig told parameters fun _ => id)
  | heartbeat info => exact marches_of_rests (rests_handleHeartbeat info now)
  | heartbeatAck => exact .update fun _ => (Lingers.idle _ _ _).march
  | shutdown cumulative =>
    intro a
    refine (ensures_handleShutdown told).mono ?_ ?_ ?_
    · exact fun _ _ ⟨_, march, _, lingers⟩ => ⟨.tail (.single march) lingers.march, trivial⟩
    · exact fun _ _ ⟨_, march, _, lingers⟩ => ⟨.tail (.single march) lingers.march, trivial⟩
    · exact fun _ ⟨_, march, _, lingers⟩ => .tail (.single march) lingers.march
  | shutdownAck => exact marches_handleShutdownAck told
  | shutdownComplete =>
    refine .update fun a => ?_
    split
    · rename_i closing
      exact ⟨.single (.phase (.close closing (.inr told))), .closed closing rfl rfl⟩
    · exact .refl a
  | abort => exact marches_of_rests rests_failed
  | unknown stops => exact .branch (fun _ => .fail _) fun _ => .pure ()
  | malformed code => exact .fail code

theorem marches_dispatchChunks {chunks : List Chunk} (told : ∀ chunk ∈ chunks, heard chunk) :
    Marches heard (dispatchChunks now chunks) := by
  induction chunks with
  | nil => exact .pure ()
  | cons chunk rest ih =>
    have head : Marches heard (dispatchChunk now chunk) :=
      marches_dispatchChunk (told chunk List.mem_cons_self)
    exact head.bind fun _ => ih fun other member => told other (List.mem_cons_of_mem _ member)

theorem marches_inputPacket (told : ∀ chunk ∈ packet.chunks, heard chunk) :
    Marches heard (inputPacket packet now) := by
  refine (marches_of_rests (rests_validateOperation now)).bind fun _ => Wanders.reading fun a => ?_
  refine Wanders.bind (Wanders.require _ _) (fun _ => Wanders.bind (Wanders.require _ _) fun _ =>
    ?_) a
  refine Wanders.branch (fun _ => Wanders.pure ()) fun _ => ?_
  refine (Wanders.require _ _).bind fun _ => Wanders.branch (fun _ => Wanders.pure ()) fun _ => ?_
  exact (Wanders.require _ _).bind fun _ => wanders_tolerating (marches_dispatchChunks told)

theorem marches_start (now : Nat) : Marches heard (start now) := by
  refine (marches_of_rests (rests_validateOperation now)).bind fun _ => .reading fun a => ?_
  refine .bind (.require (fun fresh => Ensures.bind (Ensures.update ?_)) fun _ => trivial)
  have starts : Step heard a (a.notifyState .connecting) := .phase (.start fresh)
  have begun : March heard a (a.notifyState .connecting) :=
    ⟨.single starts, .started a.pledge fresh (.inl rfl) rfl⟩
  refine Ensures.branch (fun _ => Ensures.pure ⟨.single begun, trivial⟩) fun role => ?_
  have active : a.config.role = .active := by
    cases known : a.config.role with
    | active => rfl
    | passive => exact absurd known role
  have spoken : Says heard (a.notifyState .connecting) 0 (some .init)
      (.init ((a.notifyState .connecting).initValues none)) := .init rfl active
  refine Ensures.recovering (Ensures.bind (Ensures.read (Ensures.bind (Ensures.read
    (ensures_emitPacket ?_ ?_ ?_ ?_ ?_)))))
  · intro free
    obtain ⟨path, leaves, _⟩ := keepControl_path now spoken free
    exact ⟨.single ⟨.head starts (path.tail (.link (.sent leaves))),
      .started (some .init) fresh (.inr rfl) rfl⟩, trivial⟩
  · intro free
    obtain ⟨path, leaves, still⟩ := keepControl_path now spoken free
    exact Ensures.pure ⟨.single ⟨.head starts (path.tail (.link (.retained leaves still))),
      .started (some .init) fresh (.inr rfl) rfl⟩, trivial⟩
  · exact fun _ => Ensures.pure ⟨.single begun, trivial⟩
  · exact fun _ => Ensures.bind (Ensures.update (Ensures.fail
      ⟨.tail (.single begun) (.failed _), trivial⟩))
  · intro free code _ unblocked
    refine Ensures.branch (fun blocked => absurd blocked unblocked) fun _ => ?_
    refine Ensures.bind (Ensures.update (Ensures.fail ⟨.tail (.tail (.single ⟨?_, ?_⟩)
      (.failed _)) (.failed _), trivial⟩))
    · exact .head starts (keepControl_path now spoken free).1
    · exact .started (some .init) fresh (.inr rfl) rfl

theorem rests_sendMessage (message : Message) (now : Nat) :
    Rests heard (sendMessage message now) := by
  intro a
  refine .bind (.require (fun filled => ?_) fun _ => trivial)
  refine .bind ((rests_validateOperation now).moves (fun _ b => ?_) fun _ _ => trivial)
  refine .bind (.read ?_)
  refine .bind (.require (fun connected => ?_) fun _ => trivial)
  refine .bind (.require (fun sized => ?_) fun _ => trivial)
  refine .bind (.require (fun _ => ?_) fun _ => trivial)
  refine .bind ((dwells_queueMessage connected filled sized.1).mono ?_ fun _ _ _ => trivial)
  intro _ after _
  exact wanders_tolerating (rests_sendPending now) after

theorem failed_keepControl {b : Association} {kind : Option ControlKind}
    (connected : b.state = .connected) :
    (b.keepControl packet kind now).failed = b.failed := by
  have same : (b.keepControl packet kind now).state = .connected := by
    cases kind <;> exact connected
  unfold failed
  rw [same, connected]
  cases kind <;> rfl

theorem withdraw_request (b : Association) (streamId : Nat) :
    (b.mapSender fun sender => sender.requestReset streamId).mapSender
        (fun sender => sender.withdrawReset streamId) =
      b.mapSender fun sender => sender.setResetPending streamId false := by
  unfold mapSender Sender.requestReset Sender.withdrawReset Sender.setResetPending
  simp

theorem failed_mapSender (b : Association) (change : Sender → Sender) :
    b.failed.mapSender change = (b.mapSender change).failed := by
  have state : (b.mapSender change).state = b.state := rfl
  unfold failed
  rw [state]
  split <;> rfl

/-- A reset request takes the place of no other control packet. -/
theorem rests_resetStream (streamId now : Nat) : Rests heard (resetStream streamId now) := by
  have numbered : ∀ b : Association, Lingers heard b (b.mapSender fun sender =>
      { sender with nextResetSequence := sender.nextResetSequence + 1 }) := fun b =>
    .sender .nextReset
  refine (rests_validateOperation now).bind fun _ => .reading fun a => ?_
  refine .bind (.require (fun connected => ?_) fun _ => trivial)
  refine .bind (.require (fun _ => ?_) fun _ => trivial)
  refine .bind (.require (fun _ => ?_) fun _ => trivial)
  refine .bind (.require (fun free => ?_) fun _ => trivial)
  refine .bind (.require (fun unused => ?_) fun _ => trivial)
  refine .bind (dwells_getOrCreate fun found known => ?_)
  refine .bind (.require (fun _ => ?_) fun _ => trivial)
  refine .bind (.read (.bind (.require (fun settled => ?_) fun _ => trivial)))
  have requested : Lingers heard { a with known }
      (({ a with known } : Association).mapSender fun sender => sender.requestReset streamId) :=
    .sender (.requestReset streamId connected free unused settled)
  have withdrawn : Lingers heard { a with known } (({ a with known } : Association).mapSender
      fun sender => sender.setResetPending streamId false) :=
        .sender (.withdrawReset streamId settled)
  have spoken : Says heard
      (({ a with known } : Association).mapSender fun sender => sender.requestReset streamId)
      a.peer.verificationTag (some .reset) (.reconfig
        [.outgoing a.sender.nextResetSequence (a.sender.nextTsn - 1) [streamId]]) := by
    refine .resetRequest streamId connected ?_
    simp [mapSender, Sender.requestReset, Sender.setResetPending]
  obtain ⟨path, leaves, still⟩ := keepControl_path now spoken free
  have unpledged : a.pledge = none := by
    rw [pledge, controlKind, show a.link.control = none from unused]
    rfl
  have kept := Lingers.mk path ⟨rfl, .inr ⟨rfl, rfl, rfl, rfl, unpledged.symm, fun _ _ => id⟩⟩
  refine Ensures.bind (Ensures.update (Ensures.bind (Ensures.attempt (Ensures.bind (Ensures.read
    (Ensures.bind (Ensures.read (ensures_emitPacket ?_ ?_ ?_ ?_ ?_))))))))
  · intro _
    exact Ensures.update ⟨.head requested (.head kept (.tail (.single (.sent leaves))
      (numbered _))), trivial⟩
  · intro _
    exact Ensures.update ⟨.head requested (.head kept
      (.tail (.single (.retained leaves still)) (numbered _))), trivial⟩
  · exact fun filled => absurd free filled
  · intro _
    refine Ensures.bind (Ensures.update (Ensures.fail ⟨?_, trivial⟩))
    rw [withdraw_request]
    exact .single withdrawn
  · intro _ code _ unblocked
    simp only [unblocked, if_false]
    refine Ensures.bind (Ensures.update (Ensures.fail ⟨?_, trivial⟩))
    rw [failed_keepControl (by exact connected), failed_mapSender, withdraw_request]
    exact .head withdrawn (.single (.failed _))

/-- A shutdown waits while there is data to be sent. Otherwise it is sent at once, and then kept to
be repeated, unless another packet is retained. The association stops accepting messages before it
says so. -/
theorem ensures_shutdown :
    Ensures Turn.Any (shutdown now)
      (fun _ b => ReflTransGen (Step heard) a b ∧ a.state = .connected ∧ b.stage = { a.stage with
        state := .shuttingDown
        shutdownPending := if a.sender.sendUsed = 0 then a.shutdownPending else true
        pledge := if a.sender.sendUsed = 0 ∧ a.link.pendingEmit = none then some .shutdown
          else a.pledge })
      (fun _ => Lingers heard a) (Lingers heard a) a := by
  have timed : Lingers heard a { a with lastNowMs := some now } :=
    .idle (some now) a.heartbeatDeadlineMs a.known
  refine .bind (ensures_validateOperation ?_ (.refl a))
  refine .bind (.read (.bind (.require (fun connected => ?_) fun _ => timed)))
  have closing : ∀ pending, Step heard { a with lastNowMs := some now }
      ({ a with lastNowMs := some now, shutdownPending := pending }.notifyState .shuttingDown) :=
    fun pending => .phase (.shutDown pending connected)
  refine .branch (fun used => ?_) fun used =>
    .update ⟨timed.path.tail (closing true), connected, ?_⟩
  · have drained : a.sender.sendUsed = 0 := used
    have spoken : Says heard ({ a with lastNowMs := some now }.notifyState .shuttingDown)
        a.peer.verificationTag (some .shutdown) (.shutdown a.receiver.cumulativeReceivedTsn) :=
      .shutdown (.inl nofun) used
    have path := timed.path.tail (closing a.shutdownPending)
    simp only [drained, if_true, true_and]
    refine .bind (.bind (.read (.recovering (.bind
      (.read (.bind (.read (ensures_emitPacket ?_ ?_ ?_ ?_ ?_))))))))
    · intro free
      obtain ⟨kept, leaves, _⟩ := keepControl_path now spoken free
      refine .update ⟨path.trans (kept.tail (.link (.sent leaves))), connected, ?_⟩
      rw [if_pos free]
      rfl
    · intro free
      obtain ⟨kept, leaves, still⟩ := keepControl_path now spoken free
      refine .ret (.update ⟨path.trans (kept.tail (.link (.retained leaves still))), connected, ?_⟩)
      rw [if_pos free]
      rfl
    · intro busy
      refine .ret (.update ⟨path, connected, ?_⟩)
      rw [if_neg busy]
      rfl
    · exact fun _ => .fail timed
    · intro _ code _ unblocked
      have foreign : code ∉ [errWouldBlock] := by simpa using unblocked
      rw [if_neg foreign, failed_keepControl (by exact connected)]
      exact .fail ⟨timed.path.trans (failed_path _), timed.abides.trans (abides_failed _)⟩
  · have filled : ¬a.sender.sendUsed = 0 := used
    simp only [filled, if_false, false_and]
    rfl

theorem marches_shutdown (now : Nat) : Marches heard (shutdown now) :=
  marches_of_always fun _ => ensures_shutdown.mono
    (fun _ _ ⟨path, connected, stage⟩ => ⟨path, .shutDown _ _ connected stage⟩)
    (fun _ _ lingers => lingers.march) fun _ lingers => lingers.march

theorem rests_abort (now : Nat) : Rests heard (abort now) := by
  refine (rests_validateOperation now).bind fun _ => .reading fun a => ?_
  refine (Wanders.require _ _).bind (fun _ => ?_) a
  exact (wanders_tolerating (rests_say fun _ => .abort)).bind fun _ => rests_failed

theorem abides_repeatedControl {b : Association} {control : Control} (now : Nat)
    (found : b.link.control = some control) : b.Abides (b.repeatedControl control now) := by
  refine ⟨rfl, .inr ⟨rfl, rfl, rfl, rfl, ?_, fun _ _ => id⟩⟩
  simp [pledge, controlKind, repeatedControl, found]

theorem rests_serviceControl (now deadline : Nat) : Rests heard (serviceControl now deadline) := by
  refine Wanders.reading fun a => ?_
  simp only [id_eq]
  cases found : a.link.control with
  | none => exact Moves.pure trivial
  | some control =>
    refine Ensures.branch (fun _ => Moves.pure trivial) fun _ => ?_
    refine Ensures.branch (fun _ => Moves.pure trivial) fun _ => ?_
    refine Ensures.branch (fun _ => Wanders.bind rests_failed (fun _ => Wanders.fail _) a) fun _ =>
      ?_
    have resent : Lingers heard a (a.transmit control.packet) :=
      .sent (.kept (.inr (by rw [found]; rfl)))
    refine Moves.bind (Moves.bind (ensures_invokeEmit ?_ ?_))
    · refine ⟨.single resent, Moves.bind (Moves.pure (Moves.pure ?_))⟩
      refine Moves.bind (Moves.require (fun _ => Moves.bind ?_) fun _ => trivial)
      refine Moves.update ⟨.tail (.single (.sender .backOff)) ?_, ?_⟩ ?_
      · exact .link (.repeated found rfl rfl)
      · exact abides_repeatedControl now found
      · exact Moves.bind (Moves.read (Moves.pure trivial))
    · intro code nonzero
      have stops : Rests heard (if code = errWouldBlock then pure now else do
          require (code = 0) code
          update fun association => association.repeatedControl control now
          let rto ← read fun association => association.sender.rtoMs
          pure (minDeadline (deadlineAdd now rto) deadline)) :=
        .branch (fun _ => .pure now) fun _ _ =>
          Moves.bind (Moves.require (fun zero => absurd zero nonzero) fun _ => trivial)
      refine ⟨.refl, Moves.bind (Moves.onlyIf (fun _ => ?_) fun _ => Moves.pure (stops a))⟩
      exact (rests_failed a).mono (fun _ after _ => Moves.pure (stops after)) fun _ _ _ => trivial

theorem rests_serviceHeartbeat (now deadline : Nat) :
    Rests heard (serviceHeartbeat now deadline) := by
  refine .bind ?_ fun _ => .reading fun a => ?_
  · refine .update fun a => ?_
    split
    · exact .idle _ _ _
    · exact .idle a.lastNowMs a.heartbeatDeadlineMs a.known
  · refine Wanders.branch (fun _ => .pure _) (fun _ => .branch (fun _ => .pure _) fun _ => ?_) a
    refine (wanders_orElse ((rests_say fun _ => .heartbeat).bind fun _ => .pure _)).bind fun _ => ?_
    exact .bind (.update fun _ => .idle _ _ _) fun _ => .pure _

/-- A shutdown that is due is sent, or stays due unless something else is retained. -/
theorem ensures_serviceOwnShutdown :
    Always Turn.Any (serviceOwnShutdown now) (fun b => ReflTransGen (Step heard) a b ∧
      (a.link.pendingEmit = none → Stride heard a b)) a := by
  refine .bind (.read (.branch (fun due => ?_) fun _ => .pure ⟨.refl, fun _ => .abides (.refl a)⟩))
  simp only [id_eq, Bool.and_eq_true, decide_eq_true_eq] at due
  have spoken : Says heard a a.peer.verificationTag (some .shutdown)
      (.shutdown a.receiver.cumulativeReceivedTsn) := .shutdown (.inr due.1.1) due.1.2
  refine .bind (.update (.recovering (.bind (.read
    (ensures_lowered (fun _ => false) id (fun _ => true) id
      spoken nofun (fun _ => id) due.1.1.symm rfl ?_ ?_ ?_ ?_ ?_)))))
  · exact fun packet path =>
      ⟨path, fun _ => .resumed due.1.1 rfl (sameStage_transmit a packet).uttered⟩
  · exact fun free packet path =>
      ⟨path, fun _ => .resumed due.1.1 rfl (sameStage_retain packet free).uttered⟩
  · exact fun filled path => ⟨path, fun free => absurd free filled⟩
  · intro path
    exact .bind (.update (.fail
      ⟨path, fun _ => .abides (abides_aside rfl rfl rfl rfl due.1.1.symm rfl)⟩))
  · intro code packet path
    obtain ⟨config, state⟩ := broken_cases { a with shutdownPending := false } packet
      (some .shutdown) now
    exact .bind (.update (.fail ⟨path, fun _ => .broken config state⟩))

theorem rests_servicePeerShutdown (now : Nat) : Rests heard (servicePeerShutdown now) := by
  have aside : ∀ (b : Association) (flag : Bool),
      b.Abides { b with peerShutdownPending := flag } := fun _ _ =>
    abides_aside rfl rfl rfl rfl rfl rfl
  refine .reading fun a => Ensures.branch (fun due => ?_) fun _ => Ensures.pure ⟨.refl, trivial⟩
  simp only [id_eq, Bool.and_eq_true, decide_eq_true_eq] at due
  have spoken : Says heard a a.peer.verificationTag none .shutdownAck :=
    .shutdownAck (.inr due.1.1) due.1.2
  have lowered := aside a false
  refine Ensures.bind (Ensures.update (Ensures.recovering
    (ensures_lowered id (fun _ => false) id (fun _ => true)
      spoken (fun _ => id) nofun rfl due.1.1.symm ?_ ?_ ?_ ?_ ?_)))
  · exact fun packet path =>
      ⟨.single ⟨path, lowered.trans (abides_transmit _ packet)⟩, trivial⟩
  · exact fun free packet path =>
      ⟨.single ⟨path, lowered.trans (abides_retain packet free)⟩, trivial⟩
  · exact fun _ path => ⟨.single ⟨path, lowered⟩, trivial⟩
  · exact fun path => Ensures.bind (Ensures.update (Ensures.fail
      ⟨.single ⟨path, lowered.trans (aside _ true)⟩, trivial⟩))
  · exact fun code packet path => Ensures.bind (Ensures.update (Ensures.fail
      ⟨.single ⟨path, (lowered.trans (abides_failed _)).trans (aside _ true)⟩, trivial⟩))

theorem marches_unlessRetained {body : Op Nat} (now : Nat) (marches : Marches heard body) :
    Marches heard (unlessRetained now body) :=
  Wanders.reading fun a => Wanders.branch (fun _ => .pure now) (fun _ => marches) a

/-- What waits for the queue to drain, while nothing is retained. -/
theorem marches_serviceEnd {rest : Op Nat} (now : Nat) (rests : Rests heard rest) :
    Marches heard (unlessRetained now do
      serviceOwnShutdown now
      servicePeerShutdown now
      rest) := by
  refine .reading fun a => Ensures.branch (fun _ => Ensures.pure ⟨.refl, trivial⟩)
    fun retained => ?_
  have free : a.link.pendingEmit = none := by simpa using retained
  refine Moves.bind (ensures_serviceOwnShutdown.mono ?_
    (fun _ _ both => ⟨.single ⟨both.1, both.2 free⟩, trivial⟩)
    fun _ both => .single ⟨both.1, both.2 free⟩)
  intro _ b both
  have answers := (rests_servicePeerShutdown now).bind fun _ => rests
  exact ⟨.single ⟨both.1, both.2 free⟩, marches_of_rests answers b⟩

theorem marches_serviceRest (now deadline : Nat) : Marches heard (serviceRest now deadline) := by
  refine (marches_of_rests (rests_serviceControl now deadline)).bind fun deadline => ?_
  refine (marches_of_rests (wanders_orElse (rests_reliabilityService now deadline))).bind
    fun deadline => marches_unlessRetained now ?_
  refine (marches_of_rests (rests_sendPending now)).attempt.bind fun result => ?_
  cases result with
  | error code => exact .bind (.require _ _) fun _ => .pure now
  | ok _ =>
    refine marches_serviceEnd now ((rests_serviceHeartbeat now deadline).bind fun deadline => ?_)
    exact .reading fun a => Wanders.pure _ a

theorem marches_serviceOpen (now : Nat) : Marches heard (serviceOpen now) := by
  refine (marches_of_rests (wanders_orElse (rests_streamService.bind fun _ => .pure _))).bind
    fun deadline => ?_
  refine (marches_of_rests (rests_serviceDeferredReset now)).bind fun _ => ?_
  refine (marches_of_rests (wanders_orElse (rests_serviceSack now deadline))).bind fun deadline =>
    ?_
  exact marches_unlessRetained now (marches_serviceRest now deadline)

theorem marches_service (now : Nat) : Marches heard (service now) := by
  refine (marches_of_rests (rests_validateOperation now)).bind fun _ => ?_
  refine (marches_of_rests rests_retryPendingEmit).attempt.bind fun retried => ?_
  cases retried with
  | error code => exact .bind (.require _ _) fun _ => .pure now
  | ok _ =>
    exact .reading fun a => Wanders.branch (fun _ => .pure _) (fun _ => marches_serviceOpen now) a

/-- The chunks that a call brings. -/
def Call.brings : Call → List Chunk
  | .input packet _ => packet.chunks
  | _ => []

/-- Every call moves by strides that may rely on the chunks it brings. -/
theorem marches_call (call : Call) (told : ∀ chunk ∈ call.brings, heard chunk) :
    Marches heard call.run := by
  cases call with
  | start now => exact marches_start now
  | input packet now => exact marches_inputPacket told
  | service now => exact (marches_service now).bind fun _ => .pure ()
  | send message now => exact marches_of_rests (rests_sendMessage message now)
  | resetStream streamId now => exact marches_of_rests (rests_resetStream streamId now)
  | shutdown now => exact marches_shutdown now
  | abort now => exact marches_of_rests (rests_abort now)

end Gizos.Sctp
