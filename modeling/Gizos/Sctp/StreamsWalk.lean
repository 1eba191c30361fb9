import Gizos.Sctp.ReliabilityWalk

/-! # Messages on streams, step by step -/
namespace Gizos.Sctp

open Fault Fault.Program Pal Serial Relation

variable {heard : Chunk → Prop} {a : Association}

variable {onReturn : Bool → Association → Prop} {onFail : Int → Association → Prop}
  {onReset : Association → Prop} {now : Nat} {first : RxFragment} {parts : List RxFragment}
  {chunk : DataChunk} {request : DeferredReset}

/-- A stream is known already or allocated. -/
theorem ensures_getOrCreate {streamId : Nat}
    (returns : ∀ found known, onReturn found { a with known }) :
    Ensures Turn.Any (getOrCreate streamId) onReturn onFail onReset a := by
  refine .bind (.read ?_)
  by_cases present : streamId ∈ a.known
  · simp only [present, decide_true, if_true]
    exact .pure (returns true a.known)
  · simp only [present, decide_false, Bool.false_eq_true, if_false]
    refine .bind (ensures_allocate fun granted => ?_)
    cases granted with
    | false => exact .pure (returns false a.known)
    | true => exact .bind (.update (.pure (returns true _)))

/-- Allocating a stream is a step. -/
theorem dwells_getOrCreate {streamId : Nat}
    (returns : ∀ found known, onReturn found { a with known }) :
    Dwells heard (getOrCreate streamId) onReturn onFail a :=
  ensures_getOrCreate fun found known =>
    ⟨.single (.idle a.lastNowMs a.heartbeatDeadlineMs known), returns found known⟩

/-- Allocations change nothing. -/
theorem ensures_allocateEach (returns : ∀ granted, onReturn granted a) :
    ∀ count, Ensures Turn.Any (allocateEach count) onReturn onFail onReset a
  | 0 => .pure (returns true)
  | count + 1 => by
    refine .bind (ensures_allocate fun granted => ?_)
    cases granted with
    | false => exact .pure (returns false)
    | true => exact ensures_allocateEach returns count

/-- A message that fits is queued in one step. -/
theorem dwells_queueMessage {message : Message} (connected : a.state = .connected)
    (filled : message.data ≠ []) (stream : message.streamId < a.peer.outboundStreams) :
    RestsAt heard (queueMessage message now) a := by
  refine .bind (.read ?_)
  refine .bind (.require (fun room => ?_) fun _ => trivial)
  refine .bind (.require (fun fits => ?_) fun _ => trivial)
  refine .bind (.require (fun _ => ?_) fun _ => trivial)
  refine .bind (dwells_getOrCreate fun found known => ?_)
  refine .bind (.require (fun _ => ?_) fun _ => trivial)
  refine .bind (ensures_allocateEach (fun granted => ⟨.refl, ?_⟩) _)
  refine .bind (.require (fun _ => ?_) fun _ => trivial)
  exact .update (.sender (.enqueue message now connected filled stream room.1 room.2 fits)) trivial

/-- The message is handed to the consumer, and taken with all that this does or not at all. -/
theorem ensures_deliverOne {prepared : Bool} {onReturn : Unit → Association → Prop}
    (taken : onReturn () (a.mapReceiver fun receiver =>
      { receiver with inbox := receiver.inbox ++ [receiver.received first parts] }.handOver first
      parts)) (refused : ∀ code, onFail code a) :
    Ensures Turn.Any (deliverOne first parts prepared) onReturn onFail onReset a := by
  have hands : Ensures Turn.Any (do
      notifyMessage (a.receiver.received first parts)
      updateReceiver fun receiver => receiver.handOver first parts) onReturn onFail onReset a := by
    refine .bind fun answers _ time => ?_
    unfold notifyMessage Program.call
    by_cases zero : (answers time).code = 0
    · simp only [zero, if_true]
      exact .update taken
    · simp only [zero, if_false]
      exact refused _
  have granted : ∀ granted : Bool, Ensures Turn.Any (do
      require (granted = true) errNoMemory
      notifyMessage (a.receiver.received first parts)
      updateReceiver fun receiver => receiver.handOver first parts) onReturn onFail onReset a :=
    fun granted => .bind (.require (fun _ => hands) fun _ => refused _)
  refine .bind (.read ?_)
  by_cases ready : (prepared || a.receiver.assemblyComplete first parts) = true
  · simp only [ready, if_true]
    exact .bind (.pure (granted true))
  · simp only [ready]
    exact .bind (ensures_allocate granted)

/-- A message that is ready: where it begins, and all its parts. -/
structure Deliverable (a : Association) (first : RxFragment) (parts : List RxFragment) : Prop where
  present : first ∈ a.receiver.rx
  begins : first.delivered = false ∧ first.flags.first = true ∨
    a.receiver.assemblyBegin = some first.node
  due : a.receiver.due first = true
  ready : a.receiver.messageReady a.config.maxMessageSize first = some parts

/-- Handing over a message and counting it is one step. -/
theorem Deliverable.step (deliverable : Deliverable a first parts) :
    Lingers heard a (a.mapReceiver fun receiver => receiver.taken first parts) :=
  .receiver (.take first parts deliverable.present deliverable.begins deliverable.due
    deliverable.ready)

/-- The first message that is due is handed over. -/
theorem dwells_deliverFirst : ∀ (list : List RxFragment) (a : Association),
    (∀ fragment ∈ list, fragment ∈ a.receiver.rx) →
    RestsAt heard (deliverFirst a.config.maxMessageSize list) a
  | [], _, _ => .pure trivial
  | fragment :: rest, a, present => by
    have others := fun other member => present other (List.mem_cons_of_mem fragment member)
    unfold deliverFirst
    by_cases skipped : (fragment.delivered || !fragment.flags.first) = true
    · simp only [skipped, if_true]
      exact dwells_deliverFirst rest a others
    · simp only [skipped]
      refine .bind (dwells_getOrCreate fun found known => ?_)
      refine .bind (.require (fun _ => ?_) fun _ => trivial)
      refine .bind (.read ?_)
      cases ready : if a.receiver.due fragment then
          a.receiver.messageReady a.config.maxMessageSize fragment else none with
      | none =>
        exact dwells_deliverFirst rest { a with known } others
      | some parts =>
        have deliverable : Deliverable { a with known } fragment parts := by
          simp only [Bool.or_eq_true, Bool.not_eq_true', not_or, Bool.not_eq_true,
            Bool.not_eq_false] at skipped
          obtain ⟨due, ready⟩ := Option.ite_none_right_eq_some.1 ready
          exact ⟨present fragment List.mem_cons_self, .inl skipped, due, ready⟩
        exact Ensures.bind (ensures_deliverOne (Ensures.bind (Ensures.update (Ensures.pure
          ⟨.single deliverable.step, trivial⟩))) fun _ => ⟨.refl, trivial⟩)

/-- What handing over messages leaves alone. -/
def Association.settings (a : Association) : Config × Link × Tsn × Number × Sender × Bool :=
  (a.config, a.link, a.receiver.cumulativeReceivedTsn, a.receiver.expectedResetSequence, a.sender,
    a.shutdownPending)

/-- An allocation leaves everything. -/
theorem leaves_allocate {γ : Type} {view : Association → γ} : Leaves view allocate :=
  fun _ _ _ => rfl

/-- A new stream leaves the settings. -/
theorem leaves_getOrCreate (streamId : Nat) :
    Leaves Association.settings (getOrCreate streamId) := by
  refine (Leaves.read _).bind fun known => ?_
  cases known with
  | true => exact Leaves.pure true
  | false =>
    refine leaves_allocate.bind fun granted => ?_
    cases granted with
    | true => exact Leaves.bind (Leaves.update fun _ => rfl) fun _ => Leaves.pure true
    | false => exact Leaves.pure false

/-- Handing a message to the consumer leaves the settings. -/
theorem leaves_notifyMessage (message : Received) :
    Leaves Association.settings (notifyMessage message) := by
  intro answers time state
  unfold notifyMessage Program.call
  by_cases zero : (answers time).code = 0
  · simp only [zero, if_true]
    rfl
  · simp only [zero, if_false]
    rfl

/-- Taking a message leaves the settings. -/
theorem leaves_deliverOne (first : RxFragment) (parts : List RxFragment) (prepared : Bool) :
    Leaves Association.settings (deliverOne first parts prepared) := by
  have granted : ∀ granted (message : Received), Leaves Association.settings (do
      require (granted = true) errNoMemory
      notifyMessage message
      updateReceiver fun receiver => receiver.handOver first parts) := fun _ message =>
    (Leaves.require _ _).bind fun _ => (leaves_notifyMessage message).bind fun _ =>
      Leaves.update fun _ => rfl
  refine (Leaves.read _).bind fun receiver => ?_
  by_cases ready : (prepared || receiver.assemblyComplete first parts) = true
  · simp only [ready, if_true]
    exact (Leaves.pure true).bind fun _ => granted _ _
  · simp only [ready]
    exact leaves_allocate.bind fun _ => granted _ _

/-- Looking for the first message leaves the settings. -/
theorem leaves_deliverFirst (limit : Nat) : ∀ list : List RxFragment,
    Leaves Association.settings (deliverFirst limit list)
  | [] => Leaves.pure false
  | fragment :: rest => by
    have next := leaves_deliverFirst limit rest
    unfold deliverFirst
    split
    · exact next
    · refine (leaves_getOrCreate _).bind fun _ => (Leaves.require _ _).bind fun _ =>
        (Leaves.read _).bind fun receiver => ?_
      split
      · exact next
      · refine (leaves_deliverOne _ _ _).bind fun _ => (Leaves.update fun state => ?_).bind
          fun _ => Leaves.pure true
        unfold Association.mapReceiver Receiver.countOrdered
        split <;> rfl

/-- Handing over all messages leaves the settings. -/
theorem leaves_deliverLoop (limit : Nat) : ∀ fuel, Leaves Association.settings
    (deliverLoop limit fuel)
  | 0 => Leaves.pure ()
  | fuel + 1 => by
    refine (Leaves.read _).bind fun list => (leaves_deliverFirst limit list).bind fun delivered =>
      ?_
    cases delivered with
    | true => exact leaves_deliverLoop limit fuel
    | false => exact Leaves.pure ()

/-- The service of the streams leaves the settings. -/
theorem leaves_streamService : Leaves Association.settings streamService := by
  refine (Leaves.read _).bind fun pending => ?_
  cases pending with
  | false => exact Leaves.pure ()
  | true =>
    refine Leaves.bind ?_ fun _ => Leaves.update fun _ => rfl
    exact (Leaves.read _).bind fun _ => (leaves_deliverLoop _ _).bind fun _ =>
      Leaves.update fun _ => rfl

/-- Asking for delivery leaves the settings. -/
theorem leaves_deliverNow : Leaves Association.settings deliverNow :=
  .bind (.update fun _ => rfl) fun _ => leaves_streamService

/-- Messages are handed over as long as one is due. -/
theorem dwells_deliverLoop : ∀ (fuel : Nat) (a : Association),
    RestsAt heard (deliverLoop a.config.maxMessageSize fuel) a
  | 0, _ => .pure trivial
  | fuel + 1, a => by
    refine .bind (.read (.bind (.leaving (leaves_deliverFirst _ _) ?_)))
    refine (dwells_deliverFirst _ a fun _ => id).mono ?_ fun _ _ _ _ => trivial
    intro delivered after _ same
    have config : after.config = a.config := congrArg Prod.fst same
    cases delivered with
    | false => exact .pure trivial
    | true =>
      rw [← config]
      exact dwells_deliverLoop fuel after

/-- What was handed over is pruned. -/
theorem rests_streamService : Rests heard streamService := by
  refine Wanders.reading fun a => ?_
  refine Wanders.branch (fun _ => ?_) (fun _ => Wanders.pure ()) a
  refine Wanders.bind ?_ fun _ => rests_updateReceiver fun _ => .deliveryPending false
  refine Wanders.reading fun b => Moves.bind ((dwells_deliverLoop _ b).mono ?_ fun _ _ _ => trivial)
  intro _ after _
  exact rests_updateReceiver (fun _ => .prune) after

/-- Delivery is asked for and done. -/
theorem rests_deliverNow : Rests heard deliverNow :=
  (rests_updateReceiver fun _ => .deliveryPending true).bind fun _ => rests_streamService

/-- A reset that is due is one step. -/
theorem dwells_performReset {sequence : Number} {lastTsn : Tsn} {streams : List Nat}
    (next : sequence = a.receiver.expectedResetSequence)
    (complete : after lastTsn a.receiver.cumulativeReceivedTsn = false) :
    RestsAt heard (performReset sequence lastTsn streams) a :=
  .bind (.update (.receiver (.performReset sequence lastTsn streams next complete))
    (rests_streamService.ignoring _))

/-- A deferred reset is answered and done when it is due. -/
theorem rests_serviceDeferredReset (now : Nat) : Rests heard (serviceDeferredReset now) := by
  refine .reading fun a => ?_
  cases deferred : a.receiver.deferredReset with
  | none => exact .pure trivial
  | some request =>
    by_cases waits : request.sequence ≠ a.receiver.expectedResetSequence ∨
        after request.lastTsn a.receiver.cumulativeReceivedTsn = true
    · simp only [waits, if_true]
      exact .pure trivial
    · simp only [waits, if_false]
      simp only [ne_eq, not_or, Decidable.not_not, Bool.not_eq_true] at waits
      refine .bind (.attempt (.leaving leaves_deliverNow ((rests_deliverNow a).mono ?_ ?_)))
      · intro _ b _ same
        have next : request.sequence = b.receiver.expectedResetSequence :=
          waits.1.trans (congrArg (fun settings => settings.2.2.2.1) same).symm
        have complete : after request.lastTsn b.receiver.cumulativeReceivedTsn = false := by
          rw [show b.receiver.cumulativeReceivedTsn = a.receiver.cumulativeReceivedTsn from
            congrArg (fun settings => settings.2.2.1) same]
          exact waits.2
        refine .bind (.read ?_)
        by_cases retained : b.link.pendingEmit.isSome = true
        · simp only [id_eq, retained, if_true]
          exact .pure trivial
        · simp only [id_eq, retained]
          refine .bind (.attempt (dwells_emitToPeer (.resetResponse _ _) ?_ ?_ ?_))
          · intro _ link
            exact dwells_performReset next complete
          · intro link
            exact dwells_performReset next complete
          · intro code link state unblocked
            simp only [unblocked, if_false]
            exact Wanders.require _ _ _
      · intro code b _ _
        exact Wanders.require _ _ b

/-- A message that a new fragment completes is prepared before it is decided that the fragment
stays. -/
theorem ensures_prepareDelivery {fragment : RxFragment}
    {onReturn : Option (RxFragment × List RxFragment) → Association → Prop}
    (waiting : ∀ known, onReturn none { a with known })
    (prepared : ∀ first parts known, a.receiver.firstOf fragment = some first →
      a.receiver.messageReady a.config.maxMessageSize first = some parts →
      a.receiver.due first = true → onReturn (some (first, parts)) { a with known })
    (refused : ∀ known, onFail errWouldBlock
      ({ a with known }.mapReceiver fun receiver => receiver.undo fragment)) :
    Ensures Turn.Any (prepareDelivery fragment) onReturn onFail onReset a := by
  refine .bind (.read ?_)
  cases found : (a.receiver.firstOf fragment).bind fun first =>
      (a.receiver.messageReady a.config.maxMessageSize first).map (first, ·) with
  | none =>
    simp only [id_eq, found]
    exact .pure (waiting a.known)
  | some pair =>
    obtain ⟨first, begins, mapped⟩ := Option.bind_eq_some_iff.1 found
    obtain ⟨parts, ready, rfl⟩ := Option.map_eq_some_iff.1 mapped
    simp only [id_eq, found]
    by_cases due : a.receiver.due first = true
    · simp only [due, Bool.not_true, Bool.false_eq_true, if_false]
      have streams : ∀ granted : Bool, Ensures Turn.Any (if !granted then (do
            updateReceiver fun receiver => receiver.undo fragment
            fail errWouldBlock)
          else do
            let stream ← if first.flags.unordered then pure true else getOrCreate first.streamId
            if stream then pure (some (first, parts))
            else do
              updateReceiver fun receiver => receiver.undo fragment
              fail errWouldBlock) onReturn onFail onReset a := by
        intro granted
        have ends : ∀ (found : Bool) known, Ensures Turn.Any
          (if found then pure (some (first, parts))
            else do
              updateReceiver fun receiver => receiver.undo fragment
              fail errWouldBlock) onReturn onFail onReset { a with known } := by
          intro found known
          cases found with
          | true => exact .pure (prepared first parts known begins ready due)
          | false => exact .bind (.update (.fail (refused known)))
        cases granted with
        | false => exact .bind (.update (.fail (refused a.known)))
        | true =>
          by_cases unordered : first.flags.unordered = true
          · simp only [unordered, if_true]
            exact .bind (.pure (ends true a.known))
          · simp only [unordered]
            exact .bind (ensures_getOrCreate ends)
      by_cases complete : a.receiver.assemblyComplete first parts = true
      · simp only [complete, if_true]
        exact .bind (.pure (streams true))
      · simp only [complete]
        exact .bind (ensures_allocate streams)
    · simp only [due, Bool.not_false, if_true]
      exact .pure (waiting a.known)

/-- Known streams do not matter to a chunk. -/
theorem Acceptable.of_known {known : List Nat} (acceptable : Acceptable a chunk) :
    Acceptable { a with known } chunk :=
  { acceptable with }

/-- The fragment where the message of a new one begins is in the list. -/
theorem firstOf_mem {receiver : Receiver} {fragment : RxFragment} (present : fragment ∈ receiver.rx)
    (fresh : fragment.delivered = false) (found : receiver.firstOf fragment = some first) :
    first ∈ receiver.rx ∧ (first.delivered = false ∧ first.flags.first = true ∨
      receiver.assemblyBegin = some first.node) := by
  unfold Receiver.firstOf at found
  split at found
  · rename_i begins
    obtain rfl : fragment = first := Option.some.inj found
    exact ⟨present, .inl ⟨fresh, begins⟩⟩
  · split at found
    · obtain ⟨node, begin, at'⟩ := Option.bind_eq_some_iff.1 found
      have same : first.node = node := by simpa using List.find?_some at'
      exact ⟨List.mem_of_find?_eq_some at', .inr (same ▸ begin)⟩
    · have hit := List.find?_some found
      simp only [RxFragment.sameMessage, Bool.and_eq_true, Bool.not_eq_true'] at hit
      exact ⟨List.mem_of_find?_eq_some found, .inl ⟨hit.2.1.2, hit.1⟩⟩

/-- A prepared message is handed over, or waits. -/
theorem dwells_deliverPrepared (deliverable : Deliverable a first parts) :
    RestsAt heard (deliverPrepared first parts) a := by
  have pending : ∀ b : Association, RestsAt heard (updateReceiver fun receiver =>
      { receiver with deliveryPending := true }) b :=
    rests_updateReceiver fun _ => .deliveryPending true
  refine Ensures.bind (Ensures.attempt (ensures_deliverOne ?_ ?_))
  · refine Ensures.update ⟨?_, trivial⟩
    exact .tail (.tail (.single deliverable.step) (.receiver .prune))
      (.receiver (.deliveryPending true))
  · intro code
    exact Moves.bind (Moves.require (fun _ => pending a) fun _ => trivial)

/-- A chunk is stored and kept, or undone. -/
theorem dwells_acceptData (told : heard (.data chunk)) (acceptable : Acceptable a chunk) :
    RestsAt heard (acceptData chunk now) a := by
  have path : ∀ known receiver, ReceiverStep heard { a with known } receiver →
      ReflTransGen (Lingers heard) a { a with known, receiver } := fun known receiver stepped =>
    .tail (.single (.idle a.lastNowMs a.heartbeatDeadlineMs known)) (.receiver stepped)
  have rest : ∀ inOrder, Rests heard (do
      tolerating [errNoMemory, errWouldBlock]
        (noteData now (!inOrder || chunk.flags.immediate || chunk.flags.last))
      serviceDeferredReset now) := fun _ =>
    (wanders_tolerating (rests_noteData now _)).bind fun _ => rests_serviceDeferredReset now
  have stays : a.receiver.fragmentOf a.config chunk ∈ (a.receiver.stored a.config chunk).rx :=
    (Receiver.insertRx_perm _ _).mem_iff.mpr List.mem_cons_self
  refine Ensures.bind (Ensures.read (Ensures.bind (Ensures.update (Ensures.bind
    (ensures_allocate fun granted => Ensures.bind (Ensures.require ?_ ?_))))))
  · intro _
    refine Ensures.bind (Ensures.update (Ensures.bind (ensures_prepareDelivery ?_ ?_ ?_)))
    · intro known
      refine Ensures.bind (Ensures.update ?_)
      exact Moves.prepend (path known _ (.accept chunk told acceptable.of_known)) (rest _ _)
    · intro first parts known begins ready due
      refine Ensures.bind (Ensures.update ?_)
      obtain ⟨present, starts⟩ := firstOf_mem stays rfl begins
      have deliverable : Deliverable { a with
          known
          receiver := (a.receiver.stored a.config chunk).keep
            (a.receiver.fragmentOf a.config chunk) } first parts := ⟨present, starts, due, ready⟩
      refine Moves.prepend (path known _ (.accept chunk told acceptable.of_known)) (Moves.bind ?_)
      exact (dwells_deliverPrepared deliverable).mono (fun _ after _ => rest _ after)
        fun _ _ _ => trivial
    · intro known
      exact ⟨path known _ (.refuse chunk told acceptable.of_known), trivial⟩
  · intro _
    exact ⟨path a.known _ (.look chunk told acceptable), trivial⟩

/-- Data that is new and fits is accepted. -/
theorem dwells_handleData (told : heard (.data chunk))
    (state : a.state = .connected ∨ a.state = .shuttingDown) :
    RestsAt heard (handleData chunk now) a := by
  refine .bind (.read ?_)
  refine .bind (.require (fun format => ?_) fun _ => trivial)
  refine .bind (.require (fun stream => ?_) fun _ => trivial)
  simp only [id_eq] at format stream ⊢
  split
  · exact (wanders_tolerating (rests_sendSack now)) a
  · rename_i new
    simp only [Bool.or_eq_true, Bool.not_eq_true', Bool.and_eq_true, decide_eq_true_eq, not_or,
      Bool.not_eq_false, not_and, Bool.not_eq_true] at new
    refine .bind (.require (fun room => ?_) fun _ => trivial)
    refine .bind (.require (fun _ => ?_) fun _ => trivial)
    refine dwells_acceptData told ⟨state, format.1, format.2.1, stream, new.1, ?_, by omega⟩
    by_cases next : chunk.tsn = a.receiver.cumulativeReceivedTsn + 1
    · exact .inl next
    · exact .inr (new.2 next)

/-- The streams of a FORWARD-TSN are allocated first. -/
theorem dwells_prepareForwardStreams {interleaved : Bool} {onReturn : List Nat → Association → Prop}
    (returns : ∀ prepared, onReturn prepared a) (fails : ∀ code, onFail code a) :
    ∀ entries prepared,
      Dwells heard (prepareForwardStreams interleaved entries prepared) onReturn onFail a
  | [], prepared => .pure (returns prepared)
  | entry :: rest, prepared => by
    have next : ∀ prepared,
        Dwells heard (prepareForwardStreams interleaved rest prepared) onReturn onFail a :=
      dwells_prepareForwardStreams returns fails rest
    refine .bind (.read (.bind (.require (fun _ => ?_) fun _ => fails _)))
    split
    · exact next prepared
    · refine .bind (moves_allocate fun granted => ?_)
      exact .bind (.require (fun _ => next _) fun _ => fails _)

/-- A FORWARD-TSN that is new is one step. -/
theorem rests_handleForwardTsn {chunk : ForwardChunk} (told : heard (.forwardTsn chunk)) :
    Rests heard (handleForwardTsn chunk now) := by
  refine .reading fun a => ?_
  refine .bind (.require (fun interleaved => ?_) fun _ => trivial)
  by_cases old : after chunk.newCumulative a.receiver.cumulativeReceivedTsn = true
  · simp only [id_eq, old, Bool.not_true, Bool.false_eq_true, if_false]
    refine .bind (dwells_prepareForwardStreams (fun prepared => ?_) (fun _ => trivial) _ _)
    refine .bind (.update (.idle a.lastNowMs a.heartbeatDeadlineMs _) ?_)
    refine .bind (.update (.receiver (.forward chunk told interleaved old)) ?_)
    exact ((wanders_tolerating rests_streamService).bind fun _ =>
      (wanders_tolerating (rests_sendSack now)).bind
      fun _ => rests_serviceDeferredReset now) _
  · simp only [id_eq, old, Bool.not_false, if_true]
    exact (wanders_tolerating (rests_sendSack now)) a

/-- A reset request that was heard. -/
def Requested (heard : Chunk → Prop) (request : DeferredReset) : Prop :=
  ∃ parameters, heard (.reconfig parameters) ∧
    .outgoing request.sequence request.lastTsn request.streams ∈ parameters

/-- A request that was heard is deferred. -/
theorem rests_deferReset (requested : Requested heard request) :
    Rests heard (deferReset request) := by
  obtain ⟨parameters, told, listed⟩ := requested
  refine .reading fun a => ?_
  refine Wanders.branch (fun _ => Wanders.pure ()) (fun _ => ?_) a
  exact wanders_allocate.bind fun granted =>
    rests_updateReceiver fun _ => .defer request granted parameters told listed

/-- A reset is answered by 1 only when it is due. -/
theorem dwells_answerReset (requested : Requested heard request)
    {onReturn : Nat → Association → Prop} (others : ∀ code b, code ≠ 1 → onReturn code b)
    (now : ∀ b : Association,
      b.receiver.expectedResetSequence = a.receiver.expectedResetSequence →
      after request.lastTsn b.receiver.cumulativeReceivedTsn = false → onReturn 1 b)
    (fails : ∀ code b, onFail code b) :
    Dwells heard (answerReset request) onReturn onFail a := by
  have later : ∀ b, Dwells heard (do
      deferReset request
      pure 6) onReturn onFail b := fun b =>
    .bind ((rests_deferReset requested).moves
      (fun _ c => .pure (others 6 c (by decide))) fun code c => fails code c)
  refine .bind (.read ?_)
  simp only [id_eq]
  split
  · exact .pure (others 2 a (by decide))
  · split
    · exact later a
    · rename_i complete
      refine .bind (.attempt (.leaving leaves_deliverNow ((rests_deliverNow a).mono ?_ ?_)))
      · intro _ b _ same
        have cumulative : b.receiver.cumulativeReceivedTsn = a.receiver.cumulativeReceivedTsn :=
          congrArg (fun settings => settings.2.2.1) same
        refine .pure (now b (congrArg (fun settings => settings.2.2.2.1) same) ?_)
        rw [cumulative]
        simpa using complete
      · intro code b _ _
        exact .bind (.require (fun _ => later b) fun _ => fails _ _)

/-- A request is answered, and reset if the answer is 1. -/
theorem rests_handleOutgoingReset (requested : Requested heard request) :
    Rests heard (handleOutgoingReset request now) := by
  obtain ⟨parameters, told, listed⟩ := id requested
  refine (rests_updateReceiver fun _ => .expect request parameters told listed).bind fun _ => ?_
  -- The response carries the code; only the code 1 is followed by the reset.
  have responds : ∀ code b, (code = 1 → request.sequence = b.receiver.expectedResetSequence ∧
      after request.lastTsn b.receiver.cumulativeReceivedTsn = false) →
      Dwells heard (sendResetResponse request.sequence code now)
        (fun _ => RestsAt heard (if code = 1 then
          performReset request.sequence request.lastTsn request.streams else pure ()))
        (fun failure => RestsAt heard (do
          require (failure = errWouldBlock)
            (if failure = errNoMemory then errWouldBlock else failure)
          if code = 1 then performReset request.sequence request.lastTsn request.streams
          else pure ())) b := by
    intro code b ready
    have finish : ∀ link, RestsAt heard (if code = 1 then
        performReset request.sequence request.lastTsn request.streams else pure ())
          { b with link } := by
      intro link
      by_cases one : code = 1
      · rw [if_pos one]
        exact dwells_performReset (ready one).1 (ready one).2
      · rw [if_neg one]
        exact Moves.pure trivial
    refine dwells_emitToPeer (.resetResponse _ _) ?_ ?_ ?_
    · intro _ link
      exact finish link
    · intro link
      exact Moves.bind (Moves.require (fun _ => finish link) fun _ => trivial)
    · intro failure link state unblocked
      exact Moves.bind (Moves.require (fun blocked => absurd blocked unblocked) fun _ => trivial)
  refine Wanders.reading fun a => ?_
  by_cases old : before request.sequence a.receiver.expectedResetSequence = true
  · simp only [old, if_true]
    exact Moves.bind (Moves.pure (Moves.bind (Moves.attempt (responds 0 a (by simp)))))
  · simp only [old]
    by_cases next : request.sequence = a.receiver.expectedResetSequence
    · simp only [next, ne_eq, not_true, if_false]
      rw [← next]
      refine Moves.bind (dwells_answerReset requested ?_ ?_ fun _ _ => trivial)
      · intro code b other
        exact Moves.bind (Moves.attempt (responds code b fun one => absurd one other))
      · intro b expected complete
        exact Moves.bind (Moves.attempt
          (responds 1 b fun _ => ⟨next.trans expected.symm, complete⟩))
    · simp only [ne_eq, next, not_false_eq_true, if_true]
      exact Moves.bind (Moves.pure (Moves.bind (Moves.attempt (responds 5 a (by simp)))))

/-- The answer to a reset request retires the packet with the request, and no other. -/
theorem abides_resetResponse (b : Association) (sequence : Number) (code now : Nat) :
    b.Abides (b.resetResponse sequence code now) := by
  unfold Association.resetResponse
  split
  · rename_i id control _ found
    have uttered : ¬b.Ended → ∀ packet, b.link.Uttered packet → b.link.Uttered packet :=
      fun _ _ same => same
    split
    · exact .refl b
    · rename_i reset
      have pledge : b.pledge = none := by
        rw [Decidable.not_not] at reset
        simp [Association.pledge, Association.controlKind, found, reset]
      split
      · refine ⟨rfl, .inr ⟨rfl, rfl, rfl, rfl, ?_, uttered⟩⟩
        simp [Association.pledge, Association.controlKind, found]
      · exact ⟨rfl, .inr ⟨rfl, rfl, rfl, rfl, pledge.symm, uttered⟩⟩
  · exact .refl b

/-- The answer to a reset request of this side changes the control packet or the stream. -/
theorem rests_resetResponse {sequence : Number} {code : Nat} {parameters : List ResetParameter}
    (told : heard (.reconfig parameters)) (listed : .response sequence code ∈ parameters) :
    Rests heard (update fun association => association.resetResponse sequence code now) := by
  refine .update fun a => ⟨?_, abides_resetResponse a sequence code now⟩
  unfold Association.resetResponse
  split
  · rename_i id control found kept
    split
    · exact .refl
    · split
      · exact .single (.link (.repeated kept rfl rfl))
      · have waits := List.find?_some found
        simp only [Bool.and_eq_true, decide_eq_true_eq] at waits
        rw [← waits.2] at listed
        exact .tail (.single (.link .cleared))
          (.sender (.resetAnswered id code parameters waits.1 told listed))
  · exact .refl

/-- The parameters are handled one by one. -/
theorem rests_handleReconfig {parameters : List ResetParameter}
    (told : heard (.reconfig parameters)) : ∀ rest, (∀ parameter ∈ rest, parameter ∈ parameters) →
    Rests heard (handleReconfig now rest)
  | [], _ => .pure ()
  | .outgoing _ _ _ :: rest, listed =>
    (rests_handleOutgoingReset ⟨parameters, told, listed _ List.mem_cons_self⟩).bind fun _ =>
      rests_handleReconfig told rest fun _ member => listed _ (List.mem_cons_of_mem _ member)
  | .response _ _ :: rest, listed =>
    (rests_resetResponse told (listed _ List.mem_cons_self)).bind fun _ =>
      rests_handleReconfig told rest fun _ member => listed _ (List.mem_cons_of_mem _ member)
  | .other :: rest, listed =>
    rests_handleReconfig told rest fun _ member => listed _ (List.mem_cons_of_mem _ member)
  | .malformed code :: _, _ => .fail code

end Gizos.Sctp
