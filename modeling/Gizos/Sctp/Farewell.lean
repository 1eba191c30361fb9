import Gizos.Sctp.Run

/-! # What is left of a shutdown request

An association that was asked to shut down either still waits for its queue to drain or repeats a
SHUTDOWN packet, until it is over. The one case in which neither holds is a request that is made
while another packet is retained: the emission layer then drops the SHUTDOWN packet with the same
result with which it keeps one.
-/
namespace Gizos.Sctp

open Fault Fault.Program Pal Serial Relation Association

namespace Association

/-- The request is on record: it waits, or the packet that makes it is repeated. -/
def Remembers (a : Association) : Prop :=
  a.shutdownPending = true ∨ a.controlKind = some .shutdown

/-- The association is over, or shutting down with the request on record. -/
def Keeping (a : Association) : Prop := a.Ended ∨ a.state = .shuttingDown ∧ a.Remembers

end Association

/-- Until it is shut down, nothing is on record. -/
def Stage.Unasked (stage : Stage) : Prop :=
  stage.state = .new ∨ stage.state = .connecting ∨ stage.state = .connected →
    stage.shutdownPending = false ∧ stage.pledge ≠ some .shutdown

variable {config : Config} {heard : Chunk → Prop} {a b c d : Association} {now : Nat}

theorem remembers_iff : a.Remembers ↔ a.shutdownPending = true ∨ a.pledge = some .shutdown := by
  rw [Association.pledge_iff (by decide)]
  exact Iff.rfl

theorem Association.SameStage.remembers (same : a.SameStage b) (remembers : a.Remembers) :
    b.Remembers := by
  rw [remembers_iff] at remembers ⊢
  rw [same.shutdownPending, same.pledge]
  exact remembers

theorem Association.Abides.keeping (abides : a.Abides b) (keeping : a.Keeping) : b.Keeping := by
  rcases abides.stage with failed | same
  · exact .inl (.inr failed)
  · unfold Association.Keeping Ended at keeping ⊢
    rw [same.state]
    exact keeping.imp_right fun shutting => ⟨shutting.1, same.remembers shutting.2⟩

/-- A shutdown request stays on record along strides, unless the peer shuts down as well. -/
theorem Stride.keeping (stride : Stride heard a b)
    (alone : ∀ cumulative, ¬heard (.shutdown cumulative)) (keeping : a.Keeping) : b.Keeping := by
  have early : a.state ≠ .new ∧ a.state ≠ .connecting ∧ a.state ≠ .connected := by
    rcases keeping with (closed | failed) | ⟨shutting, -⟩
    · simp [closed]
    · simp [failed]
    · simp [shutting]
  cases stride with
  | abides abides => exact abides.keeping keeping
  | started _ new _ _ => exact absurd new early.1
  | greeted _ _ connecting _ _ _ | echoed _ _ _ connecting _ _ _
  | acknowledged _ connecting _ _ _ | answered _ _ connecting _ _ _ _ _ =>
    exact absurd connecting early.2.1
  | retired connected _ _ _ | shutDown _ _ connected _ => exact absurd connected early.2.2
  | resumed _ stage _ =>
    have state : b.state = a.state := congrArg Stage.state stage
    have pledge : b.pledge = some .shutdown := congrArg Stage.pledge stage
    unfold Association.Keeping Ended at keeping ⊢
    rw [state]
    exact keeping.imp_right fun shutting => ⟨shutting.1, remembers_iff.2 (.inr pledge)⟩
  | peerShutDown cumulative told _ => exact absurd told (alone cumulative)
  | closed _ closed _ => exact .inl (.inl closed)
  | past _ ended _ => exact .inl ended

/-- Nothing is on record before an association is shut down. -/
theorem Stride.unasked (stride : Stride heard a b) (unasked : a.stage.Unasked) :
    b.stage.Unasked := by
  have late : ∀ state, b.state = state → state ≠ .new → state ≠ .connecting → state ≠ .connected →
      b.stage.Unasked := by
    rintro state rfl new connecting connected (early | early | early)
    · exact absurd early new
    · exact absurd early connecting
    · exact absurd early connected
  cases stride with
  | abides abides =>
    rcases abides.stage with failed | same
    · exact late _ failed nofun nofun nofun
    · rw [same.stage_eq abides.config]
      exact unasked
  | started pledge new chosen stage =>
    obtain ⟨pending, unpledged⟩ := unasked (.inl new)
    rw [stage]
    rcases chosen with rfl | rfl
    · exact fun _ => ⟨pending, unpledged⟩
    · exact fun _ => ⟨pending, nofun⟩
  | greeted values cookie connecting _ stage _ =>
    rw [stage]
    exact fun _ => unasked (.inr (.inl connecting))
  | echoed values cookie _ connecting _ stage _ | acknowledged _ connecting _ stage _ =>
    rw [stage]
    exact fun _ => ⟨(unasked (.inr (.inl connecting))).1, nofun⟩
  | answered cookie pledge connecting _ _ chosen stage _ =>
    obtain ⟨pending, unpledged⟩ := unasked (.inr (.inl connecting))
    rw [stage]
    rcases chosen with rfl | rfl
    · exact fun _ => ⟨pending, nofun⟩
    · exact fun _ => ⟨pending, unpledged⟩
  | retired connected _ stage _ =>
    rw [stage]
    exact fun _ => ⟨(unasked (.inr (.inr connected))).1, nofun⟩
  | shutDown _ _ _ stage | peerShutDown cumulative _ stage =>
    rw [stage]
    rintro (early | early | early) <;> cases early
  | resumed pending stage _ =>
    rw [stage]
    intro early
    exact absurd pending (Bool.eq_false_iff.1 (unasked early).1)
  | closed _ closed _ => exact late _ closed nofun nofun nofun
  | past _ ended _ =>
    rcases ended with closed | failed
    · exact late _ closed nofun nofun nofun
    · exact late _ failed nofun nofun nofun

theorem Reachable.unasked (reachable : Reachable config a) : a.stage.Unasked :=
  reachable.treading (fun a => a.stage.Unasked) (fun _ _ _ _ => ⟨rfl, nofun⟩)
    fun _ _ _ unasked stride => stride.unasked unasked

/-- An association that lasts: it takes calls and hears packets, and it is not over after any call
nor after any chunk of a packet. -/
inductive Lasts (b : Association) : Association → Prop where
  | start : Lasts b b
  | called {c d : Association} (call : Call) : Lasts b c → call.brings = [] →
      Reaches Turn.Any call.run c d → ¬d.Ended → Lasts b d
  | heard {c : Association} (packet : Packet) (now : Nat) (answers : Nat → Turn) (time : Nat) :
      Lasts b c → (∀ count, ¬(c.station packet now answers time count).Ended) →
      Lasts b (inputPacket packet now answers time c).state

/-- A chunk that the association survives leaves the request on record. -/
theorem keeping_dispatchChunk {chunk : Chunk} (keeping : c.Keeping) (lasting : ¬c.Ended)
    (made : Reaches Turn.Any (dispatchChunk now chunk) c d) : d.Keeping := by
  by_cases shutdown : ∃ cumulative, chunk = .shutdown cumulative
  · -- The peer shuts down as well: the request is untouched, and what follows keeps the stage.
    obtain ⟨cumulative, rfl⟩ := shutdown
    obtain ⟨shut, -, stage, lingers⟩ :=
      Ensures.reached (@ensures_handleShutdown (fun _ => True) c now cumulative trivial) made
    refine lingers.abides.keeping (.inr ⟨congrArg Stage.state stage, ?_⟩)
    have remembers := (keeping.resolve_left lasting).2
    rw [remembers_iff] at remembers ⊢
    exact remembers.imp (congrArg Stage.shutdownPending stage).trans
      (congrArg Stage.pledge stage).trans
  · have path : Treads (fun other => other = chunk) c d :=
      .of_reaches (marches_dispatchChunk rfl) made
    have alone : ∀ cumulative, ¬(Chunk.shutdown cumulative = chunk) :=
      fun cumulative same => shutdown ⟨cumulative, same.symm⟩
    exact holds_along (fun _ _ kept stride => stride.keeping alone kept) path keeping

/-- A request that is on record stays there as long as the association lasts. -/
theorem Lasts.keeping (keeping : b.Keeping) (lasting : ¬b.Ended) (lasts : Lasts b c) :
    c.Keeping ∧ ¬c.Ended := by
  induction lasts with
  | start => exact ⟨keeping, lasting⟩
  | @called c d call _ alone made ended ih =>
    have path : Treads (fun _ => False) c d := .of_reaches (marches_call call (by simp [alone]))
      made
    have kept := holds_along (fun _ _ kept stride => Stride.keeping stride (fun _ => id) kept) path
      ih.1
    exact ⟨kept, ended⟩
  | @heard c packet now answers time _ unended ih =>
    have kept : ∀ count, (c.station packet now answers time count).Keeping :=
      station_induction ih.1 fun count _ _ held made =>
        keeping_dispatchChunk held (unended count) made
    have both : ∀ count, (c.station packet now answers time count).Keeping ∧
        ¬(c.station packet now answers time count).Ended :=
      fun count => ⟨kept count, unended count⟩
    exact @inputPacket_station c packet now answers time (fun d => d.Keeping ∧ ¬d.Ended) ih both

/-- A shutdown request that was accepted is on record for as long as the association lasts, whatever
calls are made and whatever is heard, exactly if there was data to be sent or nothing was retained
when it was made. -/
theorem shutdown_remembered_iff (reachable : Reachable config a)
    (accepted : Yields Turn.Any (shutdown now) a () b) :
    (∀ c, Lasts b c → c.Remembers) ↔ a.sender.sendUsed ≠ 0 ∨ a.link.pendingEmit = none := by
  obtain ⟨-, connected, stage⟩ := (@ensures_shutdown (fun _ => True) a now).yielded accepted
  have pending : b.shutdownPending = if a.sender.sendUsed = 0 then a.shutdownPending else true :=
    congrArg Stage.shutdownPending stage
  have pledge : b.pledge = if a.sender.sendUsed = 0 ∧ a.link.pendingEmit = none then some .shutdown
      else a.pledge := congrArg Stage.pledge stage
  have state : b.state = .shuttingDown := congrArg Stage.state stage
  obtain ⟨unasked, unpledged⟩ := reachable.unasked (.inr (.inr connected))
  constructor
  · intro remembered
    have now := remembers_iff.1 (remembered b .start)
    by_contra neither
    simp only [not_or, ne_eq, Decidable.not_not] at neither
    obtain ⟨drained, retained⟩ := neither
    rw [pending, pledge, if_pos drained, if_neg (fun both => retained both.2)] at now
    rcases now with waits | pledged
    · exact absurd waits (Bool.eq_false_iff.1 unasked)
    · exact unpledged pledged
  · intro held c lasts
    have remembers : b.Remembers := by
      rw [remembers_iff, pending, pledge]
      by_cases drained : a.sender.sendUsed = 0
      · have free := held.resolve_left (not_not.2 drained)
        exact .inr (if_pos ⟨drained, free⟩)
      · exact .inl (if_neg drained)
    have lasting : ¬b.Ended := by simp [Ended, state]
    obtain ⟨keeping, unended⟩ := lasts.keeping (.inr ⟨state, remembers⟩) lasting
    exact (keeping.resolve_left unended).2

namespace Sample

/-- An open association whose answer to a heartbeat the transport does not take for now. -/
def clogged : Association :=
  played true true 0 [(.input (packet [.heartbeat []]) 0, [{}, { code := errWouldBlock }])]

/-- An open association with nothing to send and nothing retained. -/
def idle : Association := played true true 0 []

end Sample

/-- A request that is made while the answer to a heartbeat is retained is accepted and forgotten:
nothing waits, nothing is repeated, and when the transport takes packets again no SHUTDOWN is among
them. -/
theorem shutdown_forgotten :
    let a := Sample.clogged
    let outcome := (shutdown 0) (fun _ => {}) 0 a
    let later := replay [Sample.calm (.service 0), Sample.calm (.service 100000)] outcome.state
    Reachable (Sample.small .active) a ∧ a.state = .connected ∧ outcome.value = some () ∧
      outcome.state.state = .shuttingDown ∧ outcome.state.shutdownPending = false ∧
      outcome.state.link.control = none ∧ later.state = .shuttingDown ∧
      later.link.pendingEmit = none ∧
      later.link.wire.all fun packet => packet.chunks.all fun chunk =>
        chunk ≠ .shutdown later.receiver.cumulativeReceivedTsn := by
  exact ⟨Sample.played_reachable true true 0 _, by decide +kernel⟩

/-- A request that is made while nothing is retained is on record from then on. -/
theorem shutdown_remembered_iff_idle :
    Sample.idle.link.pendingEmit = none ∧
      {c | Lasts ((shutdown 0) (fun _ => {}) 0 Sample.idle).state c} ⊆ {c | c.Remembers} := by
  have free : Sample.idle.link.pendingEmit = none := by decide +kernel
  have returned : ((shutdown 0) (fun _ => {}) 0 Sample.idle).value = some () := by decide +kernel
  have accepted : Yields Turn.Any (shutdown 0) Sample.idle ()
      ((shutdown 0) (fun _ => {}) 0 Sample.idle).state :=
    .of_value (fun _ => trivial) returned
  exact ⟨free, fun c lasts =>
    (shutdown_remembered_iff (Sample.played_reachable true true 0 []) accepted).2
      (.inr free) c lasts⟩

end Gizos.Sctp
