import Gizos.Sctp.Steps

/-! # What neither opens nor closes an association

Most routines answer the peer, send messages or hand them over without a say in whether the
association is open. They keep its stage: its state, the peer that it knows, the packet that it
repeats to open or to close, and what it was asked to do. What they may do is to fail it. Such a
routine is walked through once, for the steps that it takes and for the stage that it keeps.
-/
namespace Gizos.Sctp

open Fault Fault.Program Pal Serial Relation

/-- A packet was handed to the transport: it was taken, or it is retained. -/
def Link.Uttered (link : Link) (packet : Packet) : Prop :=
  packet ∈ link.wire ∨ link.pendingEmit = some packet

namespace Association

/-- A packet that the transport has taken. -/
def transmit (a : Association) (packet : Packet) : Association :=
  { a with link := { a.link with wire := a.link.wire ++ [packet] } }

/-- The kind of the control packet that opens or closes the association. -/
def pledge (a : Association) : Option ControlKind :=
  a.controlKind.filter fun kind => kind ≠ .reset

/-- The association is over. -/
def Ended (a : Association) : Prop := a.state = .closed ∨ a.state = .failed

/-- Two associations at the same stage. Unless it is over, what was handed to the transport does not
get lost. -/
structure SameStage (a b : Association) : Prop where
  state : b.state = a.state
  peer : b.peer = a.peer
  cookie : b.cookie = a.cookie
  shutdownPending : b.shutdownPending = a.shutdownPending
  pledge : b.pledge = a.pledge
  uttered : ¬a.Ended → ∀ packet, a.link.Uttered packet → b.link.Uttered packet

/-- What can become of an association that is neither opened nor closed. -/
structure Abides (a b : Association) : Prop where
  config : b.config = a.config
  stage : b.state = .failed ∨ a.SameStage b

variable {a b c : Association}

theorem pledge_iff {kind : ControlKind} (lasting : kind ≠ .reset) :
    a.pledge = some kind ↔ a.controlKind = some kind := by
  simp [Association.pledge, Option.filter_eq_some_iff, lasting]

theorem SameStage.refl (a : Association) : a.SameStage a :=
  ⟨rfl, rfl, rfl, rfl, rfl, fun _ _ => id⟩

theorem SameStage.trans (first : a.SameStage b) (second : b.SameStage c) : a.SameStage c where
  state := second.state.trans first.state
  peer := second.peer.trans first.peer
  cookie := second.cookie.trans first.cookie
  shutdownPending := second.shutdownPending.trans first.shutdownPending
  pledge := second.pledge.trans first.pledge
  uttered lasting packet uttered := by
    refine second.uttered ?_ packet (first.uttered lasting packet uttered)
    unfold Ended
    rw [first.state]
    exact lasting

theorem Abides.refl (a : Association) : a.Abides a := ⟨rfl, .inr (.refl a)⟩

theorem Abides.trans (first : a.Abides b) (second : b.Abides c) : a.Abides c := by
  refine ⟨second.config.trans first.config, ?_⟩
  rcases second.stage with failed | same
  · exact .inl failed
  · rcases first.stage with failed | earlier
    · exact .inl (same.state.trans failed)
    · exact .inr (earlier.trans same)

theorem abides_aside (config : b.config = a.config) (state : b.state = a.state)
    (peer : b.peer = a.peer) (cookie : b.cookie = a.cookie)
    (shutdownPending : b.shutdownPending = a.shutdownPending) (link : b.link = a.link) :
    a.Abides b := by
  refine ⟨config, .inr ⟨state, peer, cookie, shutdownPending, ?_, ?_⟩⟩
  · simp only [pledge, controlKind, link]
  · rw [link]
    exact fun _ _ => id

theorem abides_failed (a : Association) : a.Abides a.failed := by
  unfold failed
  split
  · exact .refl a
  · exact ⟨rfl, .inl rfl⟩

theorem sameStage_transmit (a : Association) (packet : Packet) :
    a.SameStage (a.transmit packet) := by
  refine ⟨rfl, rfl, rfl, rfl, rfl, fun _ other uttered => ?_⟩
  rcases uttered with sent | retained
  · exact .inl (List.mem_append_left [packet] sent)
  · exact .inr retained

theorem sameStage_retain (packet : Packet) (free : a.link.pendingEmit = none) :
    a.SameStage (a.retain packet) := by
  refine ⟨rfl, rfl, rfl, rfl, rfl, fun _ other uttered => ?_⟩
  rcases uttered with sent | retained
  · exact .inl sent
  · rw [free] at retained
    cases retained

theorem abides_transmit (a : Association) (packet : Packet) : a.Abides (a.transmit packet) :=
  ⟨rfl, .inr (sameStage_transmit a packet)⟩

theorem abides_retain (packet : Packet) (free : a.link.pendingEmit = none) :
    a.Abides (a.retain packet) := ⟨rfl, .inr (sameStage_retain packet free)⟩

end Association

open Association

variable {heard : Chunk → Prop} {a b : Association} {α : Type} {body : Op α}

theorem failed_path (b : Association) : ReflTransGen (Step heard) b b.failed := by
  unfold Association.failed
  split
  · exact .refl
  · exact .tail (.single (.link .cleared)) (.phase .fail)

/-- Steps lead from one association to another, and it is neither opened nor closed on the way. -/
structure Lingers (heard : Chunk → Prop) (a b : Association) : Prop where
  path : ReflTransGen (Step heard) a b
  abides : a.Abides b

namespace Lingers

theorem refl (a : Association) : Lingers heard a a := ⟨.refl, .refl a⟩

theorem of_path (path : ReflTransGen (Lingers heard) a b) : Lingers heard a b :=
  ⟨reflTransGen_closed (fun _ _ lingers => lingers.path) a b path,
    holds_along (fun _ _ abides lingers => abides.trans lingers.abides) path (.refl a)⟩

theorem sender {sender : Sender} (stepped : SenderStep heard a sender) :
    Lingers heard a { a with sender } :=
  ⟨.single (.sender stepped), abides_aside rfl rfl rfl rfl rfl rfl⟩

theorem receiver {receiver : Receiver} (stepped : ReceiverStep heard a receiver) :
    Lingers heard a { a with receiver } :=
  ⟨.single (.receiver stepped), abides_aside rfl rfl rfl rfl rfl rfl⟩

theorem idle (lastNowMs : Option Nat) (heartbeatDeadlineMs : Nat) (known : List Nat) :
    Lingers heard a { a with lastNowMs, heartbeatDeadlineMs, known } :=
  ⟨.single (.phase (.idle _ _ _)), abides_aside rfl rfl rfl rfl rfl rfl⟩

theorem failed (a : Association) : Lingers heard a a.failed := ⟨failed_path a, abides_failed a⟩

theorem sent {packet : Packet} (spoken : Spoken heard a packet) :
    Lingers heard a (a.transmit packet) :=
  ⟨.single (.link (.sent spoken)), abides_transmit a packet⟩

theorem retained {packet : Packet} (spoken : Spoken heard a packet)
    (free : a.link.pendingEmit = none) : Lingers heard a (a.retain packet) :=
  ⟨.single (.link (.retained spoken free)), abides_retain packet free⟩

end Lingers

/-- Started in `a`, the routine moves by steps of an association that hears some chunks, and ends as
required. -/
abbrev Walks (heard : Chunk → Prop) {α : Type} (body : Op α) (onReturn : α → Association → Prop)
    (onFail : Int → Association → Prop) (a : Association) : Prop :=
  Moves Turn.Any (Step heard) body onReturn onFail a

/-- The same of a routine that neither opens nor closes the association. -/
abbrev Dwells (heard : Chunk → Prop) {α : Type} (body : Op α) (onReturn : α → Association → Prop)
    (onFail : Int → Association → Prop) (a : Association) : Prop :=
  Moves Turn.Any (Lingers heard) body onReturn onFail a

/-- The same of a routine that may end in any way. -/
abbrev RestsAt (heard : Chunk → Prop) {α : Type} (body : Op α) (a : Association) : Prop :=
  Dwells heard body (fun _ _ => True) (fun _ _ => True) a

/-- The routine moves by steps from wherever it is started. -/
abbrev Roams (heard : Chunk → Prop) {α : Type} (body : Op α) : Prop :=
  Wanders Turn.Any (Step heard) body

/-- The routine moves by steps and neither opens nor closes the association. -/
abbrev Rests (heard : Chunk → Prop) {α : Type} (body : Op α) : Prop :=
  Wanders Turn.Any (Lingers heard) body

theorem always_of_dwells (dwells : RestsAt heard body a) :
    Always Turn.Any body (Lingers heard a) a :=
  Ensures.mono dwells (fun _ _ both => .of_path both.1) (fun _ _ both => .of_path both.1)
    fun _ => .of_path

end Gizos.Sctp
