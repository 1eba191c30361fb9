import Gizos.Sctp.Walk

/-! # How an association is opened and closed

The stage of an association changes by strides: it is started, it learns about the peer, echoes a
cookie or answers one, and is shut down from either side. What is handed to the transport on the way
is part of them.
-/
namespace Gizos.Sctp

open Fault Fault.Program Pal Serial Relation Association

/-- What opening and closing depend on. -/
structure Stage where
  config : Config
  state : State
  peer : Peer
  cookie : Option Cookie
  shutdownPending : Bool
  pledge : Option ControlKind

namespace Association

def stage (a : Association) : Stage where
  config := a.config
  state := a.state
  peer := a.peer
  cookie := a.cookie
  shutdownPending := a.shutdownPending
  pledge := a.pledge

/-- A chunk was handed to the transport. -/
def HasUttered (a : Association) (chunk : Chunk) : Prop :=
  ∃ packet, a.link.Uttered packet ∧ chunk ∈ packet.chunks

/-- Unless it is over, what was handed to the transport does not get lost. -/
def Retains (a b : Association) : Prop :=
  ¬a.Ended → ∀ packet, a.link.Uttered packet → b.link.Uttered packet

end Association

/-- One stride of an association that hears some chunks. -/
inductive Stride (heard : Chunk → Prop) (a : Association) : Association → Prop where
  | abides {b : Association} : a.Abides b → Stride heard a b
  | started {b : Association} (pledge : Option ControlKind) : a.state = .new →
      pledge = a.pledge ∨ pledge = some .init →
      b.stage = { a.stage with state := .connecting, pledge } → Stride heard a b
  /-- The peer introduces itself. -/
  | greeted {b : Association} (values : InitValues) (cookie : Option Cookie) :
      a.state = .connecting → values.valid = true →
      b.stage = { a.stage with peer := peerOf a.config values, cookie } → a.Retains b →
      Stride heard a b
  /-- The cookie of the peer is echoed. -/
  | echoed {b : Association} (values : InitValues) (cookie : Bytes) :
      a.config.role = .active → a.state = .connecting → values.valid = true →
      b.stage = { a.stage with
        peer := peerOf a.config values, pledge := some .cookieEcho } →
      b.HasUttered (.cookieEcho cookie) → Stride heard a b
  /-- The peer acknowledges the echo of its cookie. -/
  | acknowledged {b : Association} : a.config.role = .active → a.state = .connecting →
      heard .cookieAck → b.stage = { a.stage with state := .connected, pledge := none } →
      a.Retains b → Stride heard a b
  /-- The peer has echoed the cookie, and is answered unless something else is retained. -/
  | answered {b : Association} (cookie : Cookie) (pledge : Option ControlKind) :
      a.state = .connecting → a.cookie = some cookie → heard (.cookieEcho cookie.bytes) →
      pledge = none ∨ pledge = a.pledge →
      b.stage = { a.stage with state := .connected, pledge } →
      (a.link.pendingEmit = none → b.HasUttered .cookieAck) → Stride heard a b
  /-- A packet that opens the association is not needed any more. -/
  | retired {b : Association} : a.state = .connected →
      a.pledge = some .init ∨ a.pledge = some .cookieEcho →
      b.stage = { a.stage with pledge := none } → a.Retains b → Stride heard a b
  /-- The association is shut down from this side. -/
  | shutDown {b : Association} (shutdownPending : Bool) (pledge : Option ControlKind) :
      a.state = .connected →
      b.stage = { a.stage with state := .shuttingDown, shutdownPending, pledge } →
      Stride heard a b
  /-- A shutdown that waited for the queue to drain is sent. -/
  | resumed {b : Association} : a.shutdownPending = true →
      b.stage = { a.stage with shutdownPending := false, pledge := some .shutdown } →
      a.Retains b → Stride heard a b
  /-- The association is shut down from the other side. -/
  | peerShutDown {b : Association} (cumulative : Tsn) : heard (.shutdown cumulative) →
      b.stage = { a.stage with state := .shuttingDown } → Stride heard a b
  | closed {b : Association} : a.state = .shuttingDown → b.state = .closed →
      b.config = a.config → Stride heard a b
  /-- What is over stays over, whatever is done to it. -/
  | past {b : Association} : a.Ended → b.Ended → b.config = a.config → Stride heard a b

variable {heard : Chunk → Prop} {a b : Association}

theorem Association.SameStage.stage_eq (same : a.SameStage b) (config : b.config = a.config) :
    b.stage = a.stage := by
  simp only [stage, config, same.state, same.peer, same.cookie, same.shutdownPending, same.pledge]

theorem Stride.introduced {values : InitValues} {cookie : Option Cookie}
    (connecting : a.state = .connecting) (valid : values.valid = true)
    (abides : Abides { a.applyPeerInit values with cookie } b) : Stride heard a b := by
  rcases abides.stage with failed | same
  · exact .abides ⟨abides.config, .inl failed⟩
  · exact .greeted values cookie connecting valid (same.stage_eq abides.config) same.uttered

theorem hasUttered_transmit (a : Association) (tag : BitVec 32) (chunk : Chunk)
    (b : Association) : (b.transmit (a.packetOf tag chunk)).HasUttered chunk :=
  ⟨_, .inl (List.mem_append_right _ List.mem_cons_self), List.mem_cons_self⟩

theorem hasUttered_retain (a : Association) (tag : BitVec 32) (chunk : Chunk) (b : Association) :
    (b.retain (a.packetOf tag chunk)).HasUttered chunk :=
  ⟨_, .inr rfl, List.mem_cons_self⟩

/-- An association that fails is over, in the state that it was in if it was over before. -/
theorem failed_cases (a : Association) :
    a.failed.config = a.config ∧ (a.failed.state = .failed ∨ a.Ended ∧ a.failed = a) := by
  unfold Association.failed
  split
  · rename_i ended
    exact ⟨rfl, .inr ⟨ended.symm, rfl⟩⟩
  · exact ⟨rfl, .inl rfl⟩

/-- A packet that the transport does not take for good leaves an association that is over. -/
theorem broken_cases (a : Association) (packet : Packet) (kind : Option ControlKind) (now : Nat) :
    (a.keepControl packet kind now).failed.config = a.config ∧
      ((a.keepControl packet kind now).failed.state = .failed ∨
        a.Ended ∧ (a.keepControl packet kind now).failed.state = a.state) := by
  have same : (a.keepControl packet kind now).config = a.config ∧
      (a.keepControl packet kind now).state = a.state := by
    cases kind <;> exact ⟨rfl, rfl⟩
  obtain ⟨config, failed | ⟨ended, unchanged⟩⟩ := failed_cases (a.keepControl packet kind now)
  · exact ⟨config.trans same.1, .inl failed⟩
  · unfold Ended at ended ⊢
    rw [unchanged]
    rw [same.2] at ended
    exact ⟨same.1, .inr ⟨ended, same.2⟩⟩

theorem Stride.broken (config : b.config = a.config)
    (state : b.state = .failed ∨ a.Ended ∧ b.state = a.state) : Stride heard a b := by
  rcases state with failed | ⟨ended, same⟩
  · exact .abides ⟨config, .inl failed⟩
  · refine .past ended ?_ config
    unfold Ended at ended ⊢
    rw [same]
    exact ended

theorem Stride.config_eq (stride : Stride heard a b) : b.config = a.config := by
  cases stride with
  | abides abides => exact abides.config
  | started _ _ _ stage | greeted _ _ _ _ stage _ | echoed _ _ _ _ _ stage _
  | acknowledged _ _ _ stage _ | answered _ _ _ _ _ _ stage _ | retired _ _ stage _
  | shutDown _ _ _ stage | resumed _ stage _ | peerShutDown _ _ stage =>
    exact congrArg Stage.config stage
  | closed _ _ config | past _ _ config => exact config

/-- Steps lead from one association to another, in one stride. -/
structure March (heard : Chunk → Prop) (a b : Association) : Prop where
  path : ReflTransGen (Step heard) a b
  stride : Stride heard a b

theorem Lingers.march (lingers : Lingers heard a b) : March heard a b :=
  ⟨lingers.path, .abides lingers.abides⟩

theorem March.refl (a : Association) : March heard a a := (Lingers.refl a).march

theorem March.failed (a : Association) : March heard a a.failed := (Lingers.failed a).march

/-- The routine moves by strides from wherever it is started. -/
abbrev Marches (heard : Chunk → Prop) {α : Type} (body : Op α) : Prop :=
  Wanders Turn.Any (March heard) body

variable {α : Type} {body : Op α}

theorem marches_of_rests (rests : Rests heard body) : Marches heard body := fun a =>
  (rests a).along fun _ _ lingers => .single lingers.march

theorem marches_of_always (ensured : ∀ a, Always Turn.Any body (March heard a) a) :
    Marches heard body := fun a =>
  (ensured a).mono (fun _ _ march => ⟨.single march, trivial⟩)
    (fun _ _ march => ⟨.single march, trivial⟩) fun _ march => .single march

theorem roams_of_marches (marches : Marches heard body) : Roams heard body := fun a =>
  (marches a).along fun _ _ march => march.path

/-- Strides lead from one association to the other. -/
def Treads (heard : Chunk → Prop) (a b : Association) : Prop := ReflTransGen (Stride heard) a b

/-- Where a routine leads, strides lead. -/
theorem Treads.of_reaches (marches : Marches heard body) (reaches : Reaches Turn.Any body a b) :
    Treads heard a b :=
  ReflTransGen.mono (fun _ _ march => march.stride) _ _ (Moves.reached (marches a) reaches)

end Gizos.Sctp
