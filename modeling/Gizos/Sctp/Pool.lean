import Gizos.Sctp.State

/-! # The pool of packet buffers

Packets are built in the buffers of a small pool. A buffer goes from the builder to the transport,
and on to the retained slot when the transport refuses it for now. The functions below are all that
touch the pool: an operation of an association is some sequence of their calls, each with any result
of memory, of the builder and of the transport.
-/
namespace Gizos.Sctp

open Pal

/-- The buffers of an association, one bit for each used one, and the retained one. A buffer is
given by where it starts in the pool. -/
structure Pool where
  packetSize : Nat
  size : Nat
  used : BitVec 32
  pendingEmit : Option Nat
  /-- A packet is not empty. -/
  sized : 0 < packetSize
  /-- There are between one and 32 buffers. -/
  filled : 0 < size ∧ size ≤ 32

/-- A call that works on the pool, with the results of what it calls. -/
inductive Pool.Call where
  /-- `h2_sctp_emit_chunks`: the result of building the packet, whether there is memory for a copy
  if the packet is a control packet, and the result of the transport. -/
  | emitChunks (built : Int) (control : Option Bool) (code : Int)
  /-- `h2_sctp_reliability_emit_fragment`, of a fragment that fits a packet or does not. -/
  | emitFragment (fits : Bool) (code : Int)
  /-- `h2_sctp_retry_pending_emit`. -/
  | retryPendingEmit (code : Int)

namespace Pool

/-- `h2_sctp_packet_pool_create`, with the pool size that `h2_sctp_create` takes for a configured
one. -/
def create (packetSize configured : Nat) : Option Pool :=
  let size := if configured = 0 then 2 else if configured > 32 then 32 else configured
  if sized : packetSize = 0 ∨ packetSize > (2 ^ 64 - 1) / size then none
  else some { packetSize, size, used := 0, pendingEmit := none, sized := by omega,
              filled := by unfold size; split_ifs <;> omega }

/-- `h2_sctp_packet_acquire`. -/
def acquire (pool : Pool) : Option (Nat × Pool) :=
  ((List.range pool.size).find? fun index => pool.used &&& 1#32 <<< index = 0).map fun index =>
    (index * pool.packetSize, { pool with used := pool.used ||| 1#32 <<< index })

/-- `h2_sctp_packet_release`. -/
def release (pool : Pool) (packet : Nat) : Pool :=
  let index := packet / pool.packetSize
  if index ≥ pool.size ∨ packet ≠ index * pool.packetSize then pool
  else { pool with used := pool.used &&& ~~~(1#32 <<< index) }

/-- `h2_sctp_emit_packet`. -/
def emitPacket (pool : Pool) (packet : Nat) (control : Option Bool) (code : Int) : Int × Pool :=
  if pool.pendingEmit.isSome then (errWouldBlock, pool.release packet)
  else if control = some false then (errNoMemory, pool.release packet)
  else if code = errWouldBlock then (code, { pool with pendingEmit := some packet })
  else (code, pool.release packet)

/-- The pool after a call, and the result of the call. -/
def call (pool : Pool) : Call → Int × Pool
  | .emitChunks built control code =>
    if pool.pendingEmit.isSome then (errWouldBlock, pool)
    else
      match pool.acquire with
      | none => (errNoMemory, pool)
      | some (packet, pool) =>
        if built ≠ ok then (built, pool.release packet) else pool.emitPacket packet control code
  | .emitFragment fits code =>
    if fits = false then (errInvalidState, pool)
    else if pool.pendingEmit.isSome then (errWouldBlock, pool)
    else
      match pool.acquire with
      | none => (errWouldBlock, pool)
      | some (packet, pool) => pool.emitPacket packet none code
  | .retryPendingEmit code =>
    match pool.pendingEmit with
    | none => (ok, pool)
    | some packet =>
      if code = errWouldBlock then (code, pool)
      else (code, { pool.release packet with pendingEmit := none })

/-- The pool after some calls. -/
def run (pool : Pool) (calls : List Call) : Pool :=
  calls.foldl (fun pool call => (pool.call call).2) pool

/-- The first buffer is used and nothing else. -/
def Taken (pool : Pool) (pending : Option Nat) : Prop :=
  pool.used = 1 ∧ pool.pendingEmit = pending

/-- No buffer is used, or the first one, which is retained. -/
def Owned (pool : Pool) : Prop :=
  pool.used = 0 ∧ pool.pendingEmit = none ∨ pool.Taken (some 0)

variable {pool : Pool}

/-- A buffer is taken only while none is used, so it is the first one. -/
theorem acquire_idle (idle : pool.used = 0) (free : pool.pendingEmit = none) :
    ∃ taken : Pool, pool.acquire = some (0, taken) ∧ taken.Taken none := by
  refine ⟨{ pool with used := 1 }, ?_, rfl, free⟩
  obtain ⟨size, same⟩ := Nat.exists_eq_succ_of_ne_zero (Nat.ne_of_gt pool.filled.1)
  simp [acquire, same, List.range_succ_eq_map, idle]

namespace Taken

theorem release {pending : Option Nat} (taken : pool.Taken pending) :
    (pool.release 0).used = 0 ∧ (pool.release 0).pendingEmit = pending := by
  have filled := pool.filled.1
  simp [Pool.release, Nat.ne_of_gt filled, taken.1, taken.2]

theorem emitPacket (taken : pool.Taken none) (control : Option Bool) (code : Int) :
    (pool.emitPacket 0 control code).2.Owned := by
  unfold Pool.emitPacket
  rw [taken.2]
  split_ifs
  · exact .inl taken.release
  · exact .inl taken.release
  · exact .inr ⟨taken.1, rfl⟩
  · exact .inl taken.release

end Taken

theorem Owned.call (owned : pool.Owned) (call : Call) : (pool.call call).2.Owned := by
  rcases owned with ⟨idle, free⟩ | taken
  · obtain ⟨taken, acquired, first⟩ := acquire_idle idle free
    cases call with
    | emitChunks built control code =>
      simp only [Pool.call, free, acquired, Option.isSome_none, Bool.false_eq_true, if_false]
      split_ifs
      · exact .inl first.release
      · exact first.emitPacket control code
    | emitFragment fits code =>
      simp only [Pool.call, free, acquired, Option.isSome_none, Bool.false_eq_true, if_false]
      split_ifs
      · exact .inl ⟨idle, free⟩
      · exact first.emitPacket none code
    | retryPendingEmit code =>
      simp only [Pool.call, free]
      exact .inl ⟨idle, free⟩
  · cases call with
    | emitChunks built control code =>
      simp only [Pool.call, taken.2, Option.isSome_some]
      exact .inr taken
    | emitFragment fits code =>
      simp only [Pool.call, taken.2, Option.isSome_some]
      split_ifs <;> exact .inr taken
    | retryPendingEmit code =>
      simp only [Pool.call, taken.2]
      split_ifs
      · exact .inr taken
      · exact .inl ⟨taken.release.1, rfl⟩

/-- Between any calls, the used buffers are the one that is retained. -/
theorem used_iff_retained (packetSize configured : Nat)
    (created : create packetSize configured = some pool) (calls : List Call) :
    let after := pool.run calls
    (∀ index, after.used.getLsbD index = true ↔
        after.pendingEmit = some (index * after.packetSize)) ∧
      ∀ packet, after.pendingEmit = some packet →
        ∃ index < after.size, packet = index * after.packetSize := by
  have start : pool.Owned := by
    unfold create at created
    grind [Owned]
  have owned : (pool.run calls).Owned :=
    List.foldlRecOn calls _ start fun _ owned call _ => owned.call call
  have sized := (pool.run calls).sized
  rcases owned with ⟨used, free⟩ | ⟨used, retained⟩
  · simp [used, free]
  · refine ⟨fun index => ?_, fun packet same => ⟨0, (pool.run calls).filled.1, ?_⟩⟩
    · rw [used, retained]
      cases index with
      | zero => simp
      | succ index => simp [Nat.ne_of_gt sized]
    · rw [retained] at same
      simpa using same.symm

theorem used_iff_retained_first : ∃ pool, create 1200 0 = some pool ∧
    (pool.run [.emitFragment true errWouldBlock]).pendingEmit = some 0 ∧
    (pool.run [.emitFragment true errWouldBlock]).used.getLsbD 0 = true :=
  ⟨_, rfl, rfl, ((used_iff_retained 1200 0 rfl [.emitFragment true errWouldBlock]).1 0).2 rfl⟩

end Pool

end Gizos.Sctp
