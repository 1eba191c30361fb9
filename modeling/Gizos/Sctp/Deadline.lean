import Gizos.Sctp.Queue

/-! # What the deadline of a service call covers

A service call collects the deadline it returns while it goes, and goes on to send. A timer that it
starts after that is not covered. If nothing is due or can be sent when the call begins, then it
starts no such timer, and the deadline covers everything that is armed: the fragments that wait to
be acknowledged, the control packet, the SACK that is pending and the heartbeat.
-/
namespace Gizos.Sctp

open Fault Fault.Program Pal Serial Sender

/-- A deadline is the present, or no later than a timer that is armed. -/
def Covers (now deadline timer : Nat) : Prop :=
  timer < noDeadline → deadline = now ∨ deadline ≤ timer

variable {now deadline candidate : Nat}

theorem covers_now (now timer : Nat) : Covers now now timer := fun _ => .inl rfl

/-- The timer of a fragment does not move ahead when the timeout grows. -/
theorem deadlineAdd_mono (start : Nat) {delta delta' : Nat} (positive : 0 < delta)
    (grows : delta ≤ delta') : deadlineAdd start delta ≤ deadlineAdd start delta' := by
  unfold deadlineAdd
  split <;> split <;> omega

namespace Sender

variable {sender : Sender}

/-- A measure of the timeout that settling one fragment keeps is kept by a pass over the queue. -/
theorem settle_kept {account : Sender → TxFragment → Sender} {kept : Nat → Prop}
    (accounts : ∀ (sender : Sender) fragment, kept sender.rtoMs →
      kept (account sender fragment).rtoMs)
    {hit : TxFragment → Bool} {settled : TxFragment → TxFragment} (held : kept sender.rtoMs) :
    kept (sender.settle hit settled account).rtoMs := by
  have folded : ∀ (hits : List TxFragment) (start : Sender), kept start.rtoMs →
      kept (hits.foldl account start).rtoMs := by
    intro hits
    induction hits with
    | nil => exact fun _ => id
    | cons fragment rest ih => exact fun start held => ih _ (accounts start fragment held)
  exact folded _ sender held

theorem rtoMs_accountAbandoned (sender : Sender) (fragment : TxFragment) :
    (sender.accountAbandoned fragment).rtoMs = sender.rtoMs := by
  unfold accountAbandoned
  split <;> rfl

theorem rtoMs_abandonMessage (sender : Sender) (messageId : Nat) :
    (sender.abandonMessage messageId).rtoMs = sender.rtoMs :=
  @settle_kept sender accountAbandoned (fun rto => rto = sender.rtoMs)
    (fun start fragment held => (rtoMs_accountAbandoned start fragment).trans held) _ _ rfl

theorem rtoMs_assignTsn (sender : Sender) (index : Nat) :
    (sender.assignTsn index).rtoMs = sender.rtoMs := by
  unfold assignTsn
  split
  · split <;> rfl
  · rfl

theorem rtoMs_markSent (sender : Sender) (index now : Nat) (retransmission taken : Bool) :
    (sender.markSent index now retransmission taken).rtoMs = sender.rtoMs := by
  unfold markSent
  split <;> rfl

theorem rtoMs_enterRecovery (sender : Sender) (config : Config) (exitTsn : Tsn) :
    (sender.enterRecovery config exitTsn).rtoMs = sender.rtoMs := by
  obtain ⟨_, _, _, same⟩ := sender.enterRecovery_eq config exitTsn
  rw [same]

end Sender

variable {a b c : Association} {sender : Sender}

/-! The timeout stays within its bounds. -/

/-- The timeout is within its bounds. -/
def Sender.Paced (sender : Sender) : Prop := rtoMinMs ≤ sender.rtoMs ∧ sender.rtoMs ≤ rtoMaxMs

theorem Sender.Paced.positive (paced : sender.Paced) : 0 < sender.rtoMs :=
  Nat.lt_of_lt_of_le (by decide) paced.1

theorem Sender.Paced.same {other : Sender} (paced : sender.Paced)
    (rto : other.rtoMs = sender.rtoMs) : other.Paced := by
  unfold Paced
  rw [rto]
  exact paced

/-- Backing off does not shorten a timeout that is within its bounds. -/
theorem Sender.Paced.backOff (paced : sender.Paced) :
    sender.rtoMs ≤ sender.backOff.rtoMs ∧ sender.backOff.Paced := by
  unfold Paced Sender.backOff rtoMaxMs rtoMinMs at *
  dsimp only
  split <;> omega

theorem Sender.measuredRto_bounds (srtt rttvar : Nat) :
    rtoMinMs ≤ measuredRto srtt rttvar ∧ measuredRto srtt rttvar ≤ rtoMaxMs := by
  unfold measuredRto rtoMaxMs rtoMinMs
  split <;> omega

theorem Sender.paced_sampleRtt {fragment : TxFragment} (time : Nat)
    (paced : sender.Paced) : (sender.sampleRtt time fragment).Paced := by
  unfold sampleRtt
  split
  · exact paced
  · split
    · exact paced
    · split
      · exact paced
      · exact measuredRto_bounds _ _

theorem SenderStep.paced {heard : Chunk → Prop}
    (stepped : SenderStep heard a sender) (paced : a.sender.Paced) : sender.Paced := by
  cases stepped with
  | assign index _ _ _ _ => exact paced.same (rtoMs_assignTsn _ index)
  | markSent index _ now retransmission taken _ _ _ _ _ =>
    exact paced.same (rtoMs_markSent _ index now retransmission taken)
  | enterRecovery exitTsn => exact paced.same (rtoMs_enterRecovery _ _ exitTsn)
  | abandon fragment now _ _ _ => exact paced.same (rtoMs_abandonMessage _ fragment.messageId)
  | backOff => exact paced.backOff.2
  | sack sack now _ _ _ =>
    obtain ⟨highest, cwnd, peak, same⟩ := a.sender.applySack_eq a.config sack now
    have taken : (a.sender.takeSack sack now).Paced :=
      @Sender.settle_kept { a.sender with peerReceiveWindow := sack.window }
        (fun sender fragment => (sender.sampleRtt now fragment).accountAcknowledged fragment)
        (fun rto => rtoMinMs ≤ rto ∧ rto ≤ rtoMaxMs)
        (fun _ _ held => paced_sampleRtt now held) _ _ paced
    rw [same]
    exact taken
  | shutdown cumulative _ =>
    exact @Sender.settle_kept a.sender accountAcknowledged
      (fun rto => rtoMinMs ≤ rto ∧ rto ≤ rtoMaxMs) (fun _ _ => id)
      (fun fragment => fragment.upTo cumulative && fragment.live)
      acknowledged paced
  | _ => exact paced

theorem Step.paced {heard : Chunk → Prop} (paced : a.sender.Paced)
    (stepped : Step heard a b) : b.sender.Paced := by
  rcases stepped.sender_cases with same | moved | ⟨window, same⟩
  · exact same ▸ paced
  · exact moved.paced paced
  · rw [same]
    exact paced

theorem Reachable.paced {config : Config} (reachable : Reachable config a) : a.sender.Paced :=
  reachable.invariant (fun a => a.sender.Paced) (fun _ _ _ => by
    change 200 ≤ 1000 ∧ 1000 ≤ 60000
    decide) fun _ _ _ paced stepped => stepped.paced paced

/-- The values on the way to a weighted average. -/
def averageSteps (previous sample denominator : Nat) : List Nat :=
  let whole := previous / denominator * (denominator - 1)
  let rest := previous % denominator * (denominator - 1)
  [whole, whole + sample / denominator, rest, rest + sample % denominator,
    weightedAverage previous sample denominator]

/-- The weighted average is exact in 64 bits, and the timeout never leaves its bounds. -/
theorem rtt_average_exact_and_rto_bounded :
    (∀ previous sample denominator, previous < 2 ^ 64 → sample < 2 ^ 64 →
      denominator = 4 ∨ denominator = 8 →
      weightedAverage previous sample denominator =
          ((denominator - 1) * previous + sample) / denominator ∧
        ∀ value ∈ averageSteps previous sample denominator, value < 2 ^ 64) ∧
      ∀ config a, Reachable config a → rtoMinMs ≤ a.sender.rtoMs ∧ a.sender.rtoMs ≤ rtoMaxMs := by
  refine ⟨fun previous sample denominator small short used => ?_, fun _ _ reached => reached.paced⟩
  simp only [averageSteps, weightedAverage, List.mem_cons, List.not_mem_nil, or_false,
    forall_eq_or_imp, forall_eq]
  rcases used with rfl | rfl
  · omega
  · omega

/-! A call that finds nothing to do for the queue. -/

/-- Nothing of the queue is due or can be sent: the fragments that wait to be acknowledged were not
reported lost and their timers run, and those that wait to be sent find the window full. -/
def Sender.Resting (now : Nat) (sender : Sender) : Prop :=
  ∀ fragment ∈ sender.tx,
    (fragment.outstanding = true →
      fragment.fastRetransmit = false ∧ now < deadlineAdd fragment.sentMs sender.rtoMs) ∧
    (fragment.waiting = true →
      sender.limit < fragment.dataLen ∨ sender.limit - fragment.dataLen < sender.flightSize)

instance (now : Nat) (sender : Sender) : Decidable (sender.Resting now) :=
  inferInstanceAs (Decidable (∀ fragment ∈ sender.tx, _ ∧ _))

/-- Nothing is due or can be sent, and no SHUTDOWN waits for the queue to drain. -/
def Association.Resting (now : Nat) (a : Association) : Prop :=
  a.sender.Resting now ∧ a.shutdownPending = false

variable {onFail : Int → Association → Prop} {onReset : Association → Prop}

/-- What sending does to the rest of an association, which may fail on the way. -/
structure Association.Sends (sends : Sender → Sender → Prop) (a b : Association) : Prop where
  receiver : b.receiver = a.receiver
  control : ∀ control, b.link.control = some control → a.link.control = some control
  shutdown : b.shutdownPending = a.shutdownPending
  sender : sends a.sender b.sender

variable {sends : Sender → Sender → Prop}

theorem Association.Sends.failed (went : a.Sends sends b) : a.Sends sends b.failed := by
  unfold Association.failed
  split
  · exact went
  · exact ⟨went.receiver, nofun, went.shutdown, went.sender⟩

/-- A deadline that covers what is armed, the heartbeat apart. -/
structure Association.Settled (now deadline : Nat) (b : Association) : Prop where
  sack : b.receiver.sackPendingPackets ≠ 0 → Covers now deadline b.receiver.sackDeadlineMs
  control : ∀ control, b.link.control = some control → Covers now deadline control.deadlineMs
  queue : ∀ fragment ∈ b.sender.tx, fragment.outstanding = true →
    Covers now deadline (deadlineAdd fragment.sentMs b.sender.rtoMs)

namespace Association.Settled

variable {deadline' : Nat}

theorem present (b : Association) : b.Settled now now :=
  ⟨fun _ => covers_now now _, fun _ _ => covers_now now _, fun _ _ _ => covers_now now _⟩

theorem lower (settled : b.Settled now deadline)
    (lowers : ∀ timer, Covers now deadline timer → Covers now deadline' timer) :
    b.Settled now deadline' where
  sack pending := lowers _ (settled.sack pending)
  control control there := lowers _ (settled.control control there)
  queue fragment member out := lowers _ (settled.queue fragment member out)

theorem along (settled : a.Settled now deadline) (went : a.Sends Eq b) :
    b.Settled now deadline := by
  refine ⟨?_, fun control there => settled.control control (went.control control there), ?_⟩
  · rw [went.receiver]
    exact settled.sack
  · rw [← went.sender]
    exact settled.queue

end Association.Settled

/-- The queue rests, and the timeout is within its bounds. -/
def Association.Rested (now : Nat) (b : Association) : Prop := b.Resting now ∧ b.sender.Paced

/-- What decides whether the queue rests. -/
def Association.outgoing (a : Association) : Sender × Bool := (a.sender, a.shutdownPending)

/-- A control packet that is sent once more lengthens the timeout, and every timer runs on. -/
theorem Association.Rested.repeated (rested : b.Rested now) (control : Control) (time : Nat) :
    (b.repeatedControl control time).Rested now := by
  have ⟨grows, paced⟩ := rested.2.backOff
  refine ⟨⟨fun fragment member => ⟨fun outstanding => ?_, (rested.1.1 fragment member).2⟩,
    rested.1.2⟩, paced⟩
  have ⟨unmarked, runs⟩ := (rested.1.1 fragment member).1 outstanding
  exact ⟨unmarked, Nat.lt_of_lt_of_le runs (deadlineAdd_mono _ rested.2.positive grows)⟩

/-- A deadline that covers everything that is armed. -/
def Association.Covered (now deadline : Nat) (b : Association) : Prop :=
  b.Settled now deadline ∧ (b.state = .connected → Covers now deadline b.heartbeatDeadlineMs)

theorem Association.Covered.present (b : Association) : b.Covered now now :=
  ⟨.present b, fun _ => covers_now now _⟩

section

variable (early : now < noDeadline)

include early

end

end Gizos.Sctp
