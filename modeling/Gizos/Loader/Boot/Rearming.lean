import Gizos.Loader.Boot.Records

/-! # What a failed reboot leaves

A reboot that fails puts back the next partition it read from the platform and the boot intent it
has in memory. The stored intent is what it was before the call only where those two agree.
-/
namespace Gizos.Loader

open Fault Pal Gizos.Bundle

variable {intent : Nat} {onReturn : Unit → Machine → Nat → Prop}

/-- Nothing of what arms a boot has changed. -/
structure Machine.SameArming (before after : Machine) : Prop where
  intent : after.pref.bootIntent = before.pref.bootIntent
  next : after.next = before.next
  status : after.status = before.status

namespace BootConfig

variable (config : BootConfig)

/-- The call of `set_next_and_reboot` that commits the intent. Before it the next partition is
read, the caller is asked to prepare, and the namespace is opened and written. -/
def commitCall (time : Nat) : Nat := if config.beforeDisruptive then time + 4 else time + 3

/-- The platform lets a failing call be undone: a commit of the intent that fails has changed
nothing, and what is called after the next partition was asked for and something failed works. -/
structure Undoes (answers : Nat → Answer) (time : Nat) : Prop where
  /-- A commit that fails has changed nothing. -/
  atomic : (answers (config.commitCall time)).code ≠ 0 →
    (answers (config.commitCall time)).applied = false
  /-- The calls that restore work. -/
  restores : ∀ index later, config.commitCall time + 2 ≤ index → index < later →
    (answers index).code ≠ 0 → (answers later).Works

/-- A call up to some call fails. -/
def FailsBy (answers : Nat → Answer) (time last : Nat) : Prop :=
  ∃ index, time ≤ index ∧ index ≤ last ∧ (answers index).code ≠ 0

/-- What has to hold for a failed call to have undone everything: it failed before the intent was
stored, or the intent it leaves is the one that was stored; and it failed before the next
partition was asked for, or a request that failed had no effect. -/
structure Reversible (answers : Nat → Answer) (time partition intent : Nat)
    (machine : Machine) : Prop where
  /-- A close that fails leaves the new intent, every later failure the one in memory. -/
  intent : FailsBy answers time (config.commitCall time) ∨
    machine.pref.bootIntent = some
      (if (answers (config.commitCall time + 1)).code = 0 then machine.status.bootIntent
        else intent)
  /-- A request for the next partition that fails is not undone. -/
  next : FailsBy answers time (config.commitCall time + 1) ∨
    (answers (config.commitCall time + 2)).code = 0 ∨
    (answers (config.commitCall time + 2)).applied = false ∨ machine.next = partition

end BootConfig

section Run

variable {answers : Nat → Answer} {onFail : Int → Machine → Nat → Prop} {time : Nat}
  {machine : Machine}

theorem timed_setIntent
    (atomic : (answers (time + 2)).code ≠ 0 → (answers (time + 2)).applied = false)
    (returns : (∀ index, time ≤ index → index ≤ time + 3 → (answers index).code = 0) →
      onReturn () (machine.withIntent intent) (time + 4))
    (fails : ∀ code ended, BootConfig.FailsBy answers time (time + 2) → onFail code machine ended)
    (unclosed : ∀ code, (∀ index, time ≤ index → index ≤ time + 2 → (answers index).code = 0) →
      (answers (time + 3)).code ≠ 0 → onFail code (machine.withIntent intent) (time + 4)) :
    Timed answers (setIntent intent) onReturn onFail (fun _ => True) time machine :=
  .on (timed_transaction atomic returns fails unclosed)

theorem timed_setIntent_works (works : ∀ index, time ≤ index → (answers index).Works)
    (returns : onReturn () (machine.withIntent intent) (time + 4)) :
    Timed answers (setIntent intent) onReturn onFail (fun _ => True) time machine := by
  have good : ∀ index, time ≤ index → (answers index).code = 0 := fun index late =>
    (works index late).code
  refine timed_setIntent (fun bad => absurd (good _ (by omega)) bad) (fun _ => returns) ?_ ?_
  · rintro code ended ⟨index, low, _, bad⟩
    exact absurd (good index low) bad
  · intro code _ bad
    exact absurd (good _ (by omega)) bad

/-- Putting everything back while everything works. -/
theorem timed_restore {next : Nat} {code : Int}
    (works : ∀ index, time ≤ index → (answers index).Works)
    (fails : ∀ ended, onFail code ({ machine with next }.withIntent intent) ended) :
    Timed answers (restore next intent code) onReturn onFail (fun _ => True) time machine := by
  have good := (works time (by omega)).code
  apply Timed.bind
  apply Timed.ignoring
  refine timed_act (fun _ => ?_) (fun bad => absurd good bad) trivial trivial
  apply Timed.bind
  apply Timed.ignoring
  exact timed_setIntent_works (fun index late => works index (by omega)) (.fail (fails _))

theorem timed_prepareDisruptive (config : BootConfig) (looked : (answers time).code = 0) :
    Timed answers config.prepareDisruptive
      (fun _ after ended => after = machine ∧ config.commitCall time = ended + 2 ∧ time ≤ ended ∧
        ∀ index, time ≤ index → index < ended → (answers index).code = 0)
      (fun _ after _ => after = machine ∧
        BootConfig.FailsBy answers time (config.commitCall time)) (fun _ => True)
      (time + 1) machine := by
  refine .onlyIf (fun asked => ?_) fun unasked => ?_
  · have commit : config.commitCall time = time + 4 := if_pos asked
    rw [commit]
    refine timed_probe (fun prepared => ⟨rfl, rfl, by omega, fun index low high => ?_⟩)
      (fun bad => ⟨rfl, time + 1, by omega, by omega, bad⟩) trivial
    obtain rfl | rfl : index = time ∨ index = time + 1 := by omega
    · exact looked
    · exact prepared
  · have commit : config.commitCall time = time + 3 := by
      rw [BootConfig.commitCall, unasked]
      rfl
    rw [commit]
    refine ⟨rfl, rfl, by omega, fun index low high => ?_⟩
    obtain rfl : index = time := by omega
    exact looked

end Run

section Undone

variable {config : BootConfig} {answers : Nat → Answer} {time partition intent : Nat}
  {machine : Machine}

theorem Machine.SameArming.refl (machine : Machine) : machine.SameArming machine :=
  ⟨rfl, rfl, rfl⟩

theorem BootConfig.FailsBy.mono {last later : Nat} (fails : FailsBy answers time last)
    (order : last ≤ later) : FailsBy answers time later := by
  obtain ⟨index, low, high, bad⟩ := fails
  exact ⟨index, low, by omega, bad⟩

/-- A call that fails before the intent is stored leaves everything. -/
theorem BootConfig.FailsBy.undone (fails : FailsBy answers time (config.commitCall time)) :
    machine.SameArming machine ↔ config.Reversible answers time partition intent machine :=
  iff_of_true (.refl _) ⟨.inl fails, .inl (fails.mono (by omega))⟩

variable (good : ∀ index, time ≤ index → index ≤ config.commitCall time → (answers index).code = 0)

include good

theorem BootConfig.not_failsBy : ¬FailsBy answers time (config.commitCall time) := by
  rintro ⟨index, low, high, bad⟩
  exact bad (good index low high)

theorem BootConfig.undone_of_unclosed (unclosed : (answers (config.commitCall time + 1)).code ≠ 0) :
    machine.SameArming (machine.withIntent intent) ↔
      config.Reversible answers time partition intent machine := by
  have order : time ≤ config.commitCall time := by
    unfold BootConfig.commitCall
    split <;> omega
  constructor
  · intro same
    refine ⟨.inr ?_, .inl ⟨_, by omega, by omega, unclosed⟩⟩
    rw [if_neg unclosed]
    exact same.intent.symm
  · intro reversible
    have stored := reversible.intent.resolve_left (not_failsBy good)
    rw [if_neg unclosed] at stored
    exact ⟨stored.symm, rfl, rfl⟩

/-- After the intent was stored, the intent in memory is left and some next partition. -/
theorem BootConfig.undone_of_stored (closed : (answers (config.commitCall time + 1)).code = 0)
    {next : Nat} (left : next = machine.next ↔ (answers (config.commitCall time + 2)).code = 0 ∨
      (answers (config.commitCall time + 2)).applied = false ∨ machine.next = partition) :
    machine.SameArming ({ machine with next }.withIntent machine.status.bootIntent) ↔
      config.Reversible answers time partition intent machine := by
  have unfailing : ¬FailsBy answers time (config.commitCall time + 1) := by
    rintro ⟨index, low, high, bad⟩
    by_cases last : index = config.commitCall time + 1
    · subst last
      exact bad closed
    · exact bad (good index low (by omega))
  constructor
  · intro same
    refine ⟨.inr ?_, .inr (left.mp same.next)⟩
    rw [if_pos closed]
    exact same.intent.symm
  · intro reversible
    have stored := reversible.intent.resolve_left (not_failsBy good)
    rw [if_pos closed] at stored
    exact ⟨stored.symm, left.mpr (reversible.next.resolve_left unfailing), rfl⟩

end Undone

/-- What the run does once the intent is stored: a failure puts back what it can. -/
theorem timed_armAndReboot {config : BootConfig} {answers : Nat → Answer}
    {time partition intent : Nat}
    {machine : Machine} {transition : Bool} (undoes : config.Undoes answers time)
    (good : ∀ index, time ≤ index → index ≤ config.commitCall time → (answers index).code = 0)
    (closed : (answers (config.commitCall time + 1)).code = 0) :
    Timed answers (do
        (setNext partition).recovering fun code => do
          (setIntent machine.status.bootIntent).ignoring
          Program.fail code
        (Program.onlyIf transition probe).recovering
          (restore machine.next machine.status.bootIntent)
        (probe : BootRoutine Unit).recovering (restore machine.next machine.status.bootIntent)
        cache fun status => { status with bootIntent := intent, nextPartition := partition })
      (fun _ _ _ => True)
      (fun _ after _ => machine.SameArming after ↔
        config.Reversible answers time partition intent machine)
      (fun _ => True) (config.commitCall time + 2) (machine.withIntent intent) := by
  -- Once the next partition was set, every failure restores both.
  have restored : ∀ (onReturn : Unit → Machine → Nat → Prop) code call,
      config.commitCall time + 2 ≤ call → (answers call).code ≠ 0 →
      (answers (config.commitCall time + 2)).code = 0 →
      Timed answers (restore machine.next machine.status.bootIntent code) onReturn
        (fun _ after _ => machine.SameArming after ↔
          config.Reversible answers time partition intent machine)
        (fun _ => True) (call + 1) { machine.withIntent intent with next := partition } := by
    intro onReturn code call late bad set
    refine timed_restore (fun index after => undoes.restores call index late (by omega) bad)
      fun _ => ?_
    exact BootConfig.undone_of_stored good closed (iff_of_true rfl (.inl set))
  apply Timed.bind
  apply Timed.recovering
  refine timed_act (fun set => ?_) (fun bad => ?_) trivial trivial
  · apply Timed.bind
    apply Timed.recovering
    have reboot : ∀ call, config.commitCall time + 2 ≤ call → Timed answers (do
        (probe : BootRoutine Unit).recovering (restore machine.next machine.status.bootIntent)
        cache fun status => { status with bootIntent := intent, nextPartition := partition })
        (fun _ _ _ => True)
        (fun _ after _ => machine.SameArming after ↔
          config.Reversible answers time partition intent machine)
        (fun _ => True) call { machine.withIntent intent with next := partition } := by
      intro call late
      apply Timed.bind
      apply Timed.recovering
      exact timed_probe (fun _ => trivial) (fun bad => restored _ _ call late bad set) trivial
    refine .onlyIf (fun _ => ?_) fun _ => reboot _ (by omega)
    exact timed_probe (fun _ => reboot _ (by omega)) (fun bad => restored _ _ _ (by omega) bad set)
      trivial
  · apply Timed.bind
    apply Timed.ignoring
    refine timed_setIntent_works
      (fun index after => undoes.restores _ index le_rfl (by omega) bad) (.fail ?_)
    have settled := fun next => @BootConfig.undone_of_stored config answers time partition intent
      machine good closed next
    cases applied : (answers (config.commitCall time + 2)).applied with
    | true =>
      refine settled partition ⟨fun same => .inr (.inr same.symm), ?_⟩
      rintro (worked | kept | same)
      · exact absurd worked bad
      · rw [applied] at kept
        cases kept
      · exact same.symm
    | false => exact settled machine.next (iff_of_true rfl (.inr (.inl applied)))

/-- A reboot that fails has undone everything exactly where it failed before the intent was
stored, or where the intent it leaves is the one that was stored. -/
theorem set_next_and_reboot_undone_iff (config : BootConfig) (partition intent : Nat)
    (transition : Bool) (machine after : Machine) (answers : Nat → Answer) (time ended : Nat)
    (code : Int) (undoes : config.Undoes answers time)
    (failed : config.setNextAndReboot partition intent transition answers time machine =
      .failed code after ended) :
    machine.SameArming after ↔ config.Reversible answers time partition intent machine := by
  have order : time ≤ config.commitCall time := by
    unfold BootConfig.commitCall
    split <;> omega
  have run : Timed answers (config.setNextAndReboot partition intent transition)
      (fun _ _ _ => True)
      (fun _ after _ => machine.SameArming after ↔
        config.Reversible answers time partition intent machine)
      (fun _ => True) time machine := by
    apply Timed.bind
    apply Timed.read
    apply Timed.bind
    refine timed_probe (fun looked => ?_)
      (fun bad => BootConfig.FailsBy.undone ⟨time, le_rfl, order, bad⟩) trivial
    apply Timed.bind
    apply Timed.read
    apply Timed.bind
    refine (timed_prepareDisruptive config looked).mono ?_ ?_ fun _ _ => trivial
    · rintro _ after ended ⟨rfl, commit, begun, prepared⟩
      have atomic := undoes.atomic
      have tail := fun good closed => @timed_armAndReboot config answers time partition intent after
        transition undoes good closed
      rw [commit] at atomic tail
      have joined : (∀ index, ended ≤ index → index ≤ ended + 2 → (answers index).code = 0) →
          ∀ index, time ≤ index → index ≤ ended + 2 → (answers index).code = 0 := by
        intro good index low high
        by_cases first : index < ended
        · exact prepared index low first
        · exact good index (by omega) high
      apply Timed.bind
      refine timed_setIntent atomic (fun good => ?_) ?_ ?_
      · exact tail (joined fun index low high => good index low (by omega))
          (good _ (by omega) (by omega))
      · rintro code stop ⟨index, low, high, bad⟩
        exact BootConfig.FailsBy.undone ⟨index, by omega, by omega, bad⟩
      · intro code good bad
        refine BootConfig.undone_of_unclosed ?_ (by rw [commit]; exact bad)
        rw [commit]
        exact joined good
    · rintro _ after _ ⟨rfl, fails⟩
      exact fails.undone
  exact run.failed failed

/-- Answers of a platform on which one call fails. -/
def failingAt (time index : Nat) : Answer := if index = time then { code := Pal.errIo } else {}

theorem failingAt_works {time index : Nat} (other : index ≠ time) :
    (failingAt time index).Works := by
  rw [failingAt, if_neg other]
  exact Answer.default_works

theorem undoes_failingAt (config : BootConfig) (time call : Nat) :
    config.Undoes (failingAt call) time where
  atomic _ := by
    unfold failingAt
    split <;> rfl
  restores index later _ order bad := by
    refine failingAt_works fun same => ?_
    have other : index ≠ call := by omega
    exact bad (failingAt_works other).code

/-- A loader that was to go on by itself, after a startup that could not read its preferences. -/
def forgetfulMachine : Machine :=
  (benchConfig.startup (failingAt 0) 0
    { benchMachine [1, 2, 3] with pref := { bootIntent := some intentAuto } }).state

/-- After a startup that failed to read the preferences, a request to upgrade whose reboot fails
stores the intent to stay in the loader in place of the intent to go on. -/
theorem failed_reboot_stores_intent :
    benchConfig.Undoes (failingAt 6) 0 ∧
    forgetfulMachine.pref.bootIntent = some intentAuto ∧
    (benchConfig.rebootUpgrade false (failingAt 6) 0 forgetfulMachine).failure = some Pal.errIo ∧
    (benchConfig.rebootUpgrade false (failingAt 6) 0
      forgetfulMachine).state.pref.bootIntent = some intentLoader :=
  ⟨undoes_failingAt _ _ _, by decide +kernel⟩

/-- A loader that knows its intent, and whose reboot fails. -/
def awareMachine : Machine :=
  { benchMachine [1, 2, 3] with
    pref := { bootIntent := some intentAuto }, status := { bootIntent := intentAuto } }

theorem set_next_and_reboot_undone_aware :
    benchConfig.Undoes (failingAt 6) 0 ∧
    ∃ after ended, benchConfig.setNextAndReboot 1 intentLoader false
      (failingAt 6) 0 awareMachine = .failed Pal.errIo after ended ∧
      (awareMachine.SameArming after ↔ benchConfig.Reversible
        (failingAt 6) 0 1 intentLoader awareMachine) := by
  have undoes := undoes_failingAt benchConfig 0 6
  have outcome : benchConfig.setNextAndReboot 1 intentLoader false
      (failingAt 6) 0 awareMachine = .failed Pal.errIo
        { awareMachine with pref := { bootIntent := some intentAuto } } 12 := rfl
  exact ⟨undoes, _, _, outcome, set_next_and_reboot_undone_iff _ _ _ _ _ _ _ _ _ _ undoes outcome⟩

end Gizos.Loader
