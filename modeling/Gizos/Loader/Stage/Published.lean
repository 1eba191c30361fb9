import Gizos.Bundle.Cut
import Gizos.Loader.Boot.Recovery
import Gizos.Loader.ManifestText
import Gizos.Loader.Stage.Writer

/-! # What a published Stage record stands for

Whatever is called and whatever fails, a writer that calls itself verified has the package file it
was given, byte for byte, and the file has passed every check. Only a commit of such a writer makes
a valid Stage record.
-/
namespace Gizos.Loader

open Fault Pal Gizos.Bundle PackageConfig

variable {config : PackageConfig} {stager : Stager}

variable {α : Type} {store : Storage}

/-- What `h2_loader_package_inspect_path` finds in these contents. -/
def PackageConfig.inspectContent (config : PackageConfig) (content : Bytes) :
    Except Int Inspection :=
  if content.take segmentedStart.length = segmentedStart then
    (segmentedInspect config.digest content).map (segmentedInspection config.appEntryPath)
  else config.feedValidator content >>= fun fed => finishValidator fed.1 fed.2

/-- The package file is what the writer took, as long as declared and with the declared digest, and
the inspection finds in it what the writer asks for. -/
structure Verified (config : PackageConfig) (writer : StageWriter) (store : Storage) : Prop where
  file : store.files config.packagePath = some writer.taken
  size : writer.taken.length = writer.expected.toNat
  digest : config.digest.hex writer.taken = writer.checksum
  /-- It holds an acceptable package. -/
  inspected : ∃ inspection, writer.inspection = some inspection ∧
    config.inspectContent writer.taken = .ok inspection ∧
    acceptsStaged writer inspection ∧
    isLowerSha256Hex (inspection.dataChecksum.take 64) = true

/-- A package with a manifest that passes inspection has a data checksum in lower-case
hexadecimal. -/
theorem inspectContent_checksum {content : Bytes} {inspection : Inspection}
    (inspected : config.inspectContent content = .ok inspection)
    (manifest : inspection.legacy = false) :
    isLowerSha256Hex (inspection.dataChecksum.take 64) = true := by
  unfold inspectContent at inspected
  split at inspected
  · cases found : segmentedInspect config.digest content with
    | error code =>
      rw [found] at inspected
      cases inspected
    | ok m =>
      rw [found] at inspected
      cases inspected
      unfold segmentedInspect at found
      obtain ⟨-, found⟩ := guard_ok found
      obtain ⟨_, -, found⟩ := bind_eq_ok.mp found
      obtain ⟨-, found⟩ := guard_ok found
      obtain ⟨parsed, read, found⟩ := bind_eq_ok.mp found
      obtain ⟨_, -, found⟩ := bind_eq_ok.mp found
      obtain ⟨⟨_, _⟩, -, found⟩ := bind_eq_ok.mp found
      obtain ⟨⟨_, _⟩, -, found⟩ := bind_eq_ok.mp found
      obtain ⟨-, found⟩ := guard_ok found
      obtain ⟨_, -, found⟩ := bind_eq_ok.mp found
      cases found
      have hex := (segmentedManifestParse_ok read).hex
      have long : parsed.dataSha256.length = 64 := by
        simpa using (Bool.and_eq_true_iff.mp hex).1
      have front : (parsed.dataSha256 ++ [10]).take 64 = parsed.dataSha256 := by
        rw [← long, List.take_left]
      exact (congrArg isLowerSha256Hex front).trans hex
  · obtain ⟨⟨v, done⟩, fed, finished⟩ := bind_eq_ok.mp inspected
    obtain ⟨last, streamed, ended⟩ := bind_eq_ok.mp fed
    unfold finishValidator at finished
    obtain ⟨-, finished⟩ := guard_ok finished
    obtain ⟨⟨⟩, accepted, finished⟩ := bind_eq_ok.mp finished
    cases finished
    obtain rfl : last = v := by
      split at ended <;> cases ended <;> rfl
    obtain ⟨entries, settled, contents, -, -⟩ := LayoutValidator.accepted_contents streamed accepted
    have validated : validateLayout config.digest config.appEntryPath _ = .ok last.inspection :=
      bind_eq_ok.mpr ⟨last, streamed, bind_eq_ok.mpr ⟨(), accepted, rfl⟩⟩
    rw [AcceptedPackage.checksum_eq ⟨_, _, entries, validated, contents⟩ manifest]
    exact isLowerSha256Hex_hex _ _

/-- A writer with an open file. A failed write may have left bytes in the file, and then the file
is longer than what was taken. -/
structure Receiving (config : PackageConfig) (stager : Stager) : Prop where
  some : 0 < stager.1.expected.toNat
  inside : stager.1.written.toNat ≤ stager.1.expected.toNat
  percent : stager.1.percent.toNat = 100 * stager.1.written.toNat / stager.1.expected.toNat
  unverified : stager.1.verified = false
  counted : stager.1.taken.length = stager.1.written.toNat
  /-- The file is there, and it is what was taken unless it is longer. -/
  content : ∃ content, stager.2.store.files config.packagePath = .some content ∧
    stager.1.taken.length ≤ content.length ∧
    (content.length = stager.1.taken.length → content = stager.1.taken)

/-- What every call keeps. -/
structure Sound (config : PackageConfig) (stager : Stager) : Prop where
  receiving : stager.1.file = true → Receiving config stager
  /-- A verified writer is finished, and rightly so. -/
  verified : stager.1.verified = true →
    stager.1.file = false ∧ Verified config stager.1 stager.2.store

theorem Sound.idle (closed : stager.1.file = false) (unverified : stager.1.verified = false) :
    Sound config stager :=
  ⟨fun opened => by simp [closed] at opened, fun verified => by simp [unverified] at verified⟩

theorem leaves_onMachine (body : BootRoutine α) : Leaves Prod.fst (onMachine body) :=
  .on fun _ _ => rfl

theorem ensures_writerBegin (sound : Sound config stager) (size : UInt64)
    (checksum board target : Bytes) :
    Ensures Answer.Any (config.writerBegin size checksum board target)
      (fun _ => Sound config) (fun _ => Sound config) (fun _ => True) stager := by
  refine .bind (.require (fun valid => ?_) fun _ => sound)
  refine .bind (.read (.bind (.require (fun _ => ?_) fun _ => sound)))
  refine .bind (.update (.bind (.leaving (leaves_onMachine _) (.trivially
    (fun _ after same => ?_) (fun _ after same => ?_) fun _ _ => trivial))))
  · refine .bind (.update (.bind (.on (.on (.bind (.update ?_))))))
    have idle : ∀ machine : Machine, Sound config ({ after.1 with started := true }, machine) := by
      intro machine
      rw [same]
      exact .idle rfl rfl
    refine ensures_act (.update ?_) (fun _ _ => idle _) (fun _ _ => idle _) trivial trivial
    have positive : 0 < size.toNat := by
      have nonzero := valid.1
      rw [Ne, ← UInt64.toNat_inj] at nonzero
      exact Nat.pos_of_ne_zero nonzero
    refine ⟨fun _ => ?_, fun verified => ?_⟩
    · simp only [Component.snd, Machine.storePart, same]
      exact ⟨positive, Nat.zero_le _, (Nat.zero_div _).symm, rfl, rfl, [],
        Storage.withFile_same .., Nat.le_refl _, fun _ => rfl⟩
    · simp [Component.snd, same] at verified
  · exact .idle (by rw [same]) (by rw [same])

/-- A file that grew by some bytes is still what was taken, or longer. -/
theorem Receiving.grown (receiving : Receiving config stager) {content data : Bytes}
    (present : stager.2.store.files config.packagePath = .some content)
    (grown : Grown config.packagePath content data stager.2.store store) :
    Receiving config (stager.1, { stager.2 with store }) := by
  obtain ⟨count, files⟩ := grown
  obtain ⟨before, there, least, same⟩ := receiving.content
  obtain rfl := Option.some.inj (present.symm.trans there)
  refine { receiving with content := ⟨content ++ data.take count, ?_, ?_, fun equal => ?_⟩ }
  · dsimp only
    rw [files, Function.update_self]
  · rw [List.length_append]
    exact Nat.le_add_right_of_le least
  · rw [List.length_append] at equal
    change content.length + (data.take count).length = stager.1.taken.length at equal
    have none : data.take count = [] := List.eq_nil_of_length_eq_zero (by omega)
    rw [none, List.append_nil]
    exact same (by omega)

theorem ensures_writerWrite (sound : Sound config stager) (data : Bytes) :
    Ensures Answer.Any (config.writerWrite data)
      (fun percent after => Receiving config after ∧ after.1.file = true ∧
        percent = after.1.percent ∧ after.1.expected = stager.1.expected ∧
        after.1.written.toNat = stager.1.written.toNat + data.length)
      (fun _ => Sound config) (fun _ => True) stager := by
  refine .bind (.read (.bind (.require (fun opened => ?_) fun _ => sound)))
  refine .bind (.require (fun room => ?_) fun _ => sound)
  have receiving := sound.receiving opened
  obtain ⟨content, present, least, same⟩ := receiving.content
  have open_ {store : Storage} (grown : Grown config.packagePath content data
    stager.2.store store) : Sound config (stager.1, { stager.2 with store }) := by
    have still := receiving.grown present grown
    refine ⟨fun _ => still, fun verified => ?_⟩
    exact absurd (still.unverified.symm.trans verified) Bool.false_ne_true
  refine .bind (.on (.on ((ensures_fsWrite present).mono (fun count after moved => ?_)
    (fun _ after grown => open_ grown) fun _ _ => trivial)))
  refine .bind (.require (fun whole => ?_) fun _ => open_ ⟨count, moved⟩)
  refine .bind (.update (.read ?_))
  subst whole
  have left : (stager.1.expected - stager.1.written).toNat =
      stager.1.expected.toNat - stager.1.written.toNat := UInt64.toNat_sub_of_le _ _ room.1
  have inside := receiving.inside
  have bound := stager.1.expected.toNat_lt
  have fits : data.length < 2 ^ 64 := by omega
  have sum : (stager.1.written + UInt64.ofNat data.length).toNat =
      stager.1.written.toNat + data.length := by
    rw [UInt64.toNat_add, UInt64.toNat_ofNat_of_lt' fits]
    exact Nat.mod_eq_of_lt (by omega)
  have total : (stager.1.taken ++ data).length = stager.1.written.toNat + data.length := by
    rw [List.length_append, receiving.counted]
  have within : (stager.1.written + UInt64.ofNat data.length).toNat ≤
      stager.1.expected.toNat := by omega
  have percent : stager.1.percent.toNat ≤
      100 * (stager.1.written + UInt64.ofNat data.length).toNat / stager.1.expected.toNat := by
    rw [receiving.percent]
    exact Nat.div_le_div_right (by omega)
  refine ⟨⟨receiving.some, ?_, ?_, receiving.unverified, total.trans sum.symm, content ++ data, ?_,
    ?_, fun equal => ?_⟩, opened, rfl, rfl, sum⟩
  · exact within
  · exact raisePercent_exact receiving.some within percent (Nat.le_add_right _ _)
  · change after.files config.packagePath = _
    rw [moved, Function.update_self, List.take_length]
  · rw [List.length_append, List.length_append]
    exact Nat.add_le_add_right least _
  · rw [List.length_append, List.length_append] at equal
    rw [same (Nat.add_right_cancel equal)]
    rfl

theorem ensures_looking {body : Routine Storage α} {found : α → Prop}
    {onReturn : α → Stager → Prop} {onFail : Int → Stager → Prop} (looks : Leaves id body)
    (finds : Returns Answer.Any body (fun value _ => found value)
      stager.2.store) (returns : ∀ value, found value → onReturn value stager)
    (fails : ∀ code, onFail code stager) :
    Ensures Answer.Any (onMachine (onStorage body)) onReturn onFail (fun _ => True) stager := by
  refine .on (.on (.leaving looks (finds.mono (fun value after holds same => ?_)
    (fun code after _ same => ?_) fun _ _ _ => trivial)))
  · obtain rfl : after = stager.2.store := same
    exact returns value holds
  · obtain rfl : after = stager.2.store := same
    exact fails code

theorem ensures_conclude {σ : Type} {state : σ} (result : Except Int α) :
    Returns Answer.Any (Program.conclude result : Routine σ α) (fun value _ => result = .ok value)
      state := by
  cases result with
  | ok value => exact .pure rfl
  | error code => exact .fail trivial

theorem finds_verifyPath (path : Bytes) (size : UInt64) (sha256 : Bytes) :
    Returns Answer.Any (config.verifyPath path size sha256)
      (fun _ _ => ∃ content, store.files path = .some content ∧ content.length = size.toNat ∧
        config.digest.hex content = sha256) store := by
  refine .bind (.require (fun _ => ?_) fun _ => trivial)
  refine .bind (ensures_lookup (fun content present => ?_) (fun _ _ => trivial) trivial)
  refine .bind (.require (fun long => ?_) fun _ => trivial)
  refine .bind (.bind (ensures_lookup (fun again there => ?_) (fun _ _ => trivial) trivial))
  obtain rfl := Option.some.inj (present.symm.trans there)
  refine ensures_closingAfter (.bind (ensures_probe (.pure ⟨?_, fun _ _ => trivial, trivial⟩)
    (fun _ _ => ⟨trivial, trivial⟩) trivial))
  exact .require (fun same => ⟨content, present, long, same⟩) fun _ => trivial

theorem finds_inspectPath (path : Bytes) :
    Returns Answer.Any (config.inspectPath path)
      (fun inspection _ => ∃ content, store.files path = .some content ∧
        config.inspectContent content = .ok inspection) store := by
  have closing {α β : Type} {result : Except Int α} {next : α → Routine Storage β}
      {onReturn : β → Storage → Prop}
      (goes : ∀ value, result = .ok value → Returns Answer.Any (next value) onReturn store) :
      Returns Answer.Any (closingAfter (do probe; Program.conclude result) >>= next)
        onReturn store := by
    refine .bind (ensures_closingAfter (.bind (ensures_probe ?_ (fun _ _ => ⟨trivial, trivial⟩)
      trivial)))
    cases result with
    | error code => exact .fail ⟨trivial, trivial⟩
    | ok value => exact .pure ⟨goes value rfl, fun _ _ => trivial, trivial⟩
  refine .bind (ensures_lookup (fun content present => ?_) (fun _ _ => trivial) trivial)
  refine .bind (ensures_probe ?_ (fun _ _ => trivial) trivial)
  unfold inspectContent
  split
  · rename_i segmented
    refine .bind (ensures_probe (.bind (ensures_probe ?_ (fun _ _ => trivial) trivial))
      (fun _ _ => trivial) trivial)
    refine .bind (ensures_lookup (fun again there => ?_) (fun _ _ => trivial) trivial)
    obtain rfl := Option.some.inj (present.symm.trans there)
    refine closing fun m inspected => .pure ⟨content, present, ?_⟩
    rw [if_pos segmented, inspected]
    rfl
  · rename_i stream
    refine closing fun fed validated => (ensures_conclude _).imp fun inspection _ finished => ?_
    refine ⟨content, present, ?_⟩
    rw [if_neg stream, validated]
    exact finished

theorem ensures_writerInspect (sound : Sound config stager) :
    Ensures Answer.Any config.writerInspect (fun _ => Sound config) (fun _ => Sound config)
      (fun _ => True) stager := by
  refine .bind (.read (.bind (.require (fun opened => ?_) fun _ => sound)))
  have receiving := sound.receiving opened
  have idle (inspection : Option Inspection) :
      Sound config ({ stager.1 with file := false, inspection }, stager.2) :=
    .idle rfl receiving.unverified
  have quiet := (leaves_probe id : Leaves id (probe : Routine Stager Unit)).attempt
  refine .bind (.quiet quiet (fun synced => ?_) (fun _ => sound) trivial)
  refine .bind (.quiet quiet (fun closed => ?_) (fun _ => sound) trivial)
  refine .bind (.update (.bind (.quiet (.conclude _) (fun _ => ?_) (fun _ => idle _) trivial)))
  refine .bind (.quiet (.conclude _) (fun _ => ?_) (fun _ => idle _) trivial)
  refine .bind (.require (fun complete => ?_) fun _ => idle _)
  refine .bind (ensures_looking (leaves_verifyPath _ _ _) (finds_verifyPath _ _ _)
    (fun _ found => ?_) fun _ => idle _)
  obtain ⟨content, present, long, same⟩ := found
  refine .bind (ensures_looking (leaves_inspectPath _) (finds_inspectPath _)
    (fun inspection found => ?_) fun _ => idle _)
  obtain ⟨again, there, inspected⟩ := found
  obtain rfl := Option.some.inj (present.symm.trans there)
  refine .bind (.update (.bind (.require (fun accepted => ?_) fun _ => idle _)))
  refine .bind (.update (.pure ⟨fun opened => absurd opened Bool.false_ne_true,
    fun _ => ⟨rfl, ?_⟩⟩))
  obtain ⟨file, here, -, whole⟩ := receiving.content
  obtain rfl := Option.some.inj (present.symm.trans here)
  have counted : content.length = stager.1.taken.length := by
    rw [receiving.counted, complete]
    exact long
  obtain rfl := whole counted
  exact ⟨present, long, same, inspection, rfl, inspected, accepted,
    inspectContent_checksum inspected accepted.1⟩

/-- A commit writes the record of a verified writer or nothing, and touches no file. -/
theorem ensures_writerCommit (sound : Sound config stager) :
    Ensures Answer.Any writerCommit
      (fun _ after => Sound config after ∧ Verified config stager.1 after.2.store)
      (fun _ after => Sound config after ∧
        (after = stager ∨ Verified config stager.1 after.2.store))
      (fun after => after = stager ∨ Verified config stager.1 after.2.store) stager := by
  refine .bind (.read (.bind (.require (fun ready => ?_) fun _ => ⟨sound, .inl rfl⟩)))
  obtain ⟨closed, verified⟩ := sound.verified ready.2
  obtain ⟨inspection, held, -⟩ := verified.inspected
  have still (pref : Preferences) : Sound config (stager.1, { stager.2 with pref }) :=
    ⟨fun opened => absurd (closed.symm.trans opened) Bool.false_ne_true, fun _ =>
      ⟨closed, verified⟩⟩
  rw [held]
  refine .on (.bind (.require (fun _ => .on ?_) fun _ => ⟨sound, .inl rfl⟩))
  exact .trivially (fun _ pref => ⟨still pref, verified⟩)
    (fun _ pref => ⟨still pref, .inr verified⟩) fun _ => .inr verified

theorem ensures_writerAbort :
    Ensures Answer.Any config.writerAbort (fun _ => Sound config) (fun _ => Sound config)
      (fun _ => True) stager := by
  have erased (machine : Machine) : Sound config ({}, machine) := .idle rfl rfl
  refine .bind (.read (.bind (.attempt (.trivially (fun _ after => ?_) (fun _ after => ?_)
    fun _ => trivial))))
  all_goals
    refine .bind (.update (.bind (.attempt (.trivially (fun _ last => ?_) (fun _ last => ?_)
      fun _ => trivial))))
    all_goals
      refine .bind (.update (.bind (.quiet (.conclude _) (fun _ => ?_)
        (fun _ => erased _) trivial)))
      exact .quiet (.conclude _) (fun _ => erased _) (fun _ => erased _) trivial

theorem Sound.run (sound : Sound config stager) (call : StageCall) :
    Ensures Answer.Any (call.run config) (fun _ => Sound config) (fun _ => Sound config)
      (fun _ => True) stager := by
  cases call with
  | begin size checksum board target => exact ensures_writerBegin sound _ _ _ _
  | write data =>
    refine .bind ((ensures_writerWrite sound data).imp fun percent after wrote => .pure ?_)
    refine ⟨fun _ => wrote.1, fun verified => ?_⟩
    exact absurd (wrote.1.unverified.symm.trans verified) Bool.false_ne_true
  | inspect => exact .bind ((ensures_writerInspect sound).imp fun _ _ kept => .pure kept)
  | commit =>
    exact (ensures_writerCommit sound).mono (fun _ _ kept => kept.1) (fun _ _ kept => kept.1)
      fun _ _ => trivial
  | abort => exact ensures_writerAbort

theorem Staged.sound (staged : Staged config stager) : Sound config stager := by
  induction staged with
  | fresh machine => exact .idle rfl rfl
  | call earlier call answers time ih =>
    have ending := ih.run call answers (fun _ => trivial) time
    cases outcome : call.run config answers time _ with
    | returned value after time' =>
      rw [outcome] at ending
      exact ending
    | failed code after time' =>
      rw [outcome] at ending
      exact ending
    | stopped after => exact .idle rfl rfl

/-- Every percentage a write reports is the exact one, and no step of its computation leaves
64 bits: neither the counter nor, for any percentage the loop can try, the threshold. -/
theorem percent_exact (staged : Staged config stager) {data : Bytes} {percent : UInt32}
    {after : Stager} (wrote : Yields Answer.Any (config.writerWrite data) stager percent after) :
    0 < after.1.expected.toNat ∧ after.1.written.toNat = after.1.taken.length ∧
      after.1.written.toNat = stager.1.written.toNat + data.length ∧
      percent.toNat = 100 * after.1.written.toNat / after.1.expected.toNat ∧
      ∀ next : UInt32, next.toNat ≤ 100 →
        after.1.expected.toNat / 100 * next.toNat +
            (after.1.expected.toNat % 100 * next.toNat + 99) / 100 < 2 ^ 64 ∧
          (percentThreshold after.1.expected next).toNat = after.1.expected.toNat /
            100 * next.toNat +
            (after.1.expected.toNat % 100 * next.toNat + 99) / 100 := by
  obtain ⟨receiving, -, same, -, sum⟩ := (ensures_writerWrite staged.sound data).yielded wrote
  refine ⟨receiving.some, receiving.counted.symm, sum, by rw [same, receiving.percent], ?_⟩
  intro next small
  obtain ⟨fits, exact, -⟩ := percentThreshold_le after.1.expected 0 small
  exact ⟨fits, exact⟩

theorem percent_exact_three :
    let begin := StageCall.begin 4 (List.replicate 64 48) [] []
    let stager := settled (begin.run benchPackage (fun _ => {}) 0 ({}, benchMachine []))
    let outcome := benchPackage.writerWrite [1, 2, 3] (fun _ => {}) 0 stager
    outcome.value = some 75 ∧ (75 : UInt32).toNat =
      100 * outcome.state.1.written.toNat / outcome.state.1.expected.toNat := by
  intro begin stager outcome
  have value : outcome.value = some 75 := by decide +kernel
  exact ⟨value, (percent_exact (.call (.fresh _) begin _ _)
    (.of_value (fun _ => trivial) value)).2.2.2.1⟩

/-- Every valid Stage record is one of those known. -/
def Recorded (known : Metadata → Prop) (machine : Machine) : Prop :=
  ∀ metadata, machine.Records .stage metadata → known metadata

section Recorded

variable {known : Metadata → Prop}

theorem keeps_onMachine {body : BootRoutine α} (kept : Keeps (Recorded known) body) :
    Keeps (fun stager : Stager => Recorded known stager.2) (onMachine body) :=
  .onPart fun _ => kept

theorem keeps_discard {value : Option Bytes} (machine : Machine)
    (empty : value = none ∨ value = metadataEncode .stage .zero) (pref : Preferences) :
    Recorded known { machine with pref := pref.withSlot .stage value } := fun metadata records =>
  absurd records (not_records_discard { machine with pref } empty metadata)

theorem keeps_stageBegin : Keeps (Recorded known) stageBegin := by
  refine .onPart fun machine => ?_
  unfold metadataWrite
  cases encoded : metadataEncode .stage .zero with
  | none => exact .fail _
  | some data =>
    exact keeps_transaction (keeps_probe _) fun pref _ =>
      keeps_discard machine (.inr encoded.symm) pref

theorem keeps_onStorage (body : Routine Storage α) : Keeps (Recorded known) (onStorage body) := by
  have frame : Leaves Machine.pref (onStorage body) := .on fun _ _ => rfl
  exact frame.keeps fun _ _ same holds metadata records =>
    holds metadata (records.of_slot (congrArg (Preferences.slot · .stage) same))

theorem keeps_stageAbort : Keeps (Recorded known) config.stageAbort := by
  refine .bind (.require _ _) fun _ => .bind keeps_stageBegin fun _ =>
    .bind (keeps_onStorage _) fun _ => .onPart fun machine => ?_
  exact keeps_transaction (.recovering (keeps_probe _) fun _ =>
    .branch (fun _ => .pure _) fun _ => .fail _)
    fun pref _ => keeps_discard machine (.inl rfl) pref

theorem keeps_setWriter (change : StageWriter → StageWriter) :
    Keeps (fun stager : Stager => Recorded known stager.2) (setWriter change) :=
  .update fun _ => id

theorem keeps_run {call : StageCall} (other : call ≠ .commit) :
    Keeps (fun stager : Stager => Recorded known stager.2) (call.run config) := by
  cases call with
  | begin size checksum board target =>
    exact .bind (.require _ _) fun _ => .bind (.read _) fun _ => .bind (.require _ _) fun _ =>
      .bind (keeps_setWriter _) fun _ => .bind (keeps_onMachine keeps_stageBegin) fun _ =>
      .bind (keeps_setWriter _) fun _ => .bind (keeps_onMachine (keeps_onStorage _)) fun _ =>
      keeps_setWriter _
  | write data =>
    refine .bind ?_ fun _ => .pure _
    exact .bind (.read _) fun _ => .bind (.require _ _) fun _ => .bind (.require _ _) fun _ =>
      .bind (keeps_onMachine (keeps_onStorage _)) fun _ => .bind (.require _ _) fun _ =>
      .bind (keeps_setWriter _) fun _ => .read _
  | inspect =>
    refine .bind ?_ fun _ => .pure _
    exact .bind (.read _) fun _ => .bind (.require _ _) fun _ =>
      .bind (keeps_probe _).attempt fun _ => .bind (keeps_probe _).attempt fun _ =>
      .bind (keeps_setWriter _) fun _ => .bind (.conclude _) fun _ => .bind (.conclude _) fun _ =>
      .bind (.require _ _) fun _ => .bind (keeps_onMachine (keeps_onStorage _)) fun _ =>
      .bind (keeps_onMachine (keeps_onStorage _)) fun _ => .bind (keeps_setWriter _) fun _ =>
      .bind (.require _ _) fun _ => .bind (keeps_setWriter _) fun _ => .pure _
  | commit => exact absurd rfl other
  | abort =>
    exact .bind (.read _) fun _ => .bind (Keeps.onlyIf fun _ => keeps_probe _).attempt fun _ =>
      .bind (keeps_setWriter _) fun _ =>
      .bind (Keeps.onlyIf fun _ => keeps_onMachine keeps_stageAbort).attempt fun _ =>
      .bind (keeps_setWriter _) fun _ => .bind (.conclude _) fun _ => .conclude _

end Recorded

/-- Whatever the calls before and whatever fails, a valid Stage record that a call leaves was there
before, or the call is a commit and the package file is what the writes since the begin brought,
with the declared length and digest, and holds an application manifest for the declared board and
target with a well-formed data checksum. A commit that succeeds has published such a package. -/
theorem stage_published (staged : Staged config stager) (call : StageCall)
    (answers : Nat → Answer) (time : Nat) :
    let outcome := call.run config answers time stager
    (∀ metadata, outcome.state.2.Records .stage metadata → stager.2.Records .stage metadata ∨
      call = .commit ∧ Verified config stager.1 outcome.state.2.store) ∧
    (call = .commit → outcome.value = some () →
      Verified config stager.1 outcome.state.2.store) := by
  intro outcome
  by_cases commit : call = .commit
  · subst commit
    have ending := ensures_writerCommit staged.sound answers (fun _ => trivial) time
    change outcome.Satisfies _ _ _ at ending
    cases shape : outcome with
    | returned value after time' =>
      rw [shape] at ending
      exact ⟨fun _ _ => .inr ⟨rfl, ending.2⟩, fun _ _ => ending.2⟩
    | failed code after time' =>
      rw [shape] at ending
      refine ⟨fun metadata records => ?_, fun _ none => nomatch none⟩
      rcases ending.2 with same | verified
      · exact .inl (same ▸ records)
      · exact .inr ⟨rfl, verified⟩
    | stopped after =>
      rw [shape] at ending
      refine ⟨fun metadata records => ?_, fun _ none => nomatch none⟩
      rcases ending with same | verified
      · exact .inl (same ▸ records)
      · exact .inr ⟨rfl, verified⟩
  · have kept := @keeps_run config (stager.2.Records .stage) call commit answers time stager
      fun _ records => records
    exact ⟨fun metadata records => .inl (kept metadata records), fun same => absurd same commit⟩

/-- The stager after calls that nothing interferes with. -/
def calmly (config : PackageConfig) (calls : List StageCall) (stager : Stager) : Stager :=
  calls.foldl (fun stager call => settled (call.run config (fun _ => {}) 0 stager)) stager

theorem Staged.calmly (staged : Staged config stager) (calls : List StageCall) :
    Staged config (calmly config calls stager) := by
  induction calls generalizing stager with
  | nil => exact staged
  | cons call rest ih => exact ih (.call staged call _ 0)

/-- A device to which the package was written, and on which it was inspected. -/
@[irreducible] def inspectedStager : Stager :=
  calmly sampleBackends [.begin (UInt64.ofNat stagedPackage.length)
    (sampleBackends.digest.hex stagedPackage) (ascii "b") (ascii "t"),
    .write stagedPackage, .inspect] ({}, benchMachine [])

/-- The package is begun, written, inspected and committed: there is a valid Stage record then, and
the package file is what was written. -/
theorem stage_published_sample :
    let outcome := StageCall.commit.run sampleBackends (fun _ => {}) 0 inspectedStager
    outcome.value = some () ∧ (outcome.state.2.record .stage).map Metadata.valid = some true ∧
      Verified sampleBackends inspectedStager.1 outcome.state.2.store := by
  intro outcome
  have published : outcome.value = some () ∧
      (outcome.state.2.record .stage).map Metadata.valid = some true := by decide +kernel
  have staged : Staged sampleBackends inspectedStager := by
    unfold inspectedStager
    exact Staged.calmly (.fresh _) _
  refine ⟨published.1, published.2, ?_⟩
  exact (stage_published staged .commit (fun _ => {}) 0).2 rfl published.1

end Gizos.Loader
