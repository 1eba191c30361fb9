import Gizos.Bundle.Installer

/-! # File operations that may be cut

What the file operations of the installer can leave when a call fails or the device resets in the
middle of one: a file that is being written holds the front of its new contents, and every other
file is as it was.
-/
namespace Gizos.Bundle

open Fault Pal

variable {path content data : Bytes}

/-- The files after some have been written, one after the other. -/
def writeFiles (files : Bytes → Option Bytes) (writes : List (Bytes × Bytes)) :
    Bytes → Option Bytes :=
  writes.foldl (fun files write => Function.update files write.1 (some write.2)) files

/-- A file after some have been written depends on that file alone. -/
theorem writeFiles_congr {first second : Bytes → Option Bytes} (same : first path = second path)
    (writes : List (Bytes × Bytes)) :
    writeFiles first writes path = writeFiles second writes path := by
  induction writes generalizing first second with
  | nil => exact same
  | cons write rest ih =>
    refine ih ?_
    by_cases here : path = write.1
    · simp [here]
    · simp [here, same]

theorem writeFiles_other {files : Bytes → Option Bytes} {writes : List (Bytes × Bytes)}
    (other : ∀ write ∈ writes, write.1 ≠ path) :
    writeFiles files writes path = files path := by
  induction writes generalizing files with
  | nil => rfl
  | cons write rest ih =>
    refine (ih fun later member => other later (List.mem_cons_of_mem _ member)).trans ?_
    exact Function.update_of_ne (other write List.mem_cons_self).symm ..

variable {admits : Answer → Prop} {store : Storage}

/-- A file holds some front of these contents, and the other files are as before. -/
def Part (path content : Bytes) (before after : Storage) : Prop :=
  ∃ part, part <+: content ∧ after.files = Function.update before.files path (some part)

/-- A file has grown by the front of some data, and the other files are as before. -/
def Grown (path content data : Bytes) (before after : Storage) : Prop :=
  ∃ count, after.files = Function.update before.files path (some (content ++ data.take count))

theorem Grown.part {before after : Storage} (grown : Grown path content data before after) :
    Part path (content ++ data) before after := by
  obtain ⟨count, files⟩ := grown
  exact ⟨_, (List.prefix_append_right_inj content).mpr (List.take_prefix count data), files⟩

theorem ensures_fsWrite (present : store.files path = some content) :
    Ensures admits (fsWrite path data)
      (fun count after => after.files =
        Function.update store.files path (some (content ++ data.take count)))
      (fun _ => Grown path content data store) (Grown path content data store) store := by
  have none : Grown path content data store store := by
    refine ⟨0, ?_⟩
    rw [List.take_zero, List.append_nil, ← present, Function.update_eq_self]
  apply Ensures.call
  · intro answer count after _ replied
    dsimp only [Answer.reply] at replied
    rw [present] at replied
    split_ifs at replied with resets good effect
    · cases replied
      rfl
    · simp [Answer.effective, resets, good] at effect
  · intro answer code after _ replied
    dsimp only [Answer.reply] at replied
    rw [present, Option.getD_some] at replied
    split_ifs at replied <;> cases replied
    · exact ⟨_, rfl⟩
    · exact none
  · intro answer after _ replied
    dsimp only [Answer.reply] at replied
    rw [present, Option.getD_some] at replied
    split_ifs at replied <;> cases replied
    · exact ⟨_, rfl⟩
    · exact none

theorem ensures_fsWriteAll {fuel : Nat} (enough : data.length ≤ fuel)
    (present : store.files path = some content) :
    Ensures admits (fsWriteAll path fuel data)
      (fun _ after => after.files = Function.update store.files path (some (content ++ data)))
      (fun _ => Part path (content ++ data) store) (Part path (content ++ data) store) store := by
  induction fuel generalizing store content data with
  | zero =>
    obtain rfl : data = [] := List.eq_nil_of_length_eq_zero (Nat.le_zero.mp enough)
    refine .pure ?_
    rw [List.append_nil, ← present, Function.update_eq_self]
  | succ fuel ih =>
    unfold fsWriteAll
    split
    · rename_i none
      refine .pure ?_
      rw [none, List.append_nil, ← present, Function.update_eq_self]
    · refine .bind ((ensures_fsWrite present).mono (fun count middle moved => ?_)
        (fun _ _ => Grown.part) fun _ => Grown.part)
      refine .bind (.require (fun counted => ?_) fun _ => ?_)
      · have left : (data.drop count).length ≤ fuel := by
          rw [List.length_drop]
          omega
        have there : middle.files path = some (content ++ data.take count) := by
          rw [moved, Function.update_self]
        have same : content ++ data.take count ++ data.drop count = content ++ data := by
          rw [List.append_assoc, List.take_append_drop]
        have rest := ih left there
        rw [same] at rest
        refine rest.mono (fun _ after ended => ?_) (fun _ after ended => ?_) fun after ended => ?_
        · rw [ended, moved, Function.update_idem]
        · obtain ⟨part, front, files⟩ := ended
          exact ⟨part, front, by rw [files, moved, Function.update_idem]⟩
        · obtain ⟨part, front, files⟩ := ended
          exact ⟨part, front, by rw [files, moved, Function.update_idem]⟩
      · exact Grown.part ⟨count, moved⟩

/-- A file is replaced, or holds the front of its new contents, or has not been opened. -/
theorem ensures_fsWriteFile (path data : Bytes) :
    Ensures admits (fsWriteFile path data)
      (fun _ after => after.files = Function.update store.files path (some data))
      (fun _ after => after.files = store.files ∨ Part path data store after)
      (fun after => after.files = store.files ∨ Part path data store after) store := by
  have opened : Part path data store ((store.ask path).withFile path (some [])) :=
    ⟨[], List.nil_prefix, rfl⟩
  have there : ((store.ask path).withFile path (some [])).files path = some [] :=
    Storage.withFile_same ..
  refine .bind (.bind (.update (ensures_act ?_ (fun _ _ => .inl rfl)
    (fun _ _ => .inr opened) (.inl rfl) (.inr opened))))
  refine ensures_closingAfter (.bind ((ensures_fsWriteAll le_rfl there).mono ?_ ?_ ?_))
  · intro _ after written
    have files : after.files = Function.update store.files path (some data) := by
      rw [written]
      exact Function.update_idem ..
    have whole : Part path data store after := ⟨data, List.prefix_rfl, files⟩
    exact ensures_probe ⟨files, fun _ _ => .inr whole, .inr whole⟩
      (fun _ _ => ⟨.inr whole, .inr whole⟩) (.inr whole)
  · rintro _ after ⟨part, front, written⟩
    have some : Part path data store after :=
      ⟨part, front, written.trans (Function.update_idem ..)⟩
    exact ⟨.inr some, .inr some⟩
  · rintro after ⟨part, front, written⟩
    exact .inr ⟨part, front, written.trans (Function.update_idem ..)⟩

theorem ensures_fsRemoveOptional (path : Bytes) :
    Ensures Answer.Honest (fsRemoveOptional path)
      (fun _ after => after.files = Function.update store.files path none)
      (fun _ after => after.files = store.files ∨
        after.files = Function.update store.files path none)
      (fun after => after.files = store.files ∨
        after.files = Function.update store.files path none) store := by
  have honest : ∀ {code : Int}, Answer.Reports Answer.Honest code → code ≠ errNotFound := by
    rintro _ reports rfl
    exact Answer.not_reports_honest reports
  refine .recovering (.bind (.read (.bind (.require
    (fun _ => ensures_act rfl (fun code reports => ?_) (fun code reports => ?_) (.inl rfl)
      (.inr rfl)) fun absent => ?_))))
  · rw [if_neg (honest reports)]
    exact .fail (.inl rfl)
  · rw [if_neg (honest reports)]
    exact .fail (.inr rfl)
  · have missing : store.files path = none := by simpa using absent
    exact .pure (Function.update_eq_self_iff.mpr missing.symm).symm

theorem leaves_fsMakeDir (path : Bytes) : Leaves Storage.files (fsMakeDir path) :=
  .bind (.update fun _ => rfl) fun _ => leaves_probe _

theorem leaves_makeDirAll (path : Bytes) : Leaves Storage.files (makeDirAll path) := by
  have parents : ∀ places : List Nat,
      Leaves Storage.files (places.forM fun index => makeParent (path.take index)) := by
    intro places
    induction places with
    | nil => exact .pure _
    | cons index rest ih =>
      refine .bind (.recovering (leaves_fsMakeDir _) fun code => ?_) fun _ => ih
      split
      · exact .pure _
      · exact .fail _
  exact .bind (.require _ _) fun _ => .bind (.require _ _) fun _ =>
    .bind (parents _) fun _ => leaves_fsMakeDir path

theorem leaves_ensureParentDirs (path : Bytes) : Leaves Storage.files (ensureParentDirs path) := by
  unfold ensureParentDirs
  dsimp only
  split
  · exact .pure _
  · exact .recovering (leaves_makeDirAll _) fun _ => .fail _

/-- Files are unpacked, or some of them, and a file that is none of them is as before. -/
theorem ensures_extractFiles {writes : List (Bytes × Bytes)} {guarded : Bytes}
    (apart : ∀ write ∈ writes, write.1 ≠ guarded) :
    Ensures admits (extractFiles writes)
      (fun _ after => after.files = writeFiles store.files writes)
      (fun _ after => after.files guarded = store.files guarded)
      (fun after => after.files guarded = store.files guarded) store := by
  induction writes generalizing store with
  | nil => exact .pure rfl
  | cons write rest ih =>
    have other := apart write List.mem_cons_self
    refine .bind (.leaving (leaves_ensureParentDirs write.1) (.trivially ?_
      (fun _ after same => by rw [same]) fun after same => by rw [same]))
    intro _ middle made
    have spared : ∀ {after : Storage}, after.files = middle.files ∨ Part write.1 write.2
      middle after → after.files guarded = store.files guarded := by
      rintro after (same | ⟨part, -, files⟩)
      · rw [same, made]
      · rw [files, Function.update_of_ne other.symm, made]
    refine .bind ((ensures_fsWriteFile write.1 write.2).mono ?_ (fun _ _ => spared) fun _ => spared)
    intro _ after written
    rw [made] at written
    refine (ih fun later member => apart later (List.mem_cons_of_mem _ member)).mono ?_ ?_ ?_
    · intro _ last ended
      rw [ended, written]
      rfl
    · intro _ last ended
      rw [ended, written, Function.update_of_ne other.symm]
    · intro last ended
      rw [ended, written, Function.update_of_ne other.symm]

end Gizos.Bundle
