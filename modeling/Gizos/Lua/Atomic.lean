import Gizos.Lua.Shelf

/-! # Storage operations are atomic

Every operation of the script storage has its whole effect on the files and the blob, or none: the
first when it returns, the second when it fails, and either one when the device resets inside it.
The index, the temporary files and the directories may move in every case, and the shelf stays
within its limits in every case.
-/
namespace Gizos.Lua

open Fault Pal Gizos.Lua.Shelf Disk

variable {name data oldName newName content : Bytes} {after : Disk} {entries : List Entry}
  {index : Nat} {contents old : Contents}

/-- The names of the files that make up a shelf. -/
def shelfName (name : Bytes) : Prop :=
  nameIsValid name nameMax = true ∨ name = indexName ∨ name = kvName

theorem ne_of_shelfName {temp : Bytes} (part : shelfName name) (starts : temp.head? = some 0x2e)
    (other : temp ≠ indexName ∧ temp ≠ kvName) : name ≠ temp := by
  rcases part with valid | rfl | rfl
  · exact ne_of_valid valid starts
  · exact other.1.symm
  · exact other.2.symm

/-- Some path is no file of the shelf. -/
def Job.Beside (job : Job) (path : Bytes) : Prop := ∀ name, shelfName name → job.path name ≠ path

namespace Job

variable (job : Job)

theorem beside_temp {temp : Bytes} (starts : temp.head? = some 0x2e)
    (other : temp ≠ indexName ∧ temp ≠ kvName) : job.Beside (job.path temp) :=
  fun _ part same => ne_of_shelfName part starts other (job.path_inj.mp same)

theorem beside_indexTemp : job.Beside (job.path indexTempName) :=
  job.beside_temp rfl (by decide)

theorem beside_dataTemp : job.Beside (job.path dataTempName) := job.beside_temp rfl (by decide)

theorem beside_kvTemp : job.Beside (job.path kvTempName) := job.beside_temp rfl (by decide)

theorem beside_parents {path : Bytes} (member : path ∈ job.parents) : job.Beside path := by
  intro name _
  refine job.path_ne_of_length ?_
  obtain ⟨index, _, rfl⟩ := List.mem_map.mp member
  exact List.length_take_le' index job.directory

end Job

section Frame

variable {job : Job} {disk after : Disk} {shelf : Shelf job}

section

variable (represents : Represents disk shelf)

include represents

theorem Represents.beside {touched : List Bytes} (agree : Disk.AgreeOff touched disk after)
    (apart : ∀ path ∈ touched, job.Beside path) :
    Represents after shelf := by
  have same : ∀ name, shelfName name → after.find (job.path name) = disk.find (job.path name) :=
    fun name part => agree _ fun member => apart _ member name part rfl
  constructor
  · intro name valid
    rw [same name (.inl valid)]
    exact represents.files name valid
  · rw [same indexName (.inr (.inl rfl))]
    exact represents.index
  · rw [same kvName (.inr (.inr rfl))]
    exact represents.kv

theorem Represents.aside {path : Bytes} (apart : job.Beside path)
    (agree : Disk.AgreeOff [path] disk after) :
    Represents after shelf := by
  refine represents.beside agree fun other member => ?_
  rw [List.mem_singleton.mp member]
  exact apart

theorem Represents.survives (survives : Disk.Survives disk after) : Represents after shelf where
  files name valid := survives.synced (represents.files name valid)
  index := survives.synced represents.index
  kv := survives.synced represents.kv

end

end Frame

/-- A file was replaced through a temporary one: it holds the data, synchronised, and nothing else
but the temporary file changed. -/
structure Replaced (job : Job) (tempName targetName data : Bytes) (disk after : Disk) : Prop where
  target : after.find (job.path targetName) = some (.file data true)
  rest : Disk.AgreeOff [job.path tempName, job.path targetName] disk after

namespace Replaced

variable {job : Job} {disk after : Disk} {tempName targetName data : Bytes}

theorem same (replaced : Replaced job tempName targetName data disk after)
    (apart : job.Beside (job.path tempName)) (part : shelfName name) (other : name ≠ targetName) :
    after.find (job.path name) = disk.find (job.path name) := by
  apply replaced.rest
  simp only [List.mem_cons, List.not_mem_nil, or_false, not_or]
  exact ⟨apart name part, fun same => other (job.path_inj.mp same)⟩

end Replaced

section Writing

variable {job : Job} {disk : Disk} {admits : Answer → Prop} {onReturn : Unit → Disk → Prop}
  {onFail : Int → Disk → Prop} {onReset : Disk → Prop}

/-- Names that may become the index of a shelf. -/
structure Covers (shelf : Shelf job) (names : List Bytes) : Prop where
  valid : ∀ name ∈ names, nameIsValid name nameMax = true
  nodup : names.Nodup
  bounded : names.length ≤ job.entryCapacity
  listed : ∀ name, shelf.files name ≠ none → name ∈ names

theorem Represents.relist {shelf : Shelf job} {names : List Bytes} {after : Disk}
    (represents : Represents disk shelf) (covers : Covers shelf names)
    (replaced : Replaced job indexTempName indexName (indexText names) disk after) :
    Represents after
      (shelf.relist names covers.valid covers.nodup covers.bounded covers.listed) := by
  have apart := job.beside_indexTemp
  constructor
  · intro name valid
    rw [replaced.same apart (.inl valid) (ne_of_valid valid rfl)]
    exact represents.files name valid
  · exact replaced.target
  · rw [replaced.same apart (.inr (.inr rfl)) (by decide)]
    exact represents.kv

variable (clean : ∀ answer, admits answer → answer.Clean)

include clean

theorem ensures_replace {tempName targetName : Bytes}
    (returns : ∀ after, Replaced job tempName targetName data disk after → onReturn () after)
    (fails : ∀ code after, Disk.AgreeOff [job.path tempName] disk after → onFail code after)
    (before : ∀ after, Disk.AgreeOff [job.path tempName] disk after → onReset after)
    (cut : ∀ after, Replaced job tempName targetName data disk after → onReset after) :
    Ensures admits (job.replace tempName targetName data) onReturn onFail onReset disk := by
  have inside : job.path tempName ∈ [job.path tempName] := List.mem_singleton_self _
  -- Whatever failed, the temporary file is removed as far as that works.
  have cleaned : ∀ code after, Disk.AgreeOff [job.path tempName] disk after →
      Ensures admits (do (fsUnlink (job.path tempName)).ignoring; Program.fail code) onReturn onFail
        onReset after := by
    intro code after agree
    apply Ensures.bind
    apply Ensures.ignoring
    have failed : ∀ after, Disk.AgreeOff [job.path tempName] disk after →
        Ensures admits (Program.fail code) onReturn onFail onReset after :=
      fun after agree => .fail (fails code after agree)
    have dropped := agree.drop inside
    exact ensures_fsUnlink (failed _ dropped) (fun _ => failed _ agree) (failed _ agree)
      (fun _ _ => failed _ agree) (fun _ _ => failed _ dropped) (before _ agree) (before _ dropped)
  have written : ∀ content synced, Disk.AgreeOff [job.path tempName] disk
      (disk.put (job.path tempName) (.file content synced)) :=
    fun content synced => (Disk.AgreeOff.refl _ disk).put inside _
  have replaced : Replaced job tempName targetName data disk
      (((disk.put (job.path tempName) (.file data true)).drop (job.path tempName)).put
        (job.path targetName) (.file data true)) := by
    refine ⟨find_put_self, ?_⟩
    refine Disk.AgreeOff.put (Disk.AgreeOff.drop (Disk.AgreeOff.put (.refl _ disk) ?_ _) ?_) ?_ _
    all_goals simp
  apply Ensures.recovering
  apply Ensures.bind
  apply ensures_asStatus
  refine ensures_fsWriteWhole clean ?_ (fun code => cleaned _ _ (.refl _ _))
    (fun code content synced => cleaned _ _ (written _ _)) (before _ (.refl _ _))
    fun content synced => before _ (written _ _)
  apply Ensures.recovering
  refine ensures_fsRename clean ?_ ?_ (before _ (written _ _)) ?_
  · intro content synced found
    rw [find_put_self] at found
    cases found
    exact returns _ replaced
  · intro code
    split
    · exact .fail (cleaned _ _ (written _ _))
    · exact .fail (cleaned _ _ (written _ _))
  · intro content synced found
    rw [find_put_self] at found
    cases found
    exact cut _ replaced

theorem ensures_makeDirs {shelf : Shelf job} {paths : List Bytes}
    (apart : ∀ path ∈ paths, job.Beside path) (represents : Represents disk shelf)
    (returns : ∀ after, Represents after shelf → onReturn () after)
    (resets : ∀ after, Represents after shelf → onReset after) :
    Ensures admits (Job.makeDirs paths) onReturn onFail onReset disk := by
  induction paths generalizing disk with
  | nil => exact .pure (returns disk represents)
  | cons path rest ih =>
    have made : Represents (disk.put path .directory) shelf :=
      represents.aside (apart path List.mem_cons_self) ((Disk.AgreeOff.refl _ disk).put (by simp) _)
    have later : ∀ after, Represents after shelf →
        Ensures admits (Job.makeDirs rest) onReturn onFail onReset after :=
      fun after held => ih (fun other member => apart other (List.mem_cons_of_mem path member)) held
    apply Ensures.bind
    apply Ensures.ignoring
    exact ensures_fsMkdir clean (fun _ => later _ represents) (fun _ => later _ made)
      (fun _ => later _ represents) (resets _ represents) fun _ => resets _ made

/-- Making the application's directory changes nothing of the shelf. -/
theorem ensures_ensureDir {shelf : Shelf job} (represents : Represents disk shelf)
    (returns : ∀ after, Represents after shelf → onReturn () after)
    (fails : ∀ code after, Represents after shelf → onFail code after)
    (resets : ∀ after, Represents after shelf → onReset after) :
    Ensures admits job.ensureDir onReturn onFail onReset disk := by
  have checked : ∀ after, Represents after shelf → Ensures admits (fsStat job.directory)
      (fun stat => Ensures admits (demand stat.isDir .io) onReturn onFail onReset)
      (fun _ => Ensures admits (refuse .io) onReturn onFail onReset) onReset after := by
    intro after held
    refine ensures_fsStat ?_ (fun _ => ?_) (fun _ _ => ?_) (resets after held)
    · intro node _
      exact .require (fun _ => returns after held) fun _ => fails _ after held
    · exact .fail (fails _ after held)
    · exact .fail (fails _ after held)
  apply Ensures.bind
  refine ensures_makeDirs clean (fun _ => job.beside_parents) represents (fun between held => ?_)
    resets
  have made : Represents (between.put job.directory .directory) shelf :=
    held.aside (fun _ _ => job.path_ne_of_length le_rfl)
      ((Disk.AgreeOff.refl _ between).put (by simp) _)
  apply Ensures.bind
  apply Ensures.ignoring
  exact ensures_fsMkdir clean (fun _ => .bind (.attempt (checked _ held)))
    (fun _ => .bind (.attempt (checked _ made))) (fun _ => .bind (.attempt (checked _ held)))
    (resets _ held) fun _ => resets _ made

theorem ensures_saveIndex {shelf : Shelf job} {entries : List Entry}
    (represents : Represents disk shelf) (covers : Covers shelf (entries.map Entry.name))
    (returns : ∀ after (later : Shelf job), Represents after later →
      later.toContents = shelf.toContents → later.names = entries.map Entry.name →
      onReturn () after) (fails : ∀ code after, Represents after shelf → onFail code after)
    (resets : ∀ after (later : Shelf job), Represents after later →
      later.toContents = shelf.toContents → onReset after) :
    Ensures admits (job.saveIndex entries) onReturn onFail onReset disk := by
  have aside : ∀ after, Disk.AgreeOff [job.path indexTempName] disk after →
      Represents after shelf := fun _ => represents.aside job.beside_indexTemp
  refine ensures_replace clean ?_ (fun code after agree => fails code after (aside after agree))
    (fun after agree => resets after shelf (aside after agree) rfl) ?_
  · intro after replaced
    exact returns after _ (represents.relist covers replaced) rfl rfl
  · intro after replaced
    exact resets after _ (represents.relist covers replaced) rfl

end Writing

section Scratch

variable {job : Job}

theorem addSizes_eq {used : Nat} (fits : used + (entries.map Entry.size).sum < 2 ^ 64) :
    Scratch.addSizes used entries = used + (entries.map Entry.size).sum := by
  induction entries generalizing used with
  | nil => simp [Scratch.addSizes]
  | cons entry rest ih =>
    rw [List.map_cons, List.sum_cons] at fits ⊢
    unfold Scratch.addSizes
    rw [if_neg (by omega), ih (by omega)]
    omega

variable (shelf : Shelf job)

theorem Shelf.bytes_le :
    total fileBytes shelf.files shelf.names + fileBytes shelf.kv ≤ job.quotaBytes :=
  shelf.within

theorem Shelf.count_le :
    total fileCount shelf.files shelf.names + fileCount shelf.kv ≤ job.maxFiles :=
  shelf.few

theorem Shelf.sum_entries :
    (shelf.scratch.entries.map Entry.size).sum = total fileBytes shelf.files shelf.names :=
  sum_entriesOf shelf.nodup

theorem Shelf.length_entries :
    shelf.scratch.entries.length = total fileCount shelf.files shelf.names :=
  length_entriesOf shelf.nodup

theorem Shelf.kv_size : shelf.scratch.kv.getD 0 = fileBytes shelf.kv := by
  unfold Shelf.scratch fileBytes
  cases shelf.kv <;> rfl

theorem Shelf.kv_count : shelf.scratch.kvCount = fileCount shelf.kv := by
  unfold Shelf.scratch Scratch.kvCount fileCount
  cases shelf.kv <;> rfl

theorem Shelf.entry_names : shelf.scratch.entries.map Entry.name =
    shelf.names.filter fun name => (shelf.files name).isSome :=
  map_name_entriesOf

variable {shelf} {name : Bytes}

theorem Shelf.find_some (found : shelf.scratch.find name = some index) :
    ∃ content, shelf.files name = some content ∧
      shelf.scratch.entries[index]? = some ⟨name, content.length⟩ := by
  obtain ⟨inside, matched, _⟩ := List.findIdx?_eq_some_iff_getElem.mp found
  have entry : shelf.scratch.entries[index].name = name := by simpa using matched
  obtain ⟨content, file, size⟩ := mem_entriesOf (List.getElem_mem inside)
  rw [entry] at file
  refine ⟨content, file, ?_⟩
  rw [List.getElem?_eq_getElem inside, ← entry, ← size]

theorem Shelf.find_none (missing : shelf.scratch.find name = none) : shelf.files name = none := by
  by_contra present
  have inside : name ∈ shelf.scratch.entries.map Entry.name := by
    rw [shelf.entry_names, List.mem_filter]
    exact ⟨shelf.listed name present, Option.isSome_iff_ne_none.mpr present⟩
  obtain ⟨entry, member, rfl⟩ := List.mem_map.mp inside
  have other := List.findIdx?_eq_none_iff.mp missing entry member
  simp at other

theorem Shelf.find_isSome : (shelf.scratch.find name).isSome ↔ shelf.files name ≠ none := by
  constructor
  · intro found
    obtain ⟨index, found⟩ := Option.isSome_iff_exists.mp found
    obtain ⟨content, file, _⟩ := find_some found
    rw [file]
    exact Option.some_ne_none content
  · intro present
    by_contra missing
    exact present (find_none (Option.not_isSome_iff_eq_none.mp missing))

theorem sum_eraseIdx {values : List Nat} {value : Nat} (there : values[index]? = some value) :
    (values.eraseIdx index).sum + value = values.sum := by
  induction values generalizing index with
  | nil => cases there
  | cons first rest ih =>
    cases index with
    | zero =>
      cases there
      simp [Nat.add_comm]
    | succ index =>
      have rests : (rest.eraseIdx index).sum + value = rest.sum := ih (by simpa using there)
      simp only [List.eraseIdx_cons_succ, List.sum_cons]
      omega

/-- What the other files take is counted exactly. -/
theorem Shelf.usedExcept_eq : shelf.scratch.usedExcept (shelf.scratch.find name) true +
    fileBytes (shelf.files name) =
      total fileBytes shelf.files shelf.names + fileBytes shelf.kv := by
  have within := shelf.bytes_le
  have fits := job.quota_fits
  have sum := shelf.sum_entries
  unfold Scratch.usedExcept
  rw [if_pos rfl, shelf.kv_size]
  cases found : shelf.scratch.find name with
  | none =>
    have size : fileBytes (shelf.files name) = 0 := by rw [find_none found]; rfl
    dsimp only
    rw [addSizes_eq (by omega)]
    omega
  | some index =>
    obtain ⟨content, file, entry⟩ := find_some found
    have erased : ((shelf.scratch.entries.map Entry.size).eraseIdx index).sum + content.length =
        (shelf.scratch.entries.map Entry.size).sum := by
      apply sum_eraseIdx
      rw [List.getElem?_map, entry]
      rfl
    rw [List.eraseIdx_map] at erased
    have size : fileBytes (shelf.files name) = content.length := by rw [file]; rfl
    dsimp only
    rw [addSizes_eq (by omega)]
    omega

theorem Shelf.usedExcept_none : shelf.scratch.usedExcept none false =
    total fileBytes shelf.files shelf.names := by
  have within := shelf.bytes_le
  have fits := job.quota_fits
  have sum := shelf.sum_entries
  unfold Scratch.usedExcept
  dsimp only
  rw [if_neg Bool.false_ne_true, addSizes_eq (by omega)]
  omega

end Scratch

/-- The disk keeps these contents within the limits of the application. -/
def Holds (job : Job) (contents : Contents) (disk : Disk) : Prop :=
  ∃ shelf : Shelf job, Represents disk shelf ∧ shelf.toContents = contents

theorem Holds.survives {job : Job} {disk : Disk} (holds : Holds job contents disk)
    (survives : Disk.Survives disk after) :
    Holds job contents after := by
  obtain ⟨shelf, represents, same⟩ := holds
  exact ⟨shelf, represents.survives survives, same⟩

/-- The program ends with the new contents when it returns, with the old ones when it fails, and
with either when the device resets. -/
def Switches (admits : Answer → Prop) (job : Job) (body : Routine Disk Unit) (old new : Contents)
    (disk : Disk) : Prop :=
  Ensures admits body (fun _ => Holds job new) (fun _ => Holds job old)
    (fun after => Holds job old after ∨ Holds job new after) disk

section Covering

variable {job : Job} {shelf later : Shelf job} {name : Bytes}

/-- The names that have a file may become the index. -/
theorem Shelf.covers_entries : Covers shelf (shelf.scratch.entries.map Entry.name) := by
  rw [shelf.entry_names]
  refine ⟨?_, shelf.nodup.filter _, (List.length_filter_le _ _).trans shelf.bounded, ?_⟩
  · intro name member
    exact shelf.valid name (List.mem_filter.mp member).1
  · intro name present
    exact List.mem_filter.mpr ⟨shelf.listed name present, Option.isSome_iff_ne_none.mpr present⟩

/-- A name without a file may join the index while there is room. -/
theorem Shelf.covers_append (valid : nameIsValid name nameMax = true)
    (missing : shelf.scratch.find name = none)
    (room : shelf.scratch.entries.length < job.entryCapacity) (size : Nat) :
    Covers shelf ((shelf.scratch.entries ++ [(⟨name, size⟩ : Entry)]).map Entry.name) := by
  have covers : Covers shelf (shelf.scratch.entries.map Entry.name) := covers_entries
  have fresh : name ∉ shelf.scratch.entries.map Entry.name := by
    rw [shelf.entry_names, List.mem_filter, find_none missing]
    simp
  rw [List.map_append]
  constructor
  · intro other member
    rcases List.mem_append.mp member with old | new
    · exact covers.valid other old
    · rw [List.mem_singleton.mp new]
      exact valid
  · refine List.nodup_append.mpr ⟨covers.nodup, List.nodup_singleton _, ?_⟩
    intro other old added new same
    have last : other = name := same.trans (List.mem_singleton.mp new)
    exact fresh (last ▸ old)
  · rw [List.length_append, List.length_map]
    exact room
  · intro other present
    exact List.mem_append_left _ (covers.listed other present)

theorem Covers.transfer {names : List Bytes} (covers : Covers shelf names)
    (same : later.toContents = shelf.toContents) : Covers later names := by
  have files : later.files = shelf.files := congrArg Contents.files same
  exact ⟨covers.valid, covers.nodup, covers.bounded, files ▸ covers.listed⟩

theorem Covers.erase {names : List Bytes} (covers : Covers shelf names)
    (there : names[index]? = some name)
    (others : ∀ other, later.files other ≠ none → other ≠ name ∧ other ∈ names) :
    Covers later (names.eraseIdx index) := by
  constructor
  · intro other member
    exact covers.valid other (List.mem_of_mem_eraseIdx member)
  · exact covers.nodup.sublist (List.eraseIdx_sublist names index)
  · exact (List.eraseIdx_sublist names index).length_le.trans covers.bounded
  · intro other present
    obtain ⟨differs, listed⟩ := others other present
    obtain ⟨place, found⟩ := List.getElem?_of_mem listed
    have elsewhere : place ≠ index := by
      rintro rfl
      rw [found] at there
      exact differs (Option.some.inj there)
    exact List.mem_eraseIdx_iff_getElem?.mpr ⟨place, elsewhere, found⟩

end Covering

section Operations

variable {job : Job} {disk : Disk} {shelf later : Shelf job} {admits : Answer → Prop}

theorem Shelf.Room.transfer {file : Option Bytes} (room : shelf.Room name file)
    (same : later.toContents = shelf.toContents) : later.Room name file := by
  have files : later.files = shelf.files := congrArg Contents.files same
  have kv : later.kv = shelf.kv := congrArg Contents.kv same
  constructor
  · rw [files, kv]
    refine (Nat.add_le_add_right (Nat.add_le_add_right ?_ _) _).trans room.within
    exact total_le_of_covers rfl shelf.listed
  · rw [files, kv]
    refine (Nat.add_le_add_right (Nat.add_le_add_right ?_ _) _).trans room.few
    exact total_le_of_covers rfl shelf.listed

theorem Shelf.room_of_checks (few : (shelf.scratch.find name).isSome ∨
      shelf.scratch.entries.length + shelf.scratch.kvCount < job.maxFiles)
    (fits : data.length ≤ job.quotaBytes ∧
      shelf.scratch.usedExcept (shelf.scratch.find name) true ≤ job.quotaBytes - data.length) :
    shelf.Room name (some data) := by
  have size : fileBytes (some data) = data.length := rfl
  have one : fileCount (some data) = 1 := rfl
  constructor
  · have used := @Shelf.usedExcept_eq job shelf name
    omega
  · have already := shelf.count_le
    rcases few with found | small
    · obtain ⟨content, file⟩ := Option.ne_none_iff_exists'.mp (find_isSome.mp found)
      have held : fileCount (shelf.files name) = 1 := by rw [file]; rfl
      omega
    · rw [shelf.length_entries, shelf.kv_count] at small
      omega

theorem Shelf.room_none (shelf : Shelf job) (name : Bytes) : shelf.Room name none :=
  ⟨shelf.bytes_le.trans (Nat.le_add_right _ _), shelf.count_le.trans (Nat.le_add_right _ _)⟩

/-- A file that is taken from its name leaves room for itself under another one. -/
theorem Shelf.room_moved (listed : oldName ∈ shelf.names)
    (file : shelf.files oldName = some content) :
    (shelf.withFile oldName none listed (shelf.room_none oldName)).Room newName (some content) := by
  have moved : ∀ {weight : Option Bytes → Nat} {limit : Nat}, weight none = 0 →
      total weight shelf.files shelf.names + weight shelf.kv ≤ limit →
      total weight (Function.update shelf.files oldName none) shelf.names + weight shelf.kv +
        weight (some content) ≤ limit := by
    intro weight limit nothing within
    have changed := @total_update weight shelf.files shelf.names oldName none listed
    rw [file] at changed
    omega
  exact ⟨(moved rfl shelf.within).trans (Nat.le_add_right _ _),
    (moved rfl shelf.few).trans (Nat.le_add_right _ _)⟩

section

variable (represents : Represents disk shelf)

include represents

theorem Represents.holds : Holds job shelf.toContents disk :=
  ⟨shelf, represents, rfl⟩

theorem Represents.withFile {file : Option Bytes} (valid : nameIsValid name nameMax = true)
    (listed : name ∈ shelf.names) (room : shelf.Room name file)
    (stored : after.find (job.path name) = file.map (Node.file · true))
    (others : ∀ other, shelfName other → other ≠ name →
      after.find (job.path other) = disk.find (job.path other)) :
    Represents after (shelf.withFile name file listed room) := by
  constructor
  · intro other usable
    by_cases same : other = name
    · subst same
      rw [stored]
      simp [Shelf.withFile, Contents.withFile]
    · rw [others other (.inl usable) same, represents.files other usable]
      simp [Shelf.withFile, Contents.withFile, Function.update_of_ne same]
  · rw [others _ (.inr (.inl rfl)) (ne_of_valid valid rfl).symm]
    exact represents.index
  · rw [others _ (.inr (.inr rfl)) (ne_of_valid valid rfl).symm]
    exact represents.kv

theorem Represents.drop (valid : nameIsValid name nameMax = true) (listed : name ∈ shelf.names) :
    Represents (disk.drop (job.path name))
      (shelf.withFile name none listed (shelf.room_none name)) :=
  represents.withFile valid listed _ find_drop_self fun _ _ differs =>
    find_drop_of_ne fun same => differs (job.path_inj.mp same)

theorem Represents.move {synced : Bool} (oldValid : nameIsValid oldName nameMax = true)
    (newValid : nameIsValid newName nameMax = true) (oldListed : oldName ∈ shelf.names)
    (newListed : newName ∈ shelf.names)
    (found : disk.find (job.path oldName) = some (.file content synced)) :
    Holds job (shelf.toContents.renamed oldName newName)
      ((disk.drop (job.path oldName)).put (job.path newName) (.file content synced)) := by
  rw [represents.files oldName oldValid, Option.map_eq_some_iff] at found
  obtain ⟨bytes, file, same⟩ := found
  cases same
  have dropped := represents.drop oldValid oldListed
  have moved := dropped.withFile newValid newListed (room_moved oldListed file)
    find_put_self fun other _ differs =>
      find_put_of_ne fun same => differs (job.path_inj.mp same)
  refine ⟨_, moved, ?_⟩
  unfold Contents.renamed
  rw [file]
  rfl

theorem Represents.withKv {blob : Option Bytes}
    (within : total fileBytes shelf.files shelf.names + fileBytes blob ≤ job.quotaBytes)
    (few : total fileCount shelf.files shelf.names + fileCount blob ≤ job.maxFiles)
    (stored : after.find (job.path kvName) = blob.map (Node.file · true))
    (others : ∀ name, shelfName name → name ≠ kvName →
      after.find (job.path name) = disk.find (job.path name)) :
    Represents after (shelf.withKv blob within few) := by
  constructor
  · intro name valid
    rw [others name (.inl valid) (ne_of_valid valid rfl)]
    exact represents.files name valid
  · rw [others _ (.inr (.inl rfl)) (by decide)]
    exact represents.index
  · exact stored

end

variable (clean : ∀ answer, admits answer → answer.Clean)

include clean

section

variable (represents : Represents disk shelf)

include represents

/-- Replacing a listed file has its whole effect, or none and is answered by a recovery that
fails. -/
theorem switches_replaceFile {recovery : Int → Routine Disk Unit} (same : shelf.toContents = old)
    (valid : nameIsValid name nameMax = true) (listed : name ∈ shelf.names)
    (room : shelf.Room name (some data))
    (recovers : ∀ code after, Represents after shelf →
      Switches admits job (recovery code) old (old.withFile name (some data)) after) :
    Switches admits job ((job.replace dataTempName name data).recovering recovery)
      old (old.withFile name (some data)) disk := by
  subst same
  have aside : ∀ after, Disk.AgreeOff [job.path dataTempName] disk after →
      Represents after shelf := fun _ => represents.aside job.beside_dataTemp
  have done : ∀ after, Replaced job dataTempName name data disk after →
      Holds job (shelf.toContents.withFile name (some data)) after :=
    fun after replaced => (represents.withFile valid listed room replaced.target
      fun other part differs => replaced.same job.beside_dataTemp part differs).holds
  apply Ensures.recovering
  exact ensures_replace clean (fun after replaced => done after replaced)
    (fun code after agree => recovers code after (aside after agree))
    (fun after agree => .inl (aside after agree).holds)
    fun after replaced => .inr (done after replaced)

theorem ensures_saveEntries {new : Contents} {onReturn : Unit → Disk → Prop}
    (same : shelf.toContents = old) (covers : Covers shelf (entries.map Entry.name))
    (returns : ∀ after (later : Shelf job), Represents after later → later.toContents = old →
      later.names = entries.map Entry.name → onReturn () after) :
    Ensures admits (job.saveIndex entries) onReturn (fun _ => Holds job old)
      (fun after => Holds job old after ∨ Holds job new after) disk := by
  subst same
  exact ensures_saveIndex clean represents covers returns (fun _ _ held => held.holds)
    fun after later held same => .inl ⟨later, held, same⟩

/-- Saving the names for its effect changes no contents, whether or not it works. -/
theorem ensures_saveIgnored {kept : Contents} {onReturn : Unit → Disk → Prop}
    {onFail : Int → Disk → Prop} {onReset : Disk → Prop} (same : shelf.toContents = kept)
    (covers : Covers shelf (entries.map Entry.name))
    (returns : ∀ after, Holds job kept after → onReturn () after)
    (resets : ∀ after, Holds job kept after → onReset after) :
    Ensures admits (job.saveIndex entries).ignoring onReturn onFail onReset disk := by
  subst same
  apply Ensures.ignoring
  exact ensures_saveIndex clean represents covers
    (fun after later held same _ => returns after ⟨later, held, same⟩)
    (fun _ after held => returns after held.holds)
    fun after later held same => resets after ⟨later, held, same⟩

theorem switches_moveListed (same : shelf.toContents = old)
    (oldValid : nameIsValid oldName nameMax = true)
    (newValid : nameIsValid newName nameMax = true) (differ : oldName ≠ newName)
    (file : shelf.files oldName = some content) (newListed : newName ∈ shelf.names)
    (covers : Covers shelf (entries.map Entry.name)) (newEntry : newName ∈ entries.map Entry.name)
    (place : (entries.map Entry.name)[index]? = some oldName) :
    Switches admits job (job.moveListed oldName newName entries index) old
      (old.renamed oldName newName) disk := by
  subst same
  have oldListed : oldName ∈ shelf.names :=
    shelf.listed oldName (by rw [file]; exact Option.some_ne_none content)
  apply Ensures.bind
  apply Ensures.recovering
  refine ensures_fsRename clean ?_ ?_ (.inl represents.holds) ?_
  · intro bytes synced found
    obtain ⟨moved, held, contents⟩ :=
      represents.move oldValid newValid oldListed newListed found
    have left : Covers moved ((entries.eraseIdx index).map Entry.name) := by
      rw [← List.eraseIdx_map]
      refine covers.erase place fun other there => ?_
      rw [congrArg Contents.files contents] at there
      by_cases new : other = newName
      · subst new
        exact ⟨differ.symm, newEntry⟩
      · have differs : other ≠ oldName := by
          rintro rfl
          simp [Contents.renamed, Contents.withFile, differ] at there
        refine ⟨differs, covers.listed other ?_⟩
        simpa [Contents.renamed, Contents.withFile, new, differs] using there
    exact ensures_saveIgnored clean held contents left (fun _ => id) fun _ holds => .inr holds
  · intro code
    split
    · exact .fail represents.holds
    · exact .fail represents.holds
  · intro bytes synced found
    exact .inr (represents.move oldValid newValid oldListed newListed found)

end

section

variable (holds : Holds job contents disk)

include holds

/-- A write of a file has its whole effect when it returns and none when it fails. -/
theorem switches_writeLocked (valid : nameIsValid name nameMax = true) :
    Switches admits job (job.writeLocked name data) contents
      (contents.withFile name (some data)) disk := by
  obtain ⟨shelf, represents, rfl⟩ := holds
  apply Ensures.bind
  refine ensures_loadIndex clean represents ?_ (fun _ => represents.holds) (.inl represents.holds)
  apply Ensures.bind
  refine .require (fun few => ?_) fun _ => represents.holds
  apply Ensures.bind
  refine .require (fun fits => ?_) fun _ => represents.holds
  have room := room_of_checks few fits
  apply Ensures.bind
  refine ensures_ensureDir clean represents ?_ (fun _ _ held => held.holds)
    fun _ held => .inl held.holds
  intro between ready
  apply Ensures.bind
  cases found : shelf.scratch.find name with
  | some index =>
    have replaced : ∀ after (later : Shelf job), Represents after later →
        later.toContents = shelf.toContents →
        Switches admits job ((job.replace dataTempName name data).recovering fun status => do
          Program.onlyIf false (job.saveIndex (shelf.scratch.entries.eraseIdx
            (shelf.scratch.entries.length - 1))).ignoring
          Program.fail status) shelf.toContents (shelf.toContents.withFile name (some data))
          after := by
      intro after later held same
      have present : later.files name ≠ none := by
        rw [congrArg Contents.files same]
        exact find_isSome.mp (by rw [found]; rfl)
      refine switches_replaceFile clean held same valid (later.listed name present)
        (room.transfer same) fun code after held => ?_
      exact .bind (.pure (.fail ⟨later, held, same⟩))
    refine .onlyIf (fun _ => ?_) fun _ => replaced between shelf ready rfl
    exact ensures_saveEntries clean ready rfl covers_entries
      fun after later held same _ => replaced after later held same
  | none =>
    have small : shelf.scratch.entries.length < job.entryCapacity := by
      have bounded : shelf.scratch.entries.length + shelf.scratch.kvCount < job.maxFiles :=
        few.resolve_left (by rw [found]; decide)
      unfold Job.entryCapacity
      omega
    have covers := covers_append valid found small 0
    refine .onlyIf (fun _ => ?_) fun saved => absurd saved (by simp)
    refine ensures_saveEntries clean ready rfl covers fun after later held same names => ?_
    have listed : name ∈ later.names := by
      rw [names]
      simp
    refine switches_replaceFile clean held same valid listed (room.transfer same) ?_
    intro code after held
    -- The new name leaves the index again.
    have entries : (shelf.scratch.entries ++ [(⟨name, 0⟩ : Entry)]).eraseIdx
        ((shelf.scratch.entries ++ [(⟨name, 0⟩ : Entry)]).length - 1) = shelf.scratch.entries := by
      simp [List.eraseIdx_append_of_length_le]
    have back : Covers later (shelf.scratch.entries.map Entry.name) :=
      covers_entries.transfer same
    apply Ensures.bind
    refine .onlyIf (fun _ => ?_) fun forgotten => absurd forgotten (by simp)
    dsimp only [Option.isNone_none]
    rw [if_pos rfl, entries]
    exact ensures_saveIgnored clean held same back (fun _ holds => .fail holds)
      fun _ holds => .inl holds

/-- A removal of a file has its whole effect when it returns and none when it fails. -/
theorem switches_removeLocked (valid : nameIsValid name nameMax = true) :
    Switches admits job (job.removeLocked name) contents (contents.withFile name none) disk := by
  obtain ⟨shelf, represents, rfl⟩ := holds
  apply Ensures.bind
  refine ensures_loadIndex clean represents ?_ (fun _ => represents.holds) (.inl represents.holds)
  cases found : shelf.scratch.find name with
  | none => exact .fail represents.holds
  | some index =>
    obtain ⟨content, file, entry⟩ := find_some found
    have present : shelf.files name ≠ none := by rw [file]; exact Option.some_ne_none content
    have listed : name ∈ shelf.names := shelf.listed name present
    have dropped := represents.drop valid listed
    have covers : Covers (shelf.withFile name none listed (shelf.room_none name))
        ((shelf.scratch.entries.eraseIdx index).map Entry.name) := by
      have place : (shelf.scratch.entries.map Entry.name)[index]? = some name := by
        rw [List.getElem?_map, entry]
        rfl
      rw [← List.eraseIdx_map]
      refine Covers.erase covers_entries place fun other there => ?_
      have differs : other ≠ name := by
        rintro rfl
        simp [Shelf.withFile, Contents.withFile] at there
      refine ⟨differs, covers_entries.listed other ?_⟩
      simpa [Shelf.withFile, Contents.withFile, Function.update_of_ne differs] using there
    apply Ensures.bind
    apply Ensures.recovering
    refine ensures_fsUnlink ?_ ?_ ?_ ?_ (fun _ reports =>
      absurd reports (Answer.not_reports_unclean clean)) (.inl represents.holds)
        (.inr dropped.holds)
    · exact ensures_saveIgnored clean dropped rfl covers (fun _ => id) fun _ holds => .inr holds
    · intro absent
      rw [represents.files name valid, file] at absent
      cases absent
    · exact .fail represents.holds
    · intro code reports
      rw [if_neg (reports.found clean)]
      exact .fail represents.holds

/-- A renaming of a file has its whole effect when it returns and none when it fails. -/
theorem switches_renameLocked (oldValid : nameIsValid oldName nameMax = true)
    (newValid : nameIsValid newName nameMax = true) :
    Switches admits job (job.renameLocked oldName newName) contents
      (contents.renamed oldName newName) disk := by
  obtain ⟨shelf, represents, rfl⟩ := holds
  apply Ensures.bind
  refine ensures_loadIndex clean represents ?_ (fun _ => represents.holds) (.inl represents.holds)
  cases found : shelf.scratch.find oldName with
  | none => exact .fail represents.holds
  | some index =>
    obtain ⟨content, file, entry⟩ := find_some found
    have place : (shelf.scratch.entries.map Entry.name)[index]? = some oldName := by
      rw [List.getElem?_map, entry]
      rfl
    dsimp only
    split
    · rename_i same
      subst same
      refine .pure ?_
      rw [Contents.renamed_self]
      exact represents.holds
    · rename_i differ
      cases target : shelf.scratch.find newName with
      | none =>
        apply Ensures.bind
        refine .require (fun small => ?_) fun _ => represents.holds
        have covers := covers_append newValid target small 0
        apply Ensures.bind
        refine ensures_saveEntries clean represents rfl covers fun after later held same names => ?_
        have files : later.files = shelf.files := congrArg Contents.files same
        refine switches_moveListed clean held same oldValid newValid differ (files ▸ file) ?_
          (covers.transfer same) (by simp) ?_
        · rw [names]
          simp
        · rw [List.map_append, List.getElem?_append_left (List.getElem?_eq_some_iff.mp place).1]
          exact place
      | some other =>
        have present : shelf.files newName ≠ none := find_isSome.mp (by rw [target]; rfl)
        have moved : ∀ after (later : Shelf job), Represents after later →
            later.toContents = shelf.toContents → Switches admits job
              (job.moveListed oldName newName shelf.scratch.entries index) shelf.toContents
              (shelf.toContents.renamed oldName newName) after := by
          intro after later held same
          have files : later.files = shelf.files := congrArg Contents.files same
          exact switches_moveListed clean held same oldValid newValid differ (files ▸ file)
            (later.listed newName (files ▸ present)) (covers_entries.transfer same)
            (covers_entries.listed newName present) place
        apply Ensures.bind
        refine .onlyIf (fun _ => ?_) fun _ => moved disk shelf represents rfl
        exact ensures_saveEntries clean represents rfl covers_entries
          fun after later held same _ => moved after later held same

/-- A commit of the blob has its whole effect when it returns and none when it fails. -/
theorem switches_kvCommitLocked :
    Switches admits job (job.kvCommitLocked data) contents
      (contents.withKv (if data = [] then none else some data)) disk := by
  obtain ⟨shelf, represents, rfl⟩ := holds
  have withinOld := shelf.bytes_le
  have fewOld := shelf.count_le
  unfold Job.kvCommitLocked
  by_cases empty : data = []
  · rw [if_pos empty, if_pos empty]
    have dropped : Holds job (shelf.toContents.withKv none) (disk.drop (job.path kvName)) := by
      have within : total fileBytes shelf.files shelf.names + fileBytes none ≤ job.quotaBytes :=
        (Nat.le_add_right _ _).trans withinOld
      have few : total fileCount shelf.files shelf.names + fileCount none ≤ job.maxFiles :=
        (Nat.le_add_right _ _).trans fewOld
      refine (represents.withKv within few find_drop_self fun name _ differs => ?_).holds
      exact find_drop_of_ne fun same => differs (job.path_inj.mp same)
    apply ensures_asStatus
    exact ensures_fsUnlink dropped (fun _ => represents.holds) represents.holds
      (fun _ _ => represents.holds) (fun _ reports =>
        absurd reports (Answer.not_reports_unclean clean)) (.inl represents.holds) (.inr dropped)
  · rw [if_neg empty, if_neg empty]
    apply Ensures.bind
    refine ensures_loadIndex clean represents ?_ (fun _ => represents.holds) (.inl represents.holds)
    apply Ensures.bind
    refine .require (fun free => ?_) fun _ => represents.holds
    apply Ensures.bind
    refine .require (fun fits => ?_) fun _ => represents.holds
    apply Ensures.bind
    refine ensures_ensureDir clean represents ?_ (fun _ _ held => held.holds)
      fun _ held => .inl held.holds
    intro between ready
    have within : total fileBytes shelf.files shelf.names + fileBytes (some data) ≤
        job.quotaBytes := by
      have used := @Shelf.usedExcept_none job shelf
      have size : fileBytes (some data) = data.length := rfl
      omega
    have few : total fileCount shelf.files shelf.names + fileCount (some data) ≤
        job.maxFiles := by
      have one : fileCount (some data) = 1 := rfl
      rcases free with found | small
      · obtain ⟨size, stored⟩ := Option.isSome_iff_exists.mp found
        have held : fileCount shelf.kv = 1 := by
          rw [← shelf.kv_count]
          unfold Scratch.kvCount
          rw [stored]
          rfl
        omega
      · rw [shelf.length_entries] at small
        omega
    have aside : ∀ after, Disk.AgreeOff [job.path kvTempName] between after →
        Holds job shelf.toContents after := fun after agree =>
      (ready.aside job.beside_kvTemp agree).holds
    have done : ∀ after, Replaced job kvTempName kvName data between after →
        Holds job (shelf.toContents.withKv (some data)) after := fun after replaced =>
      (ready.withKv within few replaced.target fun name part differs =>
        replaced.same job.beside_kvTemp part differs).holds
    exact ensures_replace clean done (fun _ => aside) (fun after agree => .inl (aside after agree))
      fun after replaced => .inr (done after replaced)

end

end Operations

end Gizos.Lua
