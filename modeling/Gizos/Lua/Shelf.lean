import Gizos.Lua.Storage
import Mathlib.Algebra.BigOperators.Group.Finset.Basic
import Mathlib.Algebra.Order.BigOperators.Group.Finset
import Mathlib.Data.Finset.Card

/-! # What a script storage holds

A shelf is what the storage of an application is for: named files, an index of names that covers
them, and a key-value blob, all within the limits of the application. The disk represents a shelf
when the files of the application are the shelf's, whatever temporary files and directories lie
beside them. Loading the index of a represented shelf returns what the shelf tells.
-/
namespace Gizos.Lua

open Fault Pal Finset

section Totals

variable {weight : Option Bytes → Nat} {files : Bytes → Option Bytes} {names others : List Bytes}

/-- What the files of some names weigh together. -/
def total (weight : Option Bytes → Nat) (files : Bytes → Option Bytes) (names : List Bytes) : Nat :=
  ∑ name ∈ names.toFinset, weight (files name)

/-- Bytes of a file that may not be there. -/
def fileBytes (file : Option Bytes) : Nat := file.elim 0 List.length

/-- How many files a file that may not be there is. -/
def fileCount (file : Option Bytes) : Nat := file.elim 0 fun _ => 1

theorem total_le_of_covers (nothing : weight none = 0)
    (covers : ∀ name, files name ≠ none → name ∈ others) :
    total weight files names ≤ total weight files others := by
  have inside : ∀ name ∈ names.toFinset ∪ others.toFinset, name ∉ others.toFinset →
      weight (files name) = 0 := by
    intro name _ outside
    have absent : files name = none := by
      by_contra present
      exact outside (List.mem_toFinset.mpr (covers name present))
    rw [absent, nothing]
  calc total weight files names
      ≤ ∑ name ∈ names.toFinset ∪ others.toFinset, weight (files name) :=
        Finset.sum_le_sum_of_subset Finset.subset_union_left
    _ = total weight files others :=
        (Finset.sum_subset Finset.subset_union_right inside).symm

theorem total_update {name : Bytes} (file : Option Bytes) (listed : name ∈ names) :
    total weight (Function.update files name file) names + weight (files name) =
      total weight files names + weight file := by
  have inside : name ∈ names.toFinset := List.mem_toFinset.mpr listed
  have rest : ∑ other ∈ names.toFinset.erase name, weight (Function.update files name file other) =
      ∑ other ∈ names.toFinset.erase name, weight (files other) := by
    refine Finset.sum_congr rfl fun other member => ?_
    rw [Function.update_of_ne (Finset.ne_of_mem_erase member)]
  have before := Finset.add_sum_erase names.toFinset (fun other => weight (files other)) inside
  have after := Finset.add_sum_erase names.toFinset
    (fun other => weight (Function.update files name file other)) inside
  simp only [Function.update_self] at after
  unfold total
  omega

/-- A limit is kept by a change of one file that it has room for. -/
theorem total_update_le {name : Bytes} {file : Option Bytes} {beside limit : Nat}
    (listed : name ∈ names)
    (room : total weight files names + beside + weight file ≤ limit + weight (files name)) :
    total weight (Function.update files name file) names + beside ≤ limit := by
  have changed := @total_update weight files names name file listed
  omega

end Totals

/-- The entries of the names that have a file. -/
def entriesOf (files : Bytes → Option Bytes) (names : List Bytes) : List Entry :=
  names.filterMap fun name => (files name).map fun content => ⟨name, content.length⟩

section Entries

variable {files : Bytes → Option Bytes} {names : List Bytes}

theorem map_name_entriesOf :
    (entriesOf files names).map Entry.name = names.filter fun name => (files name).isSome := by
  induction names with
  | nil => rfl
  | cons name rest ih =>
    cases found : files name with
    | none => simpa [entriesOf, found] using ih
    | some content => simpa [entriesOf, found] using ih

theorem sum_entriesOf (nodup : names.Nodup) :
    ((entriesOf files names).map Entry.size).sum = total fileBytes files names := by
  unfold total
  rw [List.sum_toFinset _ nodup]
  clear nodup
  induction names with
  | nil => rfl
  | cons name rest ih =>
    cases found : files name with
    | none => simpa [entriesOf, found, fileBytes] using ih
    | some content => simpa [entriesOf, found, fileBytes] using ih

theorem length_entriesOf (nodup : names.Nodup) :
    (entriesOf files names).length = total fileCount files names := by
  unfold total
  rw [List.sum_toFinset _ nodup]
  clear nodup
  induction names with
  | nil => rfl
  | cons name rest ih =>
    cases found : files name with
    | none => simpa [entriesOf, found, fileCount] using ih
    | some content =>
      have first : entriesOf files (name :: rest) =
          ⟨name, content.length⟩ :: entriesOf files rest := by
        simp [entriesOf, found]
      rw [first, List.length_cons, List.map_cons, found, ih]
      exact Nat.add_comm _ _

theorem mem_entriesOf {entry : Entry} (member : entry ∈ entriesOf files names) :
    ∃ content, files entry.name = some content ∧ entry.size = content.length := by
  unfold entriesOf at member
  simp only [List.mem_filterMap, Option.map_eq_some_iff] at member
  obtain ⟨name, -, content, found, rfl⟩ := member
  exact ⟨content, found, rfl⟩

end Entries

/-- What an application keeps in its storage. -/
structure Contents where
  /-- The files of the application. -/
  files : Bytes → Option Bytes
  /-- The key-value blob. -/
  kv : Option Bytes

namespace Contents

/-- Nothing is kept. -/
def nothing : Contents := ⟨fun _ => none, none⟩

/-- Replaces or removes a file. -/
def withFile (name : Bytes) (file : Option Bytes) (contents : Contents) : Contents :=
  { contents with files := Function.update contents.files name file }

/-- Replaces or removes the blob. -/
def withKv (blob : Option Bytes) (contents : Contents) : Contents := { contents with kv := blob }

/-- Moves a file to another name. -/
def renamed (oldName newName : Bytes) (contents : Contents) : Contents :=
  (contents.withFile oldName none).withFile newName (contents.files oldName)

theorem renamed_self (name : Bytes) (contents : Contents) :
    contents.renamed name name = contents := by
  simp [renamed, withFile]

end Contents

/-- What the storage of an application holds. -/
structure Shelf (job : Job) extends Contents where
  /-- The names of the stored index, if there is one. -/
  index : Option (List Bytes)
  /-- Only names that a script may use are listed. -/
  valid : ∀ name ∈ index.getD [], nameIsValid name nameMax = true
  /-- No name is listed twice. -/
  nodup : (index.getD []).Nodup
  /-- The table of names holds the index. -/
  bounded : (index.getD []).length ≤ job.entryCapacity
  /-- Every file is listed. -/
  listed : ∀ name, files name ≠ none → name ∈ index.getD []
  /-- Files and blob stay within the quota. -/
  within : total fileBytes files (index.getD []) + fileBytes kv ≤ job.quotaBytes
  /-- Files and blob stay within the file limit. -/
  few : total fileCount files (index.getD []) + fileCount kv ≤ job.maxFiles

namespace Shelf

variable {job : Job}

/-- The names of the stored index. -/
def names (shelf : Shelf job) : List Bytes := shelf.index.getD []

/-- What loading the index tells. -/
def scratch (shelf : Shelf job) : Scratch where
  entries := entriesOf shelf.files shelf.names
  dirty := shelf.names.any fun name => (shelf.files name).isNone
  kv := shelf.kv.map List.length

/-- A shelf without files. -/
def bare (job : Job) : Shelf job where
  toContents := .nothing
  index := none
  valid := by simp
  nodup := List.nodup_nil
  bounded := Nat.zero_le _
  listed := by simp [Contents.nothing]
  within := Nat.zero_le _
  few := Nat.zero_le _

/-- Lists other names, which cover the files. -/
def relist (shelf : Shelf job) (names : List Bytes)
    (valid : ∀ name ∈ names, nameIsValid name nameMax = true) (nodup : names.Nodup)
    (bounded : names.length ≤ job.entryCapacity)
    (listed : ∀ name, shelf.files name ≠ none → name ∈ names) : Shelf job where
  toContents := shelf.toContents
  index := some names
  valid := valid
  nodup := nodup
  bounded := bounded
  listed := listed
  within := (Nat.add_le_add_right (total_le_of_covers rfl shelf.listed) _).trans shelf.within
  few := (Nat.add_le_add_right (total_le_of_covers rfl shelf.listed) _).trans shelf.few

/-- The limits leave room for a file, or for its removal, in place of what its name holds. -/
structure Room (shelf : Shelf job) (name : Bytes) (file : Option Bytes) : Prop where
  /-- The quota has room. -/
  within : total fileBytes shelf.files shelf.names + fileBytes shelf.kv + fileBytes file ≤
    job.quotaBytes + fileBytes (shelf.files name)
  /-- The file limit has room. -/
  few : total fileCount shelf.files shelf.names + fileCount shelf.kv + fileCount file ≤
    job.maxFiles + fileCount (shelf.files name)

/-- Replaces or removes one listed file within the limits. -/
def withFile (shelf : Shelf job) (name : Bytes) (file : Option Bytes) (listed : name ∈ shelf.names)
    (room : shelf.Room name file) : Shelf job where
  toContents := shelf.toContents.withFile name file
  index := shelf.index
  valid := shelf.valid
  nodup := shelf.nodup
  bounded := shelf.bounded
  listed := by
    intro other present
    by_cases same : other = name
    · rw [same]
      exact listed
    · exact shelf.listed other (by simpa [Contents.withFile, same] using present)
  within := total_update_le listed room.within
  few := total_update_le listed room.few

/-- Replaces or removes the key-value blob within the limits. -/
def withKv (shelf : Shelf job) (blob : Option Bytes)
    (within : total fileBytes shelf.files shelf.names + fileBytes blob ≤ job.quotaBytes)
    (few : total fileCount shelf.files shelf.names + fileCount blob ≤ job.maxFiles) :
      Shelf job where
  toContents := shelf.toContents.withKv blob
  index := shelf.index
  valid := shelf.valid
  nodup := shelf.nodup
  bounded := shelf.bounded
  listed := shelf.listed
  within := within
  few := few

end Shelf

section Names

variable {name : Bytes} {names : List Bytes}

theorem nameIsValid_iff (maxLength : Nat) :
    nameIsValid name maxLength = true ↔ name ≠ [] ∧ name.head? ≠ some 0x2e ∧
      name.length ≤ maxLength ∧ ∀ char ∈ name, nameChar char = true := by
  simp [nameIsValid, and_assoc]

/-- A name holds neither a line end nor a zero. -/
theorem char_of_valid {maxLength : Nat} (valid : nameIsValid name maxLength = true) {char : UInt8}
    (member : char ∈ name) : char ≠ 0x0a ∧ char ≠ 0 := by
  have allowed := ((nameIsValid_iff maxLength).mp valid).2.2.2 char member
  constructor
  · rintro rfl
    exact absurd allowed (by decide)
  · rintro rfl
    exact absurd allowed (by decide)

theorem cstring_of_valid {maxLength : Nat} (valid : nameIsValid name maxLength = true) :
    Text.cstring name = name :=
  Text.cstring_of_nonzero fun _ member => (char_of_valid valid member).2

/-- The names of the store's own files are no names of a script. -/
theorem ne_of_valid {dotted : Bytes} (valid : nameIsValid name nameMax = true)
    (starts : dotted.head? = some 0x2e) : name ≠ dotted := by
  rintro rfl
  exact ((nameIsValid_iff nameMax).mp valid).2.1 starts

theorem indexNames_append {capacity : Nat} {rest line : Bytes} {read : List Bytes × Bool}
    (single : ∀ char ∈ name, char ≠ 0x0a) :
    indexNames capacity (name ++ 0x0a :: rest) line read =
      indexNames capacity rest [] (indexLine capacity true (line ++ name) read) := by
  induction name generalizing line with
  | nil => simp [indexNames]
  | cons char name ih =>
    have head : char ≠ 0x0a := single char List.mem_cons_self
    have tail := fun other member => single other (List.mem_cons_of_mem char member)
    rw [List.cons_append, indexNames, if_neg head, ih tail, List.append_assoc]
    rfl

theorem indexLine_valid {capacity : Nat} {read : List Bytes} {more : Bool}
    (valid : nameIsValid name nameMax = true) (fresh : name ∉ read)
    (room : read.length < capacity) :
    indexLine capacity true name (read, more) = (read ++ [name], more) := by
  obtain ⟨some, _, short, _⟩ := (nameIsValid_iff nameMax).mp valid
  unfold indexLine
  rw [if_neg some, if_neg (by simp; omega), cstring_of_valid valid, if_neg (by simp [valid, fresh])]

theorem indexNames_indexText {capacity : Nat} {read : List Bytes} {more : Bool}
    (valid : ∀ name ∈ names, nameIsValid name nameMax = true) (nodup : (read ++ names).Nodup)
    (room : read.length + names.length ≤ capacity) :
    indexNames capacity (indexText names) [] (read, more) = (read ++ names, more) := by
  induction names generalizing read with
  | nil => simp [indexText, indexNames, indexLine]
  | cons name names ih =>
    have head := valid name List.mem_cons_self
    have tail := fun other member => valid other (List.mem_cons_of_mem name member)
    have fresh : name ∉ read := fun member =>
      (List.nodup_append.mp nodup).2.2 name member name List.mem_cons_self rfl
    have text : indexText (name :: names) = name ++ 0x0a :: indexText names := by
      simp [indexText]
    rw [List.length_cons] at room
    rw [text, indexNames_append fun char member => (char_of_valid head member).1, List.nil_append,
      indexLine_valid head fresh (by omega)]
    rw [ih tail (by simpa using nodup) (by rw [List.length_append]; simp; omega)]
    simp

theorem length_indexText_le (valid : ∀ name ∈ names, nameIsValid name nameMax = true) :
    (indexText names).length ≤ names.length * (nameMax + 1) := by
  induction names with
  | nil => simp [indexText]
  | cons name names ih =>
    have short := ((nameIsValid_iff nameMax).mp (valid name List.mem_cons_self)).2.2.1
    have rest := ih fun other member => valid other (List.mem_cons_of_mem name member)
    have text : (indexText (name :: names)).length = name.length + 1 +
      (indexText names).length := by
      simp [indexText]
      omega
    rw [List.length_cons, Nat.succ_mul]
    omega

end Names

/-- The disk holds a shelf: the files, the index and the blob of the application are there whole
and synchronised. -/
structure Represents {job : Job} (disk : Disk) (shelf : Shelf job) : Prop where
  /-- The files that a script may name. -/
  files : ∀ name, nameIsValid name nameMax = true →
    disk.find (job.path name) = (shelf.files name).map (Node.file · true)
  /-- The index. -/
  index : disk.find (job.path indexName) = shelf.index.map fun names => .file (indexText names) true
  kv : disk.find (job.path kvName) = shelf.kv.map (Node.file · true)

section Reading

variable {job : Job} {disk : Disk} {shelf : Shelf job} {admits : Answer → Prop}
  {onFail : Int → Disk → Prop} {onReset : Disk → Prop}

theorem ensures_asStatus {α : Type} {body : Routine Disk α} {onReturn : α → Disk → Prop}
    (ensured : Ensures admits body onReturn (fun code => onFail (Status.fromPal code).code) onReset
      disk) :
    Ensures admits (asStatus body) onReturn onFail onReset disk :=
  .recovering (ensured.mono (fun _ _ => id) (fun _ _ holds => .fail holds) fun _ => id)

/-- The mutex adds nothing to what a program does, but may refuse it. -/
theorem ensures_locked {α : Type} {body : Routine Disk α} {onReturn : α → Disk → Prop}
    (ensured : Ensures admits body (fun value after => onReturn value after ∧ onReset after)
      (fun code after => onFail code after ∧ onReset after) onReset disk)
    (busy : onFail Status.busy.code disk) (resets : onReset disk) :
    Ensures admits (Job.locked body) onReturn onFail onReset disk := by
  apply Ensures.bind
  apply Ensures.recovering
  refine ensures_probe ?_ (fun _ _ => .fail busy) resets
  apply Ensures.withCleanup
  refine .mono ensured ?_ ?_ fun _ => id
  · intro value after ended
    exact .ignoring (ensures_probe ended.1 (fun _ _ => ended.1) ended.2)
  · intro code after ended
    exact .ignoring (ensures_probe ended.1 (fun _ _ => ended.1) ended.2)

section

variable (clean : ∀ answer, admits answer → answer.Clean)

include clean

theorem ensures_statOptional {path : Bytes} {onReturn : Option FsStat → Disk → Prop}
    (returns : onReturn ((disk.find path).map Node.stat) disk) (fails : ∀ code, onFail code disk)
    (resets : onReset disk) :
    Ensures admits (statOptional path) onReturn onFail onReset disk := by
  apply Ensures.bind
  apply Ensures.attempt
  refine ensures_fsStat ?_ ?_ ?_ resets
  · intro node found
    rw [found] at returns
    exact .pure returns
  · intro absent
    rw [absent] at returns
    exact .pure returns
  · intro code reports
    dsimp only
    rw [if_neg (reports.found clean)]
    exact .fail (fails code)

theorem ensures_statEntries {names : List Bytes} {onReturn : List Entry × Bool → Disk → Prop}
    (represents : Represents disk shelf) (valid : ∀ name ∈ names, nameIsValid name nameMax = true)
    (returns : onReturn (entriesOf shelf.files names,
      names.any fun name => (shelf.files name).isNone) disk) (fails : ∀ code, onFail code disk)
    (resets : onReset disk) :
    Ensures admits (job.statEntries names) onReturn onFail onReset disk := by
  induction names generalizing onReturn with
  | nil => exact .pure returns
  | cons name rest ih =>
    have there := represents.files name (valid name List.mem_cons_self)
    have tail := fun other member => valid other (List.mem_cons_of_mem name member)
    apply Ensures.bind
    apply Ensures.attempt
    refine ensures_fsStat ?_ ?_ ?_ resets
    · intro node found
      rw [there, Option.map_eq_some_iff] at found
      obtain ⟨content, present, rfl⟩ := found
      dsimp only [Node.stat]
      apply Ensures.bind
      refine .require (fun _ => ?_) fun _ => fails _
      apply Ensures.bind
      refine ih tail ?_
      simpa [entriesOf, present] using Ensures.pure returns
    · intro absent
      rw [there, Option.map_eq_none_iff] at absent
      dsimp only
      apply Ensures.bind
      refine ih tail ?_
      simpa [entriesOf, absent] using Ensures.pure returns
    · intro code reports
      dsimp only
      rw [if_neg (reports.found clean)]
      exact .fail (fails _)

theorem ensures_readIndex {onReturn : Option (Nat × Bytes) → Disk → Prop}
    (represents : Represents disk shelf)
    (returns : onReturn (shelf.index.map fun names =>
      ((indexText names).length, indexText names)) disk) (fails : ∀ code, onFail code disk)
    (resets : onReset disk) :
    Ensures admits job.readIndex onReturn onFail onReset disk := by
  have there := represents.index
  apply Ensures.bind
  apply Ensures.attempt
  refine ensures_fsStat ?_ ?_ ?_ resets
  · intro node found
    rw [there, Option.map_eq_some_iff] at found
    obtain ⟨names, stored, rfl⟩ := found
    have fits : (indexText names).length ≤ job.textCapacity := by
      have valid := shelf.valid
      have bounded := shelf.bounded
      rw [stored] at valid bounded
      exact (length_indexText_le valid).trans (Nat.mul_le_mul_right _ bounded)
    rw [stored] at there returns
    apply Ensures.bind
    refine .require (fun _ => ?_) fun _ => fails _
    apply Ensures.bind
    apply Ensures.attempt
    refine ensures_fsReadUpTo ?_ ?_ ?_ ?_ resets
    · intro content synced found
      rw [there] at found
      cases found
      rw [List.take_of_length_le fits]
      exact .pure returns
    · intro found
      rw [there] at found
      cases found
    · intro absent
      rw [there] at absent
      cases absent
    · intro code reports
      dsimp only
      rw [if_neg (reports.found clean)]
      exact .fail (fails _)
  · intro absent
    rw [there, Option.map_eq_none_iff] at absent
    rw [absent] at returns
    exact .pure returns
  · intro code reports
    dsimp only
    rw [if_neg (reports.found clean)]
    exact .fail (fails _)

theorem ensures_loadIndex {onReturn : Scratch → Disk → Prop} (represents : Represents disk shelf)
    (returns : onReturn shelf.scratch disk) (fails : ∀ code, onFail code disk)
    (resets : onReset disk) :
    Ensures admits job.loadIndex onReturn onFail onReset disk := by
  have blob : ((disk.find (job.path kvName)).map Node.stat).map FsStat.size =
      shelf.kv.map List.length := by
    rw [represents.kv, Option.map_map, Option.map_map]
    rfl
  apply Ensures.bind
  apply ensures_asStatus
  refine ensures_statOptional clean ?_ (fun code => fails _) resets
  apply Ensures.bind
  refine .require (fun _ => ?_) fun _ => fails _
  apply Ensures.bind
  refine ensures_readIndex clean represents ?_ fails resets
  cases stored : shelf.index with
  | none =>
    have told : shelf.scratch = ⟨[], false, shelf.kv.map List.length⟩ := by
      simp [Shelf.scratch, Shelf.names, stored, entriesOf]
    rw [told] at returns
    rw [blob]
    exact .pure returns
  | some names =>
    have valid := shelf.valid
    have nodup := shelf.nodup
    have bounded := shelf.bounded
    rw [stored] at valid nodup bounded
    have read : indexNames job.entryCapacity (indexText names) [] ([], false) = (names, false) :=
      indexNames_indexText valid nodup (by simpa using bounded)
    have told : shelf.scratch = ⟨entriesOf shelf.files names,
        names.any fun name => (shelf.files name).isNone, shelf.kv.map List.length⟩ := by
      simp [Shelf.scratch, Shelf.names, stored]
    rw [told] at returns
    simp only [Option.map_some, lt_self_iff_false, decide_false, read]
    apply Ensures.bind
    refine ensures_statEntries clean represents valid ?_ fails resets
    rw [blob]
    exact .pure returns

end

end Reading

end Gizos.Lua
