import Gizos.Bundle.Tar

/-! # What a tar stream contains

`Contains` reads a stream from its front: header blocks, each with its content and padding,
up to two zero blocks in a row. `Wrote` builds the same reading from the back, one block or
entry at a time, which is how a streaming reader sees it. The two agree, and a stream has at
most one reading.
-/
namespace Gizos.Bundle

variable {zeros : Nat} {stream bytes rest : Bytes} {entries : List (Entry × Bytes)}

/-- A header block with the entry it parses to. -/
structure HeaderBlock (block : Bytes) (entry : Entry) : Prop where
  size : block.length = 512
  parsed : tarParseHeader block = .ok (some entry)

/-- A block of zeros. -/
structure ZeroBlock (block : Bytes) : Prop where
  size : block.length = 512
  parsed : tarParseHeader block = .ok none

/-- After `zeros` zero blocks in a row, the stream goes on with these entries to its end. -/
inductive Contains : Nat → Bytes → List (Entry × Bytes) → Prop where
  /-- The second zero block ends the archive; what follows is not read. -/
  | finish {block rest : Bytes} (zero : ZeroBlock block) : Contains 1 (block ++ rest) []
  /-- One zero block on its own is passed over. -/
  | zero {block rest : Bytes} {entries : List (Entry × Bytes)} (zero : ZeroBlock block)
    (later : Contains 1 rest entries) : Contains 0 (block ++ rest) entries
  /-- A header, its content and its padding. -/
  | entry {zeros : Nat} {block content padding rest : Bytes} {entry : Entry}
    {entries : List (Entry × Bytes)} (header : HeaderBlock block entry)
    (whole : content.length = entry.size) (padded : padding.length = tarPadding entry.size)
    (later : Contains 0 rest entries) :
    Contains zeros (block ++ (content ++ (padding ++ rest))) ((entry, content) :: entries)

/-- The entries of a whole stream. -/
def Contents (stream : Bytes) (entries : List (Entry × Bytes)) : Prop := Contains 0 stream entries

theorem Contains.headers (contains : Contains zeros stream entries) :
    ∀ entry ∈ entries, (∃ block, HeaderBlock block entry.1) ∧ entry.2.length = entry.1.size := by
  induction contains with
  | finish => nofun
  | zero _ _ ih => exact ih
  | entry header whole _ _ ih => exact List.forall_mem_cons.mpr ⟨⟨⟨_, header⟩, whole⟩, ih⟩

/-- The bytes read so far are these entries followed by `zeros` zero blocks. -/
inductive Wrote : Bytes → Nat → List (Entry × Bytes) → Prop where
  | start : Wrote [] 0 []
  | zero {bytes block : Bytes} {zeros : Nat} {entries : List (Entry × Bytes)}
    (earlier : Wrote bytes zeros entries) (zero : ZeroBlock block) :
    Wrote (bytes ++ block) (zeros + 1) entries
  | entry {bytes block content padding : Bytes} {zeros : Nat} {entry : Entry}
    {entries : List (Entry × Bytes)} (earlier : Wrote bytes zeros entries) (ongoing : zeros < 2)
    (header : HeaderBlock block entry) (whole : content.length = entry.size)
    (padded : padding.length = tarPadding entry.size) :
    Wrote (bytes ++ (block ++ (content ++ padding))) 0 (entries ++ [(entry, content)])

/-- A reading from the back continues with any reading of the rest. -/
theorem Wrote.contains (wrote : Wrote bytes zeros entries)
    {later : List (Entry × Bytes)} (few : zeros < 2) (contains : Contains zeros rest later) :
    Contents (bytes ++ rest) (entries ++ later) := by
  induction wrote generalizing rest later with
  | start => exact contains
  | @zero bytes block zeros entries earlier zero ih =>
    obtain rfl : zeros = 0 := by omega
    rw [List.append_assoc]
    exact ih (by omega) (.zero zero contains)
  | @entry bytes block content padding zeros entry entries earlier ongoing header whole padded ih =>
    simp only [List.append_assoc, List.cons_append, List.nil_append]
    exact ih ongoing (.entry header whole padded contains)

/-- Two zero blocks end a stream, whatever follows. -/
theorem Wrote.contents (wrote : Wrote bytes 2 entries)
    (rest : Bytes) : Contents (bytes ++ rest) entries := by
  cases wrote with
  | zero earlier zero =>
    have ending : Contains 1 (_ ++ rest) [] := .finish zero
    simpa using earlier.contains (by omega) ending

theorem zeroBlock_replicate : ZeroBlock (List.replicate 512 0) where
  size := List.length_replicate
  parsed := by
    unfold tarParseHeader
    rw [if_pos (List.all_eq_true.mpr fun byte member => ?_)]
    simp [List.eq_of_mem_replicate member]

/-- A stream that stops at its first zero block is complete with a second one. -/
theorem Wrote.contents_marked (wrote : Wrote bytes 1 entries) :
    Contents (bytes ++ List.replicate 512 0) entries := by
  have longer := wrote.zero zeroBlock_replicate
  have complete := longer.contents []
  rwa [List.append_nil] at complete

/-- A stream that goes on with a zero block goes on behind it, or ends there. -/
theorem Contains.zeroed {block : Bytes}
    (contains : Contains zeros (block ++ rest) entries) (zero : ZeroBlock block) :
    zeros = 0 ∧ Contains 1 rest entries ∨ zeros = 1 ∧ entries = [] := by
  generalize same : block ++ rest = stream at contains
  cases contains with
  | finish other => exact .inr ⟨rfl, rfl⟩
  | zero other later =>
    obtain ⟨-, rfl⟩ := List.append_inj same (zero.size.trans other.size.symm)
    exact .inl ⟨rfl, later⟩
  | entry header =>
    obtain ⟨rfl, -⟩ := List.append_inj same (zero.size.trans header.size.symm)
    cases zero.parsed.symm.trans header.parsed

/-- A stream that goes on with a header goes on with its entry. -/
theorem Contains.header {block : Bytes} {entry : Entry}
    (contains : Contains zeros (block ++ rest) entries) (header : HeaderBlock block entry) :
    ∃ content padding after later, entries = (entry, content) :: later ∧
      rest = content ++ (padding ++ after) ∧ content.length = entry.size ∧
      padding.length = tarPadding entry.size ∧ Contains 0 after later := by
  generalize same : block ++ rest = stream at contains
  cases contains with
  | finish zero | zero zero later =>
    obtain ⟨rfl, -⟩ := List.append_inj same (header.size.trans zero.size.symm)
    cases zero.parsed.symm.trans header.parsed
  | @entry _ block' content padding after entry' later header' whole padded goes =>
    obtain ⟨rfl, rfl⟩ := List.append_inj same (header.size.trans header'.size.symm)
    cases header.parsed.symm.trans header'.parsed
    exact ⟨content, padding, after, later, rfl, rfl, whole, padded, goes⟩

theorem Contains.unique {left right : List (Entry × Bytes)} (first : Contains zeros stream left)
    (second : Contains zeros stream right) :
    left = right := by
  induction first generalizing right with
  | finish zero =>
    obtain ⟨none, -⟩ | ⟨-, rfl⟩ := second.zeroed zero
    · cases none
    · rfl
  | zero zero later ih =>
    obtain ⟨-, goes⟩ | ⟨one, -⟩ := second.zeroed zero
    · exact ih goes
    · cases one
  | entry header whole padded later ih =>
    obtain ⟨content, padding, after, later', rfl, same, whole', padded', goes⟩ :=
      second.header header
    obtain ⟨rfl, tail⟩ := List.append_inj same (whole.trans whole'.symm)
    obtain ⟨-, rfl⟩ := List.append_inj tail (padded.trans padded'.symm)
    rw [ih goes]

/-- A reading from the back is the front of every reading of the whole. -/
theorem Wrote.resume (wrote : Wrote bytes zeros entries)
    (few : zeros < 2) {all : List (Entry × Bytes)} (contents : Contents (bytes ++ rest) all) :
    ∃ later, all = entries ++ later ∧ Contains zeros rest later := by
  induction wrote generalizing rest with
  | start => exact ⟨all, rfl, contents⟩
  | @zero bytes block zeros entries earlier zero ih =>
    obtain rfl : zeros = 0 := by omega
    rw [List.append_assoc] at contents
    obtain ⟨later, rfl, goes⟩ := ih (by omega) contents
    obtain ⟨-, goes⟩ | ⟨one, -⟩ := goes.zeroed zero
    · exact ⟨later, rfl, goes⟩
    · cases one
  | @entry bytes block content padding zeros entry entries earlier ongoing header whole padded ih =>
    simp only [List.append_assoc] at contents
    obtain ⟨later, rfl, goes⟩ := ih ongoing contents
    obtain ⟨content', padding', rest', later', rfl, same, whole', padded', after⟩ :=
      goes.header header
    obtain ⟨rfl, tail⟩ := List.append_inj same (whole.trans whole'.symm)
    obtain ⟨-, rfl⟩ := List.append_inj tail (padded.trans padded'.symm)
    exact ⟨later', by simp, after⟩

/-- Reads the entries of a stream after `zeros` zero blocks in a row. -/
def listEntries : Nat → Nat → Bytes → Option (List (Entry × Bytes))
  | 0, _, _ => none
  | fuel + 1, zeros, stream =>
    if stream.length < 512 then none else
    match tarParseHeader (stream.take 512) with
    | .error _ => none
    | .ok none => if zeros = 0 then listEntries fuel 1 (stream.drop 512) else some []
    | .ok (some entry) =>
      let body := stream.drop 512
      if body.length < entry.size + tarPadding entry.size then none
      else (listEntries fuel 0 (body.drop (entry.size + tarPadding entry.size))).map fun entries =>
        (entry, body.take entry.size) :: entries

theorem listEntries_contains {fuel : Nat} (few : zeros < 2)
    (listed : listEntries fuel zeros stream = some entries) :
    Contains zeros stream entries := by
  induction fuel generalizing zeros stream entries with
  | zero => cases listed
  | succ fuel ih =>
    unfold listEntries at listed
    dsimp only at listed
    split at listed
    · cases listed
    have size : (stream.take 512).length = 512 := by
      rw [List.length_take]
      omega
    have parts : stream = stream.take 512 ++ stream.drop 512 := (List.take_append_drop ..).symm
    split at listed
    · cases listed
    · rename_i parsed
      split at listed
      · rename_i first
        rw [first, parts]
        exact .zero ⟨size, parsed⟩ (ih (by decide) listed)
      · cases listed
        obtain rfl : zeros = 1 := by omega
        rw [parts]
        exact .finish ⟨size, parsed⟩
    · rename_i entry parsed
      split at listed
      · cases listed
      obtain ⟨later, rest, rfl⟩ := Option.map_eq_some_iff.mp listed
      set body := stream.drop 512 with bodyParts
      have content : (body.take entry.size).length = entry.size := by
        rw [List.length_take]
        omega
      have padding : ((body.drop entry.size).take (tarPadding entry.size)).length =
          tarPadding entry.size := by
        rw [List.length_take, List.length_drop]
        omega
      have bodyIs : body = body.take entry.size ++
          ((body.drop entry.size).take (tarPadding entry.size) ++
            body.drop (entry.size + tarPadding entry.size)) := by
        rw [← List.drop_drop, List.take_append_drop, List.take_append_drop]
      have reading := @Contains.entry zeros _ _ _ _ _ _ ⟨size, parsed⟩ content padding
        (ih (by decide) rest)
      rwa [← bodyIs, ← parts] at reading

/-- What holds of the entries that are read off a stream holds of its entries. -/
theorem Contents.known {property : List (Entry × Bytes) → Prop} [DecidablePred property]
    {fuel : Nat} (known : (listEntries fuel 0 stream).any (fun entries => property entries) = true)
    (contents : Contents stream entries) : property entries := by
  cases found : listEntries fuel 0 stream with
  | none =>
    rw [found] at known
    cases known
  | some listed =>
    rw [found] at known
    obtain rfl : entries = listed := contents.unique (listEntries_contains (by decide) found)
    exact of_decide_eq_true known

theorem Contents.member {block : Bytes} {entry : Entry} {done : List (Entry × Bytes)}
    (contents : Contents stream entries) (wrote : Wrote bytes zeros done) (few : zeros < 2)
    (header : HeaderBlock block entry) (front : bytes ++ block <+: stream) :
    ∃ content, (entry, content) ∈ entries := by
  obtain ⟨rest, rfl⟩ := front
  rw [List.append_assoc] at contents
  obtain ⟨later, rfl, goes⟩ := wrote.resume few contents
  obtain ⟨content, padding, after, following, rfl, -⟩ := goes.header header
  exact ⟨content, by simp⟩

/-- A number as octal digits. -/
def octalText : Nat → Nat → Bytes
  | 0, _ => []
  | digits + 1, value => octalText digits (value / 8) ++ [UInt8.ofNat (48 + value % 8)]

/-- The header block of a file. -/
def fileHeader (path : Bytes) (size : Nat) : Bytes :=
  let front := path ++ List.replicate (124 - path.length) 0 ++ octalText 11 size ++
    List.replicate 13 0
  let sum := byteSum front + 8 * 32 + 48
  front ++ octalText 6 sum ++ [0, 32, 48] ++ List.replicate 355 0

/-- An archive of files. -/
def fileArchive (files : List (Bytes × Bytes)) : Bytes :=
  (files.flatMap fun file => fileHeader file.1 file.2.length ++ file.2 ++
    List.replicate (tarPadding file.2.length) 0) ++ List.replicate 1024 0

end Gizos.Bundle
