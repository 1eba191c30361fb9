import Gizos.Bundle.Confinement
import Gizos.Bundle.Contents

/-! # How the installer reads an archive

The tar state machine takes an archive in pieces of any size. What its hooks do at the start of an
entry, at some of its contents and at its end is said once in a `Reader`; that the machine then
follows the entries of the bytes it was given, whatever the pieces, is proved here for every
reader.
-/
namespace Gizos.Bundle

open Fault Pal InstallOptions

variable {front input block : Bytes} {zeros remaining : Nat} {digest : Bool}
  {entries : List (Entry × Bytes)} {entry : Entry}

/-- What an install of a kind does with the entries of an archive: a predicate for the time
between entries and one for the time inside the contents of an entry, which the hooks of the state
machine establish one after the other. Both are about what the machine knows apart from where it
stands. -/
structure Reader (options : InstallOptions) where
  /-- What the platform may do. -/
  admits : Answer → Prop
  /-- The fronts of the archives that are read. -/
  allowed : Bytes → Prop
  /-- After some entries. -/
  between : List (Entry × Bytes) → TarState × Storage → Prop
  /-- After some entries and the first contents of another one. -/
  during : List (Entry × Bytes) → Entry → Bytes → TarState × Storage → Prop
  /-- Where reading may fail or be cut. -/
  bad : TarState × Storage → Prop
  front : ∀ {first second : Bytes}, allowed (first ++ second) → allowed first
  /-- Giving up leads to no other place. -/
  releases : ∀ {state : TarState × Storage}, bad state →
    Always admits options.releaseEntryBuffers bad state
  /-- Calls without effect may fail only where reading may. -/
  calls : ∀ {state : TarState × Storage},
    ((∃ entries, between entries (state.1.payload, state.2)) ∨
      ∃ entries entry got, during entries entry got (state.1.payload, state.2)) →
    Ensures admits (onStore probe) (fun _ after => after = state) (fun _ => bad) bad state
  /-- A block that is neither a header nor zero. -/
  refuses : ∀ {bytes block : Bytes} {zeros : Nat} {entries : List (Entry × Bytes)} {code : Int}
    {state : TarState} {store : Storage}, Wrote bytes zeros entries → zeros < 2 →
      block.length = 512 →
    allowed (bytes ++ block) → tarParseHeader block = .error code →
    between entries (state.payload, store) → bad (state, store)
  /-- Padding is looked at only where a digest is computed. -/
  unclean : ∀ {entries : List (Entry × Bytes)} {state : TarState} {store : Storage},
    between entries (state.payload, store) → state.dataDigest = true → bad (state, store)
  start : ∀ {bytes block : Bytes} {zeros : Nat} {entries : List (Entry × Bytes)} {entry : Entry}
    {state : TarState} {store : Storage}, Wrote bytes zeros entries → zeros < 2 →
    HeaderBlock block entry → allowed (bytes ++ block) →
    between entries (state.payload, store) →
    Ensures admits (options.startEntry entry) (fun _ after =>
      (entry.size = 0 → between (entries ++ [(entry, [])]) (after.1.payload, after.2)) ∧
      (entry.size ≠ 0 → during entries entry [] (after.1.payload, after.2)))
      (fun _ => bad) bad (state, store)
  /-- Contents are taken. -/
  put : ∀ {entries : List (Entry × Bytes)} {entry : Entry} {got data : Bytes}
    {state : TarState} {store : Storage}, during entries entry got (state.payload, store) →
    data ≠ [] → got.length + data.length ≤ entry.size →
    Ensures admits (options.putContent state data) (fun _ after =>
      during entries entry (got ++ data) ((after.1.advance options.crc32 data).payload, after.2))
      (fun _ => bad) bad (state.hashing data, store)
  /-- The contents are over. -/
  finish : ∀ {bytes block content : Bytes} {zeros : Nat} {entries : List (Entry × Bytes)}
    {entry : Entry} {state : TarState} {store : Storage}, Wrote bytes zeros entries → zeros < 2 →
    HeaderBlock block entry → allowed (bytes ++ (block ++ content)) →
    during entries entry content (state.payload, store) →
    content.length = entry.size → entry.size ≠ 0 →
    Ensures admits options.finishFileEntry (fun _ after =>
      between (entries ++ [(entry, content)]) (after.1.payload, after.2))
      (fun _ => bad) bad (state, store)

namespace Reader

variable {options : InstallOptions} (reader : Reader options)

/-- The state machine has been fed these bytes. -/
inductive Fed (bytes : Bytes) : TarState × Storage → Prop where
  /-- It is in front of a block, or inside one. -/
  | header {front part : Bytes} {zeros remaining padding : Nat} {digest : Bool}
    {entries : List (Entry × Bytes)} {state : TarState} {store : Storage}
    (wrote : Wrote front zeros entries) (few : zeros < 2) (read : bytes = front ++ part)
    (short : part.length < 512) (kind : state.kind = .header)
    (stands : state.cursor = (part, remaining, padding, zeros, false, digest))
    (holds : reader.between entries (state.payload, store)) : Fed bytes (state, store)
  /-- It is inside the contents of an entry. -/
  | content {front block got : Bytes} {zeros remaining : Nat} {digest : Bool}
    {entries : List (Entry × Bytes)} {entry : Entry} {state : TarState} {store : Storage}
    (wrote : Wrote front zeros entries) (few : zeros < 2) (parsed : HeaderBlock block entry)
    (read : bytes = front ++ (block ++ got)) (whole : got.length + remaining = entry.size)
    (more : remaining ≠ 0) (kind : state.kind = .file)
    (stands : state.cursor = ([], remaining, tarPadding entry.size, 0, false, digest))
    (holds : reader.during entries entry got (state.payload, store)) : Fed bytes (state, store)
  /-- It is inside the padding of an entry. -/
  | padding {front block content got : Bytes} {zeros remaining left : Nat} {digest : Bool}
    {entries : List (Entry × Bytes)} {entry : Entry} {state : TarState} {store : Storage}
    (wrote : Wrote front zeros entries) (few : zeros < 2) (parsed : HeaderBlock block entry)
    (whole : content.length = entry.size) (read : bytes = front ++ (block ++ (content ++ got)))
    (padded : got.length + left = tarPadding entry.size) (more : left ≠ 0)
    (kind : state.kind = .padding)
    (stands : state.cursor = ([], remaining, left, 0, false, digest))
    (holds : reader.between (entries ++ [(entry, content)]) (state.payload, store)) :
    Fed bytes (state, store)
  /-- It has seen the end of the archive. -/
  | finished {front rest : Bytes} {remaining padding : Nat} {digest : Bool}
    {entries : List (Entry × Bytes)} {state : TarState} {store : Storage}
    (wrote : Wrote front 2 entries) (read : bytes = front ++ rest) (kind : state.kind = .header)
    (stands : state.cursor = ([], remaining, padding, 2, true, digest))
    (holds : reader.between entries (state.payload, store)) : Fed bytes (state, store)

/-- Some of the input was taken, and at least one byte of it. -/
def Took (bytes input rest : Bytes) (after : TarState × Storage) : Prop :=
  ∃ taken, taken ≠ [] ∧ input = taken ++ rest ∧ reader.Fed (bytes ++ taken) after

variable {reader} {bytes : Bytes} {state : TarState} {store : Storage}

theorem Fed.done {state : TarState × Storage} (fed : reader.Fed bytes state)
    (ended : state.1.done = true) (more : Bytes) : reader.Fed (bytes ++ more) state := by
  have flag : state.1.done = state.1.cursor.2.2.2.2.1 := rfl
  rw [flag] at ended
  cases fed with
  | header _ _ _ _ _ stands _ | content _ _ _ _ _ _ _ stands _ | padding _ _ _ _ _ _ _ _ stands _ =>
    exact absurd (stands ▸ ended) nofun
  | @finished front rest _ _ _ _ _ _ wrote read kind stands holds =>
    exact .finished wrote (by rw [read, List.append_assoc]) kind stands holds

section

variable (wrote : Wrote front zeros entries) (few : zeros < 2)

include wrote few

theorem ensures_block {part : Bytes} {padding : Nat} (size : (part ++ input).length = 512)
    (kind : state.kind = .header)
    (stands : state.cursor = ([], remaining, padding, zeros, false, digest))
    (holds : reader.between entries (state.payload, store))
    (allowed : reader.allowed (front ++ (part ++ input))) {rest : Bytes} :
    Ensures reader.admits (do
      match ← (Program.conclude (tarParseHeader (part ++ input)) : InstallRoutine (Option Entry))
        with
      | none => do
        assign fun state => { state with
          zeroBlocks := state.zeroBlocks + 1
          done := state.done || decide (2 ≤ state.zeroBlocks + 1) }
        pure rest
      | some entry => do
        assign fun state => { state with zeroBlocks := 0 }
        options.startEntry entry
        pure rest)
      (fun left after => left = rest ∧ reader.Fed (front ++ (part ++ input)) after)
      (fun _ => reader.bad) reader.bad (state, store) := by
  cases parsed : tarParseHeader (part ++ input) with
  | error code =>
    exact .bind (.fail (reader.refuses wrote few size allowed parsed holds))
  | ok found =>
    refine .bind (.ret ?_)
    cases found with
    | none =>
      refine .bind (.update (.pure ⟨rfl, ?_⟩))
      have longer := wrote.zero ⟨size, parsed⟩
      have counted : TarState.cursor { state with
          zeroBlocks := state.zeroBlocks + 1
          done := state.done || decide (2 ≤ state.zeroBlocks + 1) } =
          ([], remaining, padding, zeros + 1, decide (2 ≤ zeros + 1), digest) := by
        simp only [TarState.cursor, Prod.mk.injEq] at stands ⊢
        simp [stands]
      by_cases last : zeros = 1
      · subst last
        exact .finished longer (List.append_nil _).symm kind counted holds
      · obtain rfl : zeros = 0 := by omega
        exact .header longer (by omega) (List.append_nil _).symm (by decide) kind counted holds
    | some entry =>
      refine .bind (.update ?_)
      have safe := tarParseHeader_safe parsed
      have block : HeaderBlock (part ++ input) entry := ⟨size, parsed⟩
      have fresh : reader.between entries (TarState.payload { state with zeroBlocks := 0 },
        store) :=
        holds
      refine .bind (((reader.start wrote few block allowed fresh).and
        (returns_startEntry safe.2 (by exact kind) store)).mono ?_
        (fun _ _ failed => failed.1) fun _ cut => cut.1)
      rintro _ ⟨after, later⟩ ⟨⟨none, some⟩, kinds, stood⟩
      refine .pure ⟨rfl, ?_⟩
      have stands' : after.cursor = ([], entry.size, tarPadding entry.size, 0, false, digest) := by
        refine Eq.trans stood ?_
        simp only [TarState.cursor, Prod.mk.injEq] at stands
        simp [TarState.cursor, InstallOptions.enterEntry, stands]
      by_cases empty : entry.size = 0
      · have bare : ([] : Bytes).length = entry.size ∧ ([] : Bytes).length =
          tarPadding entry.size := by
          rw [empty]
          exact ⟨rfl, rfl⟩
        have written := wrote.entry few block bare.1 bare.2
        refine .header written (by decide) (by simp) (by decide) ?_ stands' (none empty)
        rw [kinds, kindOf, if_pos empty]
      · refine .content wrote few block (by simp) (by simp) empty ?_ stands' (some empty)
        rw [kinds, kindOf, if_neg empty]

theorem ensures_consumeHeaderBytes {part : Bytes} {padding : Nat} (short : part.length < 512)
    (kind : state.kind = .header)
    (stands : state.cursor = (part, remaining, padding, zeros, false, digest))
    (holds : reader.between entries (state.payload, store)) (some : input ≠ [])
    (allowed : reader.allowed (front ++ part ++ input)) :
    Ensures reader.admits (options.consumeHeaderBytes input)
      (fun rest after => reader.Took (front ++ part) input rest after)
      (fun _ => reader.bad) reader.bad (state, store) := by
  refine .bind (.read ?_)
  have header : state.header = part := congrArg Prod.fst stands
  dsimp only
  rw [header]
  have parts := List.take_append_drop (512 - part.length) input
  have taken : input.take (512 - part.length) ≠ [] := by
    rw [Ne, List.take_eq_nil_iff]
    exact not_or.mpr ⟨by omega, some⟩
  split
  · rename_i incomplete
    refine .bind (.update (.pure ⟨_, taken, parts.symm, ?_⟩))
    have moved : TarState.cursor { state with header := part ++ input.take (512 - part.length) } =
        (part ++ input.take (512 - part.length), remaining, padding, zeros, false, digest) := by
      simp only [TarState.cursor, Prod.mk.injEq] at stands ⊢
      simp [stands]
    exact .header wrote few (List.append_assoc ..) incomplete kind moved holds
  · rename_i complete
    refine .bind (.update ?_)
    have size : (part ++ input.take (512 - part.length)).length = 512 := by
      rw [List.length_append, List.length_take] at complete ⊢
      omega
    have moved : TarState.cursor { state with header := [] } =
        ([], remaining, padding, zeros, false, digest) := by
      simp only [TarState.cursor, Prod.mk.injEq] at stands ⊢
      simp [stands]
    have permitted : reader.allowed (front ++ (part ++ input.take (512 - part.length))) := by
      have whole : front ++ part ++ input = (front ++ (part ++ input.take (512 - part.length))) ++
          input.drop (512 - part.length) := by
        rw [List.append_assoc, List.append_assoc, List.append_assoc, parts]
      rw [whole] at allowed
      exact reader.front allowed
    have front : TarState.kind { state with header := [] } = .header := kind
    refine (ensures_block wrote few size front moved holds permitted).imp ?_
    rintro rest after ⟨rfl, fed⟩
    rw [← List.append_assoc] at fed
    exact ⟨_, taken, parts.symm, fed⟩

theorem ensures_consumePaddingBytes {content got : Bytes} {left : Nat}
    (parsed : HeaderBlock block entry) (whole : content.length = entry.size)
    (padded : got.length + left = tarPadding entry.size) (more : left ≠ 0)
    (kind : state.kind = .padding) (stands : state.cursor = ([], remaining, left, 0, false, digest))
    (holds : reader.between (entries ++ [(entry, content)]) (state.payload, store))
    (some : input ≠ []) :
    Ensures reader.admits (InstallOptions.consumePaddingBytes input)
      (fun rest after => reader.Took (front ++ (block ++ (content ++ got))) input rest after)
      (fun _ => reader.bad) reader.bad (state, store) := by
  refine .bind (.read (.bind (.require (fun _ => ?_) fun unclean => ?_)))
  · have still : state.paddingRemaining = left := congrArg (fun cursor => cursor.2.2.1) stands
    rw [still]
    refine .bind (.update (.pure ⟨input.take left, ?_, (List.take_append_drop ..).symm, ?_⟩))
    · rw [Ne, List.take_eq_nil_iff]
      exact not_or.mpr ⟨more, some⟩
    have moved : TarState.cursor { state with
        paddingRemaining := left - (input.take left).length
        kind := if left - (input.take left).length = 0 then .header else state.kind } =
        ([], remaining, left - (input.take left).length, 0, false, digest) := by
      simp only [TarState.cursor, Prod.mk.injEq] at stands ⊢
      simp [stands]
    have read : front ++ (block ++ (content ++ got)) ++ input.take left =
        front ++ (block ++ (content ++ (got ++ input.take left))) := by
      simp
    by_cases past : left - (input.take left).length = 0
    · have ended : (got ++ input.take left).length = tarPadding entry.size := by
        rw [List.length_append]
        rw [List.length_take] at past ⊢
        omega
      exact .header (wrote.entry few parsed whole ended) (by decide)
        (read.trans (List.append_nil _).symm) (by decide) (if_pos past) moved holds
    · refine .padding wrote few parsed whole read ?_ past ((if_neg past).trans kind) moved holds
      rw [List.length_append]
      omega
  · refine reader.unclean holds ?_
    cases digests : state.dataDigest with
    | true => rfl
    | false => exact absurd (.inl digests) unclean

theorem ensures_over {content : Bytes} (parsed : HeaderBlock block entry)
    (whole : content.length = entry.size) (filled : entry.size ≠ 0)
    (allowed : reader.allowed (front ++ (block ++ content)))
    (stands : state.cursor = ([], 0, tarPadding entry.size, 0, false, digest))
    (holds : reader.during entries entry content (state.payload, store)) :
    Ensures reader.admits options.finishFileEntry
      (fun _ => reader.Fed (front ++ (block ++ content))) (fun _ => reader.bad) reader.bad
      (state, store) := by
  refine ((reader.finish wrote few parsed allowed holds whole filled).and
    (returns_finishFileEntry state store)).mono ?_ (fun _ _ failed => failed.1)
    fun _ cut => cut.1
  rintro _ ⟨after, later⟩ ⟨ended, kind, same⟩
  have stood : after.cursor = ([], 0, tarPadding entry.size, 0, false, digest) := same.trans stands
  have left : after.paddingRemaining = tarPadding entry.size :=
    congrArg (fun cursor => cursor.2.2.1) stood
  have kind : after.kind = kindAfter (tarPadding entry.size) := left ▸ kind
  by_cases padded : tarPadding entry.size = 0
  · have bare : ([] : Bytes).length = tarPadding entry.size := padded.symm
    refine .header (wrote.entry few parsed whole bare) (by decide) (by simp) (by decide) ?_ stood
      ended
    rw [kind, padded]
    rfl
  · have read : front ++ (block ++ content) = front ++ (block ++ (content ++ [])) := by simp
    refine .padding wrote few parsed whole read (Nat.zero_add _) padded ?_ stood ended
    rw [kind, kindAfter, if_pos (Nat.pos_of_ne_zero padded)]

theorem ensures_consumeFileBytes {got : Bytes} (parsed : HeaderBlock block entry)
    (whole : got.length + remaining = entry.size) (more : remaining ≠ 0) (kind : state.kind = .file)
    (stands : state.cursor = ([], remaining, tarPadding entry.size, 0, false, digest))
    (holds : reader.during entries entry got (state.payload, store)) (some : input ≠ [])
    (allowed : reader.allowed (front ++ (block ++ got) ++ input)) :
    Ensures reader.admits (options.consumeFileBytes input)
      (fun rest after => reader.Took (front ++ (block ++ got)) input rest after)
      (fun _ => reader.bad) reader.bad (state, store) := by
  refine .bind (.read ?_)
  have still : state.remaining = remaining := congrArg (fun cursor => cursor.2.1) stands
  rw [still]
  set data := input.take remaining with taken
  have count : data.length = min remaining input.length := List.length_take
  have nonempty : data ≠ [] := by
    rw [Ne, List.take_eq_nil_iff]
    exact not_or.mpr ⟨more, some⟩
  rw [if_neg nonempty]
  refine .bind (.update (.bind ?_))
  have fits : got.length + data.length ≤ entry.size := by omega
  refine .leaving (leaves_putContent
    (fun state => (state.kind, state.cursor)) (fun _ _ => rfl) (fun _ _ => rfl) state data)
    ((reader.put holds nonempty fits).mono ?_ (fun _ _ failed _ => failed) fun _ cut _ => cut)
  rintro _ ⟨after, later⟩ ended same
  refine .bind (.update (.bind ?_))
  have kept : after.kind = .file ∧
      after.cursor = ([], remaining, tarPadding entry.size, 0, false, digest) := by
    have same := Prod.mk.inj (same.trans (TarState.stands_hashing data state))
    exact ⟨same.1.trans kind, same.2.trans stands⟩
  have moved : (after.advance options.crc32 data).cursor =
      ([], remaining - data.length, tarPadding entry.size, 0, false, digest) := by
    have stood := kept.2
    simp only [TarState.cursor, Prod.mk.injEq] at stood ⊢
    simp [TarState.advance, stood]
  have parts : input = data ++ input.drop remaining := (List.take_append_drop ..).symm
  have read : front ++ (block ++ got) ++ data = front ++ (block ++ (got ++ data)) := by simp
  unfold InstallOptions.finishIfOver
  by_cases past : remaining - data.length = 0
  · rw [if_pos past]
    rw [past] at moved
    have complete : (got ++ data).length = entry.size := by
      rw [List.length_append]
      omega
    have permitted : reader.allowed (front ++ (block ++ (got ++ data))) := by
      rw [parts, ← List.append_assoc, read] at allowed
      exact reader.front allowed
    refine (ensures_over wrote few parsed complete (by omega) permitted moved ended).imp
      fun _ done fed => ?_
    exact .pure ⟨data, nonempty, parts, read ▸ fed⟩
  · rw [if_neg past]
    refine .pure (.pure ⟨data, nonempty, parts, ?_⟩)
    refine .content wrote few parsed read ?_ past kept.1 moved ended
    rw [List.length_append]
    omega

end

section

variable {state : TarState × Storage}

theorem ensures_giveUp {α : Type} {onReturn : α → TarState × Storage → Prop} (code : Int)
    (failed : reader.bad state) :
    Ensures reader.admits (options.giveUp code) onReturn (fun _ => reader.bad) reader.bad state :=
  .bind ((reader.releases failed).imp fun _ _ bad => .fail bad)

variable (fed : reader.Fed bytes state)

include fed

theorem Fed.consume {input : Bytes}
    (ongoing : state.1.done = false) (some : input ≠ [])
    (allowed : reader.allowed (bytes ++ input)) :
    Ensures reader.admits (options.consume input)
      (fun rest after => reader.Took bytes input rest after) (fun _ => reader.bad) reader.bad
      state := by
  refine .bind (.read ?_)
  cases fed with
  | header wrote few read short kind stands holds =>
    rw [kind, read]
    rw [read] at allowed
    exact ensures_consumeHeaderBytes wrote few short kind stands holds some allowed
  | content wrote few parsed read whole more kind stands holds =>
    rw [kind, read]
    rw [read] at allowed
    exact ensures_consumeFileBytes wrote few parsed whole more kind stands holds some allowed
  | padding wrote few parsed whole read padded more kind stands holds =>
    rw [kind, read]
    exact ensures_consumePaddingBytes wrote few parsed whole padded more kind stands holds some
  | finished wrote read kind stands holds =>
    have ended := congrArg (fun cursor => cursor.2.2.2.2.1) stands
    cases ongoing.symm.trans ended

/-- The loop of `tar_state_feed` takes the whole input, or all up to the end of the archive. -/
theorem Fed.feedLoop {fuel : Nat} {input : Bytes} (enough : input.length < fuel)
    (allowed : reader.allowed (bytes ++ input)) :
    Ensures reader.admits (options.feedLoop fuel input)
      (fun rest after => reader.Fed (bytes ++ input) after ∧
        (rest ≠ [] → after.1.done = true)) (fun _ => reader.bad) reader.bad state := by
  induction fuel generalizing bytes state input with
  | zero => exact absurd enough (Nat.not_lt_zero _)
  | succ fuel ih =>
    refine .bind (.read ?_)
    split
    · rename_i past
      refine .pure ?_
      rcases past with rfl | ended
      · exact ⟨(List.append_nil bytes).symm ▸ fed, fun some => absurd rfl some⟩
      · exact ⟨fed.done ended input, fun _ => ended⟩
    · rename_i going
      have some : input ≠ [] := fun none => going (.inl none)
      have ongoing : state.1.done = false := Bool.eq_false_iff.mpr fun ended => going (.inr ended)
      refine .bind (.recovering ((fed.consume ongoing some allowed).mono ?_
        (fun code _ failed => ensures_giveUp code failed) fun _ => id))
      rintro rest after ⟨taken, nonempty, rfl, later⟩
      have shorter : rest.length < fuel := by
        have long := List.length_pos_iff.mpr nonempty
        rw [List.length_append] at enough
        omega
      rw [← List.append_assoc] at allowed ⊢
      exact ih later shorter allowed

theorem Fed.feed {data : Bytes}
    (allowed : reader.allowed (bytes ++ data)) :
    Ensures reader.admits (options.feed data) (fun _ => reader.Fed (bytes ++ data))
      (fun _ => reader.bad) reader.bad state := by
  refine .bind ((fed.feedLoop (by omega) allowed).imp ?_)
  rintro rest after ⟨later, -⟩
  refine .bind (.read (.require (fun _ => later) fun unclean => ?_))
  have digests : after.1.dataDigest = true := by
    cases digest : after.1.dataDigest with
    | true => rfl
    | false => exact absurd (.inl digest) unclean
  have ended : after.1.done = true := by
    cases done : after.1.done with
    | true => rfl
    | false => exact absurd (.inr (.inl done)) unclean
  cases later with
  | header _ _ _ _ _ _ holds | padding _ _ _ _ _ _ _ _ _ holds | finished _ _ _ _ holds =>
    exact reader.unclean holds digests
  | content _ _ _ _ _ _ _ stands _ =>
    cases ended.symm.trans (congrArg (fun cursor => cursor.2.2.2.2.1) stands)

/-- A call without effect between the bytes of an archive. -/
theorem Fed.call :
    Ensures reader.admits (onStore probe) (fun _ after => after = state) (fun _ => reader.bad)
      reader.bad state := by
  refine reader.calls ?_
  cases fed with
  | header _ _ _ _ _ _ holds | padding _ _ _ _ _ _ _ _ _ holds | finished _ _ _ _ holds =>
    exact .inl ⟨_, holds⟩
  | content _ _ _ _ _ _ _ _ holds => exact .inr ⟨_, _, _, holds⟩

theorem Fed.readCall :
    Ensures reader.admits ((mapFs (onStore probe)).recovering options.giveUp)
      (fun _ => reader.Fed bytes) (fun _ => reader.bad) reader.bad state := by
  refine .recovering (.recovering (fed.call.mono ?_ (fun _ _ failed => .fail
    (ensures_giveUp _ failed)) fun _ => id))
  rintro _ after rfl
  exact fed

/-- The pieces of an archive are fed one after the other, whatever their sizes. -/
theorem Fed.feedPieces {pieces : List Bytes}
    (allowed : reader.allowed (bytes ++ pieces.flatten)) :
    Ensures reader.admits (options.feedPieces pieces)
      (fun _ => reader.Fed (bytes ++ pieces.flatten)) (fun _ => reader.bad) reader.bad state := by
  induction pieces generalizing bytes state with
  | nil => exact .pure ((List.append_nil bytes).symm ▸ fed)
  | cons piece rest ih =>
    rw [List.flatten_cons, ← List.append_assoc] at allowed ⊢
    exact .bind (fed.readCall.imp fun _ _ fed => .bind
      ((fed.feed (reader.front allowed)).imp fun _ _ later => ih later allowed))

/-- Where reading may end, the archive is complete but for a second zero block. -/
theorem Fed.ended
    (kind : state.1.kind = .header) (header : state.1.header = [])
    (zeros : state.1.zeroBlocks ≠ 0) :
    ∃ entries, reader.between entries (state.1.payload, state.2) ∧
      Contents (bytes ++ List.replicate 512 0) entries := by
  cases fed with
  | @header front part count _ _ _ entries state store wrote few read _ _ stands holds =>
    have blocks : state.zeroBlocks = count := congrArg (fun cursor => cursor.2.2.2.1) stands
    have empty : part = [] := (congrArg Prod.fst stands).symm.trans header
    subst empty
    rw [read, List.append_nil]
    have one : count = 1 := by
      have : count ≠ 0 := fun none => zeros (blocks.trans none)
      omega
    subst one
    exact ⟨entries, holds, wrote.contents_marked⟩
  | content _ _ _ _ _ _ file _ _ | padding _ _ _ _ _ _ _ file _ _ => cases file.symm.trans kind
  | @finished front rest _ _ _ entries state store wrote read _ _ holds =>
    rw [read, List.append_assoc]
    exact ⟨entries, holds, wrote.contents _⟩

end

theorem fed_start {state : TarState} (kind : state.kind = .header)
    (stands : ∃ digest, state.cursor = ([], 0, 0, 0, false, digest))
    (holds : reader.between [] (state.payload, store)) : reader.Fed [] (state, store) := by
  obtain ⟨digest, stands⟩ := stands
  exact .header .start (by decide) rfl (by decide) kind stands holds

end Reader

end Gizos.Bundle
