import Gizos.Loader.Package.DataChecksum

/-! # Validation and the pieces of a stream

The layout validator is handed a decompressed package in pieces. What it makes of the stream
does not depend on where the pieces end. A pass of its loop takes the bytes its state asks for, as
far as the piece has them; a pass that finds fewer goes on with the next piece as if there had been
no end between them.
-/
namespace Gizos.Loader.LayoutValidator

open Gizos.Bundle AcceptedPackage

variable {digest : DigestApi} {appEntryPath : Bytes} {v after : LayoutValidator}

variable {piece bytes : Bytes}

/-- The bytes a pass takes when it gets them. -/
def need (v : LayoutValidator) : Nat :=
  if v.readingHeader then 512 - v.header.length
  else if v.readingPadding then v.paddingRemaining
  else v.remaining

/-- What a pass makes of the bytes it takes. -/
def pass (digest : DigestApi) (appEntryPath : Bytes) (v : LayoutValidator) (piece : Bytes) :
    Except Int LayoutValidator :=
  (consume digest appEntryPath v piece).map Prod.fst

theorem consume_eq_pass (v : LayoutValidator) (data : Bytes) :
    consume digest appEntryPath v data =
      (pass digest appEntryPath v (data.take v.need)).map fun after =>
        (after, data.drop v.need) := by
  have cut (count : Nat) : data.take (min count data.length) = data.take count ∧
      data.drop (min count data.length) = data.drop count := by
    rcases Nat.le_total count data.length with less | more
    · rw [Nat.min_eq_left less]
      exact ⟨rfl, rfl⟩
    · rw [Nat.min_eq_right more, List.take_length, List.take_of_length_le more, List.drop_length,
        List.drop_of_length_le more]
      exact ⟨rfl, rfl⟩
  have again (count : Nat) : min count (data.take count).length = min count data.length := by
    rw [List.length_take]
    omega
  unfold pass consume need
  split
  · unfold consumeHeader
    dsimp only
    rw [again, List.take_take, Nat.min_right_comm, Nat.min_self, (cut _).2]
    split
    · rfl
    · cases takeHeader digest appEntryPath { v with header := [] } _ <;> rfl
  · split
    · unfold consumePadding
      dsimp only
      rw [again, (cut _).2]
      split <;> rfl
    · unfold consumeFile
      dsimp only
      rw [again, List.take_take, Nat.min_right_comm, Nat.min_self, (cut _).1, (cut _).2]
      cases absorb v (data.take v.remaining) with
      | error code => rfl
      | ok absorbed =>
        dsimp only [Bind.bind, Except.bind]
        split
        · cases finishEntry digest _ <;> rfl
        · rfl

theorem pass_header (reading : v.readingHeader = true)
    (fits : piece.length ≤ 512 - v.header.length) :
    pass digest appEntryPath v piece =
      if (v.header ++ piece).length < 512 then .ok { v with header := v.header ++ piece }
      else takeHeader digest appEntryPath { v with header := [] } (v.header ++ piece) := by
  unfold pass consume
  rw [if_pos reading]
  unfold consumeHeader
  dsimp only
  rw [Nat.min_eq_right fits, List.take_length]
  split
  · rfl
  · cases takeHeader digest appEntryPath { v with header := [] } (v.header ++ piece) <;> rfl

theorem pass_padding (reading : v.readingHeader = false) (padding : v.readingPadding = true)
    (fits : piece.length ≤ v.paddingRemaining) :
    pass digest appEntryPath v piece = .ok
      (if v.paddingRemaining - piece.length = 0 then
        { v with
          paddingRemaining := v.paddingRemaining - piece.length
          readingPadding := false
          readingHeader := true }
      else { v with paddingRemaining := v.paddingRemaining - piece.length }) := by
  unfold pass consume consumePadding
  rw [if_neg (by simp [reading]), if_pos padding]
  dsimp only
  rw [Nat.min_eq_right fits]
  split <;> rfl

theorem pass_file (reading : v.readingHeader = false) (padding : v.readingPadding = false)
    (fits : piece.length ≤ v.remaining) :
    pass digest appEntryPath v piece = absorb v piece >>= fun taken =>
      if taken.remaining - piece.length = 0 then
        finishEntry digest { taken with remaining := taken.remaining - piece.length }
      else .ok { taken with remaining := taken.remaining - piece.length } := by
  unfold pass consume consumeFile
  rw [if_neg (by simp [reading]), if_neg (by simp [padding])]
  dsimp only
  rw [Nat.min_eq_right fits, List.take_length]
  cases absorb v piece with
  | error code => rfl
  | ok taken =>
    dsimp only [Bind.bind, Except.bind]
    split
    · cases finishEntry digest { taken with remaining := taken.remaining - piece.length } <;> rfl
    · rfl

/-- Content that does not fit does not fit with more behind it. -/
theorem absorb_error {first : Bytes} {code : Int} (failed : absorb v first = .error code)
    (second : Bytes) : absorb v (first ++ second) = .error code := by
  have longer (count limit : Nat) (past : limit < count + first.length) :
      limit < count + (first ++ second).length := by
    rw [List.length_append]
    omega
  unfold absorb at failed ⊢
  split at failed
  · rw [if_pos ‹_›]
    split at failed
    · rw [if_pos (longer _ _ ‹_›)]
      exact failed
    · cases failed
  · rw [if_neg ‹_›]
    split at failed
    · rw [if_pos ‹_›]
      split at failed
      · rw [if_pos (longer _ _ ‹_›)]
        exact failed
      · cases failed
    · split_ifs at failed

/-- A pass that gets less than it needs stays in its phase and needs the rest. -/
theorem pass_short {first second : Bytes} (short : first.length < v.need)
    (fits : (first ++ second).length ≤ v.need) :
    (∃ code, pass digest appEntryPath v first = .error code ∧
      pass digest appEntryPath v (first ++ second) = .error code) ∨
    ∃ middle, pass digest appEntryPath v first = .ok middle ∧
      middle.need = v.need - first.length ∧ middle.done = v.done ∧
      pass digest appEntryPath v (first ++ second) = pass digest appEntryPath middle second := by
  have length : (first ++ second).length = first.length + second.length := List.length_append
  unfold need at short fits ⊢
  by_cases reading : v.readingHeader = true
  · rw [if_pos reading] at short fits ⊢
    have more : (v.header ++ first).length < 512 := by
      rw [List.length_append]
      omega
    rw [pass_header reading (by omega), if_pos more, pass_header reading fits]
    refine .inr ⟨_, rfl, ?_, rfl, ?_⟩
    · rw [if_pos reading, List.length_append]
      omega
    · rw [pass_header (v := { v with header := v.header ++ first }) reading
        (by simp only [List.length_append]; omega), List.append_assoc]
  have header : v.readingHeader = false := by simpa using reading
  rw [if_neg reading] at short fits ⊢
  by_cases padding : v.readingPadding = true
  · rw [if_pos padding] at short fits ⊢
    rw [pass_padding header padding (by omega), if_neg (by omega), pass_padding header padding fits]
    refine .inr ⟨_, rfl, ?_, rfl, ?_⟩
    · rw [if_neg reading, if_pos padding]
    · rw [pass_padding (v := { v with paddingRemaining := v.paddingRemaining - first.length })
        header padding (by dsimp only; omega), length, Nat.sub_add_eq]
  have content : v.readingPadding = false := by simpa using padding
  rw [if_neg padding] at short fits ⊢
  rw [pass_file header content (by omega), pass_file header content fits]
  cases absorbed : absorb v first with
  | error code =>
    rw [absorb_error absorbed]
    exact .inl ⟨code, rfl, rfl⟩
  | ok taken =>
    obtain ⟨position, sameHeader, samePadding⟩ := absorb_position absorbed
    simp only [LayoutValidator.position, Prod.mk.injEq] at position
    obtain ⟨-, -, sameDone, -, left, -⟩ := position
    refine .inr ⟨{ taken with remaining := taken.remaining - first.length }, ?_, ?_, sameDone, ?_⟩
    · dsimp only [Bind.bind, Except.bind]
      rw [if_neg (by omega)]
    · dsimp only
      rw [sameHeader, samePadding, if_neg reading, if_neg padding, left]
    · rw [pass_file (v := { taken with remaining := taken.remaining - first.length })
        (sameHeader.trans header) (samePadding.trans content) (by dsimp only; omega),
        absorb_remaining taken, absorb_append absorbed]
      cases again : absorb v (first ++ second) with
      | error code => rfl
      | ok whole =>
        have kept := (absorb_position again).1
        simp only [LayoutValidator.position, Prod.mk.injEq] at kept
        dsimp only [Except.map, Bind.bind, Except.bind]
        rw [length, kept.2.2.2.2.1, ← left, Nat.sub_add_eq]

section Feeding

variable {bytes : Bytes} {entries : List (Entry × Bytes)}

/-- The loop goes on after a pass as it would with a new piece. -/
theorem feed_pass (reads : Reads digest appEntryPath v bytes entries)
    (running : v.done = false) {data : Bytes} (more : data ≠ []) :
    feed digest appEntryPath v data =
      consume digest appEntryPath v data >>= fun next => feed digest appEntryPath
        next.1 next.2 := by
  have grow {w : LayoutValidator} {seen : Bytes} {earlier : List (Entry × Bytes)}
      (reads : Reads digest appEntryPath w seen earlier) (rest : Bytes) (extra : Nat) :
      feedLoop digest appEntryPath (rest.length + 1 + extra) w rest =
        feedLoop digest appEntryPath (rest.length + 1) w rest := by
    induction extra with
    | zero => rfl
    | succ extra ih =>
      have enough : rest.length < rest.length + 1 + extra := by omega
      exact (reads.feedLoop_fuel enough).trans ih
  conv_lhs => unfold feed
  rw [feedLoop, if_neg (by simp [running]), if_neg more]
  cases consumed : consume digest appEntryPath v data with
  | error code => rfl
  | ok next =>
    obtain ⟨after, rest⟩ := next
    have shorter := reads.consume_shorter running more consumed
    obtain ⟨piece, later, -, -, reads⟩ := reads.consume running consumed
    have large := grow reads rest (2 * data.length - rest.length)
    have small := grow reads rest (rest.length + 1)
    rw [show rest.length + 1 + (2 * data.length - rest.length) = 2 * data.length + 1 by omega]
      at large
    rw [show rest.length + 1 + (rest.length + 1) = 2 * rest.length + 2 by omega] at small
    exact large.trans small.symm

theorem feed_nil (v : LayoutValidator) : feed digest appEntryPath v [] = .ok v := by
  unfold feed
  rw [feedLoop]
  split <;> rfl

theorem feed_done (ended : v.done = true) (data : Bytes) :
    feed digest appEntryPath v data = if data.all (· = 0) then .ok v else .error errLayout := by
  unfold feed
  rw [feedLoop, if_pos ended]

/-- Two pieces one after the other are one piece. The induction follows the passes over the first
piece; only the last of them can find too little. -/
theorem feed_append (reads : Reads digest appEntryPath v bytes entries) (first second : Bytes) :
    feed digest appEntryPath v (first ++ second) =
      feed digest appEntryPath v first >>= fun middle =>
        feed digest appEntryPath middle second := by
  induction size : first.length using Nat.strong_induction_on generalizing v bytes
    entries first with
  | _ count ih =>
    by_cases ended : v.done = true
    · rw [feed_done ended, feed_done ended, List.all_append]
      cases clear : first.all (· = 0)
      · rfl
      · exact (feed_done ended second).symm
    by_cases none : first = []
    · rw [none, feed_nil]
      rfl
    by_cases last : second = []
    · rw [last, List.append_nil]
      simp only [feed_nil]
      cases feed digest appEntryPath v first <;> rfl
    have running : v.done = false := by simpa using ended
    have some : first ++ second ≠ [] := by simp [none]
    rw [feed_pass reads running none, feed_pass reads running some, consume_eq_pass,
      consume_eq_pass v first]
    by_cases enough : v.need ≤ first.length
    · rw [List.take_append_of_le_length enough, List.drop_append_of_le_length enough]
      cases passed : pass digest appEntryPath v (first.take v.need) with
      | error code => rfl
      | ok after =>
        have consumed : consume digest appEntryPath v first = .ok (after, first.drop v.need) := by
          rw [consume_eq_pass, passed]
          rfl
        have shorter := reads.consume_shorter running none consumed
        obtain ⟨piece, later, -, -, next⟩ := reads.consume running consumed
        exact ih _ (by omega) next _ rfl
    · have short : first.length < v.need := by omega
      rw [List.take_of_length_le (Nat.le_of_lt short), List.drop_of_length_le (Nat.le_of_lt short),
        List.take_append, List.take_of_length_le (Nat.le_of_lt short), List.drop_append,
        List.drop_of_length_le (Nat.le_of_lt short), List.nil_append]
      have fits : (first ++ second.take (v.need - first.length)).length ≤ v.need := by
        rw [List.length_append, List.length_take]
        omega
      rcases @pass_short digest appEntryPath v _ _ short fits with
        ⟨code, failed, whole⟩ | ⟨middle, passed, left, same, whole⟩
      · rw [failed, whole]
        rfl
      · have consumed : consume digest appEntryPath v first = .ok (middle, []) := by
          rw [consume_eq_pass, List.take_of_length_le (Nat.le_of_lt short), passed,
            List.drop_of_length_le (Nat.le_of_lt short)]
          rfl
        obtain ⟨piece, later, -, -, next⟩ := reads.consume running consumed
        rw [passed, whole, ← left, ← consume_eq_pass, ← feed_pass next (same.trans running) last]
        change _ = feed digest appEntryPath middle [] >>= fun middle =>
          feed digest appEntryPath middle second
        rw [feed_nil]
        rfl

/-- A stream fed in pieces is the stream fed at once. -/
theorem feed_pieces (reads : Reads digest appEntryPath v bytes entries) (pieces : List Bytes) :
    pieces.foldlM (feed digest appEntryPath) v = feed digest appEntryPath v pieces.flatten := by
  induction pieces generalizing v bytes entries with
  | nil => exact (feed_nil v).symm
  | cons piece pieces ih =>
    rw [List.foldlM_cons, List.flatten_cons, feed_append reads]
    cases fed : feed digest appEntryPath v piece with
    | error code => rfl
    | ok after =>
      obtain ⟨later, next⟩ := reads.feedLoop fed
      exact ih next

end Feeding

/-- The validator has taken `bytes` by passes of the loop, whatever pieces the passes saw. Behind
the end of the archive the loop only looks for bytes other than zero. -/
inductive Passed (digest : DigestApi) (appEntryPath : Bytes) : LayoutValidator → Bytes → Prop where
  | start : Passed digest appEntryPath .start []
  | pass {v after : LayoutValidator} {bytes piece rest : Bytes}
    (earlier : Passed digest appEntryPath v bytes) (running : v.done = false)
    (more : piece ++ rest ≠ [])
    (consumed : consume digest appEntryPath v (piece ++ rest) = .ok (after, rest)) :
    Passed digest appEntryPath after (bytes ++ piece)
  | zeros {v : LayoutValidator} {bytes data : Bytes}
    (earlier : Passed digest appEntryPath v bytes) (ended : v.done = true)
    (clear : data.all (· = 0)) : Passed digest appEntryPath v (bytes ++ data)

theorem Passed.reads (passed : Passed digest appEntryPath v bytes) :
    ∃ entries, Reads digest appEntryPath v bytes entries := by
  induction passed with
  | start => exact ⟨[], reads_start⟩
  | pass _ running _ consumed ih =>
    obtain ⟨entries, reads⟩ := ih
    obtain ⟨taken, later, split, -, reads⟩ := reads.consume running consumed
    obtain rfl := List.append_cancel_right split
    exact ⟨_, reads⟩
  | zeros _ ended clear ih =>
    obtain ⟨entries, reads⟩ := ih
    exact ⟨entries, reads.zeros ended clear⟩

/-- A pass does the same when its piece ends where it stops. -/
theorem feed_taken {rest : Bytes} {entries : List (Entry × Bytes)}
    (reads : Reads digest appEntryPath v bytes entries) (running : v.done = false)
    (more : piece ++ rest ≠ [])
    (consumed : consume digest appEntryPath v (piece ++ rest) = .ok (after, rest)) :
    feed digest appEntryPath v piece = .ok after := by
  have shorter := reads.consume_shorter running more consumed
  have taken : piece ≠ [] := by
    rintro rfl
    simp at shorter
  rw [consume_eq_pass] at consumed
  cases passed : pass digest appEntryPath v ((piece ++ rest).take v.need) with
  | error code =>
    rw [passed] at consumed
    cases consumed
  | ok middle =>
    rw [passed] at consumed
    obtain ⟨rfl, left⟩ := Prod.mk.inj (Except.ok.inj consumed)
    have whole := List.take_append_drop v.need (piece ++ rest)
    rw [left] at whole
    have same := List.append_cancel_right whole
    have tight : piece.length ≤ v.need := by
      rw [← same, List.length_take]
      omega
    rw [same] at passed
    rw [feed_pass reads running taken, consume_eq_pass, List.take_of_length_le tight, passed,
      List.drop_of_length_le tight]
    exact feed_nil middle

theorem Passed.feed_eq (passed : Passed digest appEntryPath v bytes) :
    feed digest appEntryPath .start bytes = .ok v := by
  induction passed with
  | start => exact feed_nil _
  | pass earlier running more consumed ih =>
    obtain ⟨entries, reads⟩ := earlier.reads
    rw [feed_append reads_start, ih]
    exact feed_taken reads running more consumed
  | zeros earlier ended clear ih =>
    rw [feed_append reads_start, ih]
    exact (feed_done ended _).trans (if_pos clear)

/-- Two ways of cutting a stream into pieces end with the same verdict, the same inspection and the
same validator. At the end of every pass the validator, with its running digest and all that
digest has been fed, is the one the bytes taken so far make of it; and every pass takes a byte. -/
theorem layout_chunking (digest : DigestApi) (appEntryPath : Bytes) {left right : List Bytes}
    (same : left.flatten = right.flatten) :
    validateLayout digest appEntryPath left = validateLayout digest appEntryPath right ∧
      left.foldlM (feed digest appEntryPath) .start =
        right.foldlM (feed digest appEntryPath) .start ∧
      ∀ v bytes, Passed digest appEntryPath v bytes →
        feed digest appEntryPath .start bytes = .ok v ∧
        ∀ data after rest, v.done = false → data ≠ [] →
          consume digest appEntryPath v data = .ok (after, rest) → rest.length < data.length := by
  have fed : left.foldlM (feed digest appEntryPath) start =
      right.foldlM (feed digest appEntryPath) start := by
    rw [feed_pieces reads_start, feed_pieces reads_start, same]
  refine ⟨?_, fed, fun v bytes passed => ⟨passed.feed_eq, ?_⟩⟩
  · unfold validateLayout
    rw [fed]
  · intro data after rest running more consumed
    obtain ⟨entries, reads⟩ := passed.reads
    exact reads.consume_shorter running more consumed

/-- An accepted package that is cut inside a header, inside a file and inside its padding. -/
theorem layout_chunking_cut :
    let package := samplePackage separateFiles [1, 2, 3, 4]
    let pieces := [package.take 300, (package.drop 300).take 220, (package.drop 520).take 380,
      package.drop 900]
    ([300, 520, 900].map fun count => (feed sampleDigest sampleAppPath .start
      (package.take count)).map
        fun v => (v.readingHeader, v.readingPadding)) =
        [.ok (true, false), .ok (false, false), .ok (false, true)] ∧
      ∃ inspection, validateLayout sampleDigest sampleAppPath pieces = .ok inspection := by
  intro package pieces
  have same : pieces.flatten = [package].flatten := by
    have joined (bytes : Bytes) : [bytes.take 300, (bytes.drop 300).take 220,
        (bytes.drop 520).take 380, bytes.drop 900].flatten = [bytes].flatten := by
      rw [show bytes.drop 900 = (bytes.drop 520).drop 380 by rw [List.drop_drop],
        show bytes.drop 520 = (bytes.drop 300).drop 220 by rw [List.drop_drop]]
      simp only [List.flatten_cons, List.flatten_nil, List.append_nil, List.take_append_drop]
    exact joined package
  obtain ⟨accepted, -, whole, -⟩ := exists_of_sampleAccepted separateFiles_accepted
  have valid := accepted.accepted
  rw [whole] at valid
  exact ⟨by decide +kernel, accepted.inspection,
    (layout_chunking sampleDigest sampleAppPath same).1.trans valid⟩

end Gizos.Loader.LayoutValidator
