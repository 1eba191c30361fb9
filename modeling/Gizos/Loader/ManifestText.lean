import Gizos.Bundle.Manifest
import Gizos.Loader.Image

/-! # Manifests read exactly

A manifest that one of the three parsers accepts is, byte for byte, the lines of its keys in their
order, and the fields are what the lines say. The two package parsers refuse a number that does not
fit its field; the parser of bundle manifest lines takes it modulo the width of the field.
-/
namespace Gizos.Loader

open Gizos.Bundle

variable {key text value : Bytes}

/-- A text of one line a key, each key with its value. A line may end in a carriage return. -/
inductive KeyLines : List Bytes → List Bytes → Bytes → Prop where
  | nil : KeyLines [] [] []
  | cons {keys values : List Bytes} {text : Bytes} (key : Bytes) {value : Bytes} (ending : Bytes)
    (filled : value ≠ []) (single : 10 ∉ value) (ends : ending = [] ∨ ending = [13])
    (rest : KeyLines keys values text) :
    KeyLines (key :: keys) (value :: values) (key ++ 61 :: (value ++ ending ++ 10 :: text))

/-- What the search for a key finds: the line is the key, the value and nothing else. -/
theorem line_split (ended : (text.takeWhile (· ≠ 10)).length ≠ text.length)
    (named : ¬((text.takeWhile (· ≠ 10)).length ≤ key.length ∨
      (text.takeWhile (· ≠ 10)).take key.length ≠ key ∨
      (text.takeWhile (· ≠ 10)).getD key.length 0 ≠ 61)) :
    let value := (text.takeWhile (· ≠ 10)).drop (key.length + 1)
    10 ∉ value ∧ text = key ++ 61 :: (value ++ 10 ::
      text.drop ((text.takeWhile (· ≠ 10)).length + 1)) := by
  have parts := @List.takeWhile_append_dropWhile _ (fun byte : UInt8 => decide (byte ≠ 10)) text
  have single : 10 ∉ text.takeWhile (· ≠ 10) := by
    intro member
    simpa using List.mem_takeWhile_imp member
  generalize text.takeWhile (· ≠ 10) = line at parts single ended named ⊢
  cases tail : text.dropWhile (fun byte => decide (byte ≠ 10)) with
  | nil =>
    rw [tail, List.append_nil] at parts
    exact absurd (congrArg List.length parts) ended
  | cons first rest =>
    have newline := List.head?_dropWhile_not (fun byte : UInt8 => decide (byte ≠ 10)) text
    rw [tail] at newline parts
    obtain rfl : first = 10 := by simpa using newline
    simp only [not_or, not_le, not_not] at named
    obtain ⟨long, same, equals⟩ := named
    rw [List.getD_eq_getElem _ _ long] at equals
    have cut : line = key ++ 61 :: line.drop (key.length + 1) := by
      conv_lhs => rw [← List.take_append_drop key.length line, same,
        List.drop_eq_getElem_cons long, equals]
    refine ⟨fun member => single (List.mem_of_mem_drop member), ?_⟩
    rw [← parts]
    conv_lhs => rw [cut]
    simp

/-- A line of a format-two manifest is the first of the text. -/
theorem segmentedLine_ok {rest : Bytes} (read : segmentedLine key text = .ok (value, rest))
    {keys values : List Bytes} (lines : KeyLines keys values rest) :
    KeyLines (key :: keys) (value :: values) text := by
  unfold segmentedLine at read
  dsimp only at read
  split at read
  · cases read
  split at read
  · cases read
  obtain ⟨single, same⟩ := line_split ‹_› ‹_›
  split at read
  · cases read
  cases read
  have whole := lines.cons key [] ‹_› single (.inl rfl)
  rw [List.append_nil, ← same] at whole
  exact whole

/-- A line of a format-one manifest is the first of the text, up to a carriage return. -/
theorem parseManifestLine_ok {rest : Bytes}
    (read : parseManifestLine key text = .ok (value, rest)) {keys values : List Bytes}
    (lines : KeyLines keys values rest) : KeyLines (key :: keys) (value :: values) text := by
  unfold parseManifestLine at read
  dsimp only at read
  split at read
  · cases read
  split at read
  · cases read
  obtain ⟨single, same⟩ := line_split ‹_› ‹_›
  generalize (text.takeWhile (· ≠ 10)).drop (key.length + 1) = found at read single same
  by_cases returned : found.getLast? = some 13
  · rw [if_pos returned] at read
    obtain ⟨front, shape⟩ := List.getLast?_eq_some_iff.mp returned
    rw [shape] at single same
    rw [shape, List.dropLast_concat] at read
    split at read
    · cases read
    cases read
    have inside : 10 ∉ value := fun member => single (List.mem_append_left _ member)
    have whole := lines.cons key [13] ‹_› inside (.inr rfl)
    rw [← same] at whole
    exact whole
  · rw [if_neg returned] at read
    split at read
    · cases read
    cases read
    have whole := lines.cons key [] ‹_› single (.inl rfl)
    rw [List.append_nil, ← same] at whole
    exact whole

/-- The digits of a number that was accepted, and what they denote. -/
theorem decimalDigits_ok {parsed result : Nat} (read : decimalDigits parsed text = .ok result)
    (fits : parsed < 2 ^ 64) :
    text.all (fun digit => 48 ≤ digit && digit ≤ 57) = true ∧ result < 2 ^ 64 ∧
      result = text.foldl (fun value digit => value * 10 + (digit.toNat - 48)) parsed := by
  induction text generalizing parsed with
  | nil =>
    cases read
    exact ⟨rfl, fits, rfl⟩
  | cons digit rest ih =>
    unfold decimalDigits at read
    split at read
    · cases read
    rename_i range
    dsimp only at read
    split at read
    · cases read
    simp only [not_or, UInt8.not_lt] at range
    have digits : digit.toNat ≤ 57 := UInt8.le_iff_toNat_le.mp range.2
    obtain ⟨all, bound, same⟩ := ih read (by omega)
    refine ⟨?_, bound, same⟩
    simp only [List.all_cons, range.1, range.2, all, decide_true, Bool.and_self]

/-- A number field that equals what its text says in the decimal system. -/
def Denotes (text : Bytes) (number : Nat) : Prop :=
  text.all (fun digit => 48 ≤ digit && digit ≤ 57) = true ∧ number = decimalValue text

theorem segmentedText_ok {allowed : UInt8 → Bool} (read : segmentedText allowed value = .ok text) :
    text = value := by
  unfold segmentedText at read
  split at read <;> cases read
  rfl

theorem segmentedSha_ok (read : segmentedSha value = .ok text) :
    text = value ∧ isLowerSha256Hex text = true := by
  unfold segmentedSha at read
  split at read <;> cases read
  exact ⟨rfl, ‹_›⟩

/-- The keys of a format-two manifest. -/
def segmentedKeys : List Bytes :=
  ["format", "role", "board", "target", "version", "image_size", "image_sha256", "data_sha256",
    "data_tar_size", "data_bytes", "pixa_bytes", "app_zlib_size", "app_zlib_sha256",
    "data_zlib_size", "data_zlib_sha256"].map ascii

/-- A format-two manifest that was accepted says what its lines say. -/
structure SegmentedReading (data : Bytes) (m : SegmentedManifest) : Prop where
  /-- The lines, with the texts of the numbers. -/
  lines : ∃ imageSize tarSize dataBytes pixaBytes appSize zlibSize,
    KeyLines segmentedKeys [ascii "2", m.role, m.board, m.target, m.version, imageSize,
      m.imageSha256, m.dataSha256, tarSize, dataBytes, pixaBytes, appSize, m.app.compressedSha256,
      zlibSize, m.data.compressedSha256] data ∧
    Denotes imageSize m.app.size ∧ Denotes tarSize m.data.size ∧ Denotes dataBytes m.dataBytes ∧
    Denotes pixaBytes m.pixaBytes ∧ Denotes appSize m.app.compressedSize ∧
    Denotes zlibSize m.data.compressedSize
  hex : isLowerSha256Hex m.dataSha256 = true

/-- A check that is passed leaves what comes after it. -/
theorem guard_ok {α : Type} {condition : Prop} [Decidable condition] {code : Int}
    {next : Unit → Except Int α} {result : α}
    (read : (if condition then Except.error code >>= next else next ()) = .ok result) :
    ¬condition ∧ next () = .ok result := by
  split at read
  · cases read
  · exact ⟨‹_›, read⟩

theorem segmentedManifestParse_ok {data : Bytes} {m : SegmentedManifest}
    (read : segmentedManifestParse data = .ok m) : SegmentedReading data m := by
  unfold segmentedManifestParse at read
  have denotes {text : Bytes} {number : Nat} (digits : decimalDigits 0 text = .ok number) :
      Denotes text number :=
    have whole := decimalDigits_ok digits (by decide)
    ⟨whole.1, whole.2.2⟩
  obtain ⟨-, read⟩ := guard_ok read
  obtain ⟨⟨format, text⟩, line1, read⟩ := bind_eq_ok.mp read
  obtain ⟨two, read⟩ := guard_ok read
  obtain ⟨⟨role, text⟩, line2, read⟩ := bind_eq_ok.mp read
  obtain ⟨_, role', read⟩ := bind_eq_ok.mp read
  obtain ⟨-, read⟩ := guard_ok read
  obtain ⟨⟨board, text⟩, line3, read⟩ := bind_eq_ok.mp read
  obtain ⟨_, board', read⟩ := bind_eq_ok.mp read
  obtain ⟨⟨target, text⟩, line4, read⟩ := bind_eq_ok.mp read
  obtain ⟨_, target', read⟩ := bind_eq_ok.mp read
  obtain ⟨⟨version, text⟩, line5, read⟩ := bind_eq_ok.mp read
  obtain ⟨_, version', read⟩ := bind_eq_ok.mp read
  obtain ⟨⟨imageSize, text⟩, line6, read⟩ := bind_eq_ok.mp read
  obtain ⟨_, imageSize', read⟩ := bind_eq_ok.mp read
  obtain ⟨⟨imageSha, text⟩, line7, read⟩ := bind_eq_ok.mp read
  obtain ⟨_, imageSha', read⟩ := bind_eq_ok.mp read
  obtain ⟨⟨dataSha, text⟩, line8, read⟩ := bind_eq_ok.mp read
  obtain ⟨_, dataSha', read⟩ := bind_eq_ok.mp read
  obtain ⟨⟨tarSize, text⟩, line9, read⟩ := bind_eq_ok.mp read
  obtain ⟨_, tarSize', read⟩ := bind_eq_ok.mp read
  obtain ⟨⟨dataBytes, text⟩, line10, read⟩ := bind_eq_ok.mp read
  obtain ⟨_, dataBytes', read⟩ := bind_eq_ok.mp read
  obtain ⟨⟨pixaBytes, text⟩, line11, read⟩ := bind_eq_ok.mp read
  obtain ⟨_, pixaBytes', read⟩ := bind_eq_ok.mp read
  obtain ⟨⟨appSize, text⟩, line12, read⟩ := bind_eq_ok.mp read
  obtain ⟨_, appSize', read⟩ := bind_eq_ok.mp read
  obtain ⟨⟨appSha, text⟩, line13, read⟩ := bind_eq_ok.mp read
  obtain ⟨_, appSha', read⟩ := bind_eq_ok.mp read
  obtain ⟨⟨zlibSize, text⟩, line14, read⟩ := bind_eq_ok.mp read
  obtain ⟨_, zlibSize', read⟩ := bind_eq_ok.mp read
  obtain ⟨⟨zlibSha, text⟩, line15, read⟩ := bind_eq_ok.mp read
  obtain ⟨_, zlibSha', read⟩ := bind_eq_ok.mp read
  obtain ⟨sizes, read⟩ := guard_ok read
  obtain ⟨-, read⟩ := guard_ok read
  cases read
  obtain rfl : text = [] := not_not.mp (not_or.mp sizes).1
  obtain rfl : format = ascii "2" := not_not.mp two
  obtain rfl := segmentedText_ok role'
  obtain rfl := segmentedText_ok board'
  obtain rfl := segmentedText_ok target'
  obtain rfl := segmentedText_ok version'
  obtain ⟨rfl, -⟩ := segmentedSha_ok imageSha'
  obtain ⟨rfl, hex⟩ := segmentedSha_ok dataSha'
  obtain ⟨rfl, -⟩ := segmentedSha_ok appSha'
  obtain ⟨rfl, -⟩ := segmentedSha_ok zlibSha'
  have lines := segmentedLine_ok line15 .nil
  have lines := segmentedLine_ok line12 (segmentedLine_ok line13 (segmentedLine_ok line14 lines))
  have lines := segmentedLine_ok line9 (segmentedLine_ok line10 (segmentedLine_ok line11 lines))
  have lines := segmentedLine_ok line6 (segmentedLine_ok line7 (segmentedLine_ok line8 lines))
  have lines := segmentedLine_ok line3 (segmentedLine_ok line4 (segmentedLine_ok line5 lines))
  have lines := segmentedLine_ok line1 (segmentedLine_ok line2 lines)
  exact ⟨⟨_, _, _, _, _, _, lines, denotes imageSize', denotes tarSize', denotes dataBytes',
    denotes pixaBytes', denotes appSize', denotes zlibSize'⟩, hex⟩

/-- The keys of a format-one manifest. -/
def manifestKeys : List Bytes :=
  ["format", "role", "board", "target", "version", "image_size", "image_sha256"].map ascii

/-- A format-one manifest that was accepted says what its lines say. -/
def ManifestReading (data : Bytes) (m : Manifest) : Prop :=
  ∃ role imageSize, KeyLines manifestKeys [ascii "1", role, m.board.string, m.target.string,
      m.version.string, imageSize, m.imageSha256.string] data ∧ m.format = 1 ∧
    (role = ascii "app" ∧ m.role = .app ∨ role = ascii "h2loader" ∧ m.role = .h2loader) ∧
    Denotes imageSize m.imageSize.toNat

theorem copyManifestText_ok {size : Nat} {allowed : UInt8 → Bool} {text : Text size}
    (strict : allowed 0 = false) (read : copyManifestText size allowed value = .ok text) :
    text.string = value := by
  unfold copyManifestText at read
  split at read
  · cases read
  rename_i fits
  simp only [not_or, not_le, not_not, List.all_eq_true] at fits
  cases read
  refine Text.string_copy (fun byte member zero => ?_) fits.2.1
  have passes := fits.2.2 byte member
  rw [zero, strict] at passes
  cases passes

theorem parseRole_ok {role : ImageRole} (read : parseRole value = .ok role) :
    value = ascii "app" ∧ role = .app ∨ value = ascii "h2loader" ∧ role = .h2loader := by
  unfold parseRole at read
  split at read
  · cases read
    exact .inl ⟨‹_›, rfl⟩
  split at read
  · cases read
    exact .inr ⟨‹_›, rfl⟩
  · cases read

theorem parseU64Decimal_ok {number : UInt64} (read : parseU64Decimal value = .ok number) :
    Denotes value number.toNat := by
  obtain ⟨parsed, digits, read⟩ := bind_eq_ok.mp read
  obtain ⟨all, bound, same⟩ := decimalDigits_ok digits (by decide)
  split at read
  · cases read
  cases read
  refine ⟨all, ?_⟩
  rw [UInt64.toNat_ofNat_of_lt' bound]
  exact same

theorem manifestParse_ok {data : Bytes} {m : Manifest} (read : manifestParse data = .ok m) :
    ManifestReading data m := by
  unfold manifestParse at read
  obtain ⟨-, read⟩ := guard_ok read
  obtain ⟨⟨format, text⟩, line1, read⟩ := bind_eq_ok.mp read
  obtain ⟨one, read⟩ := guard_ok read
  obtain ⟨⟨role, text⟩, line2, read⟩ := bind_eq_ok.mp read
  obtain ⟨_, role', read⟩ := bind_eq_ok.mp read
  obtain ⟨⟨board, text⟩, line3, read⟩ := bind_eq_ok.mp read
  obtain ⟨_, board', read⟩ := bind_eq_ok.mp read
  obtain ⟨⟨target, text⟩, line4, read⟩ := bind_eq_ok.mp read
  obtain ⟨_, target', read⟩ := bind_eq_ok.mp read
  obtain ⟨⟨version, text⟩, line5, read⟩ := bind_eq_ok.mp read
  obtain ⟨_, version', read⟩ := bind_eq_ok.mp read
  obtain ⟨⟨imageSize, text⟩, line6, read⟩ := bind_eq_ok.mp read
  obtain ⟨_, imageSize', read⟩ := bind_eq_ok.mp read
  obtain ⟨⟨sha, text⟩, line7, read⟩ := bind_eq_ok.mp read
  obtain ⟨ended, read⟩ := guard_ok read
  cases read
  simp only [not_or, not_not] at ended
  obtain ⟨hex, rfl⟩ := ended
  obtain rfl : format = ascii "1" := not_not.mp one
  have shape : sha.length = 64 ∧ sha.all isLowerHex = true := by
    simpa [isLowerSha256Hex] using hex
  have text : (Text.copy sha256HexSize sha).string = sha := by
    refine Text.string_copy (fun byte member zero => ?_) (by rw [shape.1]; decide)
    have digit := List.all_eq_true.mp shape.2 byte member
    rw [zero] at digit
    cases digit
  have lines := parseManifestLine_ok line6 (parseManifestLine_ok line7 .nil)
  have lines := parseManifestLine_ok line3 (parseManifestLine_ok line4
    (parseManifestLine_ok line5 lines))
  have lines := parseManifestLine_ok line1 (parseManifestLine_ok line2 lines)
  refine ⟨role, imageSize, ?_, rfl, parseRole_ok role', parseU64Decimal_ok imageSize'⟩
  rw [copyManifestText_ok rfl board', copyManifestText_ok rfl target',
    copyManifestText_ok rfl version', text]
  exact lines

/-- The text of the size in a bundle manifest line: its second word. -/
def sizeText (line : Bytes) : Bytes :=
  (((line.takeWhile (!isLineEnd ·)).drop (line.takeWhile (!isBlank ·)).length).dropWhile
    isBlank).takeWhile (!isBlank ·)

/-- An accepted package manifest of either format is exactly the lines of its keys, with numbers
and texts as written. An accepted line of a bundle manifest has the size it says exactly when that
fits into 64 bits. -/
theorem manifests_exact (data line : Bytes) :
    (∀ m, manifestParse data = .ok m → ManifestReading data m) ∧
    (∀ m, segmentedManifestParse data = .ok m → SegmentedReading data m) ∧
    ∀ entry, manifestParseLine line = .ok entry →
      (entry.size.toNat = decimalValue (sizeText line) ↔
        decimalValue (sizeText line) < 2 ^ 64) := by
  refine ⟨fun _ => manifestParse_ok, fun _ => segmentedManifestParse_ok, ?_⟩
  intro entry read
  unfold manifestParseLine at read
  dsimp only at read
  split at read
  · cases read
  split at read
  · cases read
  obtain ⟨size, digits, read⟩ := bind_eq_ok.mp read
  split at read
  · cases read
    have wraps : size.toNat = decimalValue (sizeText line) % 2 ^ 64 := parseUint64_toNat digits
    constructor
    · intro same
      exact same ▸ size.toNat_lt
    · intro fits
      exact wraps.trans (Nat.mod_eq_of_lt fits)
  · cases read

/-- A size of 2 ^ 64 bytes passes as an empty file. -/
theorem manifest_size_wraps :
    manifestParseLine (ascii "00000000 18446744073709551616 a") =
        .ok ⟨ascii "a", ascii "00000000", 0⟩ ∧
      decimalValue (sizeText (ascii "00000000 18446744073709551616 a")) = 2 ^ 64 := by
  decide +kernel

theorem manifests_exact_small :
    manifestParseLine (ascii "00000000 5 a") = .ok ⟨ascii "a", ascii "00000000", 5⟩ ∧
      ((5 : UInt64).toNat = decimalValue (sizeText (ascii "00000000 5 a")) ↔
        decimalValue (sizeText (ascii "00000000 5 a")) < 2 ^ 64) :=
  have read : manifestParseLine (ascii "00000000 5 a") = .ok ⟨ascii "a", ascii "00000000", 5⟩ := by
    decide +kernel
  ⟨read, (manifests_exact [] _).2.2 _ read⟩

end Gizos.Loader
