import Gizos.Codec
import Mathlib.Data.List.TakeWhile
import Mathlib.Data.Nat.Digits.Lemmas
import Mathlib.Data.Prod.Lex
import Mathlib.Data.Sum.Order
import Mathlib.Order.WithBot

/-! # Version comparison

A version string has a spelling: its numbers and the identifiers after `-` and `+`. What the
comparison computes on two cursors is the order of the precedences that the spellings have in a
linear order, with the strings that have no spelling below all others.
-/
namespace Gizos.Semver

open Codec

/-- `is_digit`. -/
def isDigit (c : UInt8) : Bool := 48 ≤ c && c ≤ 57

/-- `is_identifier_char`. -/
def isIdentifierChar (c : UInt8) : Bool :=
  isDigit c || 65 ≤ c && c ≤ 90 || 97 ≤ c && c ≤ 122 || c = 45

/-- `identifier_t`: the bytes of a string that belong to the identifier. -/
structure Identifier where
  data : Bytes
  numeric : Bool

/-- An identifier with its kind. -/
def identifier (data : Bytes) : Identifier := ⟨data, data.all isDigit⟩

/-- `read_identifier`: the identifier at the cursor, and the cursor after it. A string ends where
the list ends. -/
def readIdentifier (cursor : Bytes) : Identifier × Bytes :=
  (identifier (cursor.takeWhile isIdentifierChar), cursor.dropWhile isIdentifierChar)

/-- `has_leading_zero`. -/
def hasLeadingZero (id : Identifier) : Bool :=
  id.numeric && 1 < id.data.length && id.data.head? = some 48

theorem length_tail_lt {cursor : Bytes} {c : UInt8}
    (follows : (readIdentifier cursor).2.head? = some c) :
    (readIdentifier cursor).2.tail.length < cursor.length := by
  have shorter := (cursor.dropWhile_suffix isIdentifierChar).length_le
  simp only [readIdentifier] at follows ⊢
  cases rest : cursor.dropWhile isIdentifierChar with
  | nil => simp [rest] at follows
  | cons first rest' =>
    rw [rest] at shorter
    exact shorter

/-- `parse_identifiers`: the cursor after the identifiers, if they are accepted. -/
def parseIdentifiers (prerelease : Bool) (cursor : Bytes) : Option Bytes :=
  let id := (readIdentifier cursor).1
  let rest := (readIdentifier cursor).2
  if id.data = [] ∨ prerelease ∧ hasLeadingZero id then none
  else if _follows : rest.head? = some 46 then parseIdentifiers prerelease rest.tail
  else some rest
termination_by cursor.length
decreasing_by exact length_tail_lt _follows

/-- `version_t`. -/
structure Version where
  core : List Identifier
  prerelease : Option Bytes

/-- One number of the core. -/
def parseNumber (cursor : Bytes) : Option (Identifier × Bytes) :=
  let id : Identifier := ⟨cursor.takeWhile isDigit, true⟩
  if id.data = [] ∨ hasLeadingZero id then none else some (id, cursor.dropWhile isDigit)

/-- The loop of `parse`, with the number of dots that are still to come. -/
def parseCore : Nat → Bytes → Option (List Identifier × Bytes)
  | 0, cursor => do
    let (id, rest) ← parseNumber cursor
    some ([id], rest)
  | dots + 1, cursor => do
    let (id, rest) ← parseNumber cursor
    if rest.head? ≠ some 46 then none
    else
      let (ids, rest) ← parseCore dots rest.tail
      some (id :: ids, rest)

/-- The identifiers behind a mark, where there is one: where they begin, and the cursor after
them. -/
def parsePart (mark : UInt8) (prerelease : Bool) (cursor : Bytes) : Option (Option Bytes × Bytes) :=
  if cursor.head? = some mark then
    (parseIdentifiers prerelease cursor.tail).map fun rest => (some cursor.tail, rest)
  else some (none, cursor)

/-- `parse`. -/
def parse (text : Option Bytes) : Option Version := do
  let (core, cursor) ← parseCore 2 (← text)
  let (prerelease, cursor) ← parsePart 45 true cursor
  let (_, cursor) ← parsePart 43 false cursor
  if cursor = [] then some ⟨core, prerelease⟩ else none

/-- `memcmp` over the bytes that both have: the order of the first two that differ. -/
def memcmp : Bytes → Bytes → Int
  | a :: lhs, b :: rhs => if a = b then memcmp lhs rhs else if a < b then -1 else 1
  | _, _ => 0

/-- The value of a C condition. -/
def truth (condition : Prop) [Decidable condition] : Int := if condition then 1 else 0

/-- `compare_identifier`. -/
def compareIdentifier (lhs rhs : Identifier) : Int :=
  if lhs.numeric ≠ rhs.numeric then if lhs.numeric then -1 else 1
  else if lhs.numeric ∧ lhs.data.length ≠ rhs.data.length then
    if lhs.data.length < rhs.data.length then -1 else 1
  else
    let order := memcmp lhs.data rhs.data
    if order ≠ 0 then if order < 0 then -1 else 1
    else truth (lhs.data.length > rhs.data.length) - truth (lhs.data.length < rhs.data.length)

/-- The first loop of `compare_versions`. -/
def compareCore : List Identifier → List Identifier → Int
  | a :: lhs, b :: rhs =>
    let order := compareIdentifier a b
    if order ≠ 0 then order else compareCore lhs rhs
  | _, _ => 0

/-- The second loop of `compare_versions`. -/
def comparePrerelease (left right : Bytes) : Int :=
  let order := compareIdentifier (readIdentifier left).1 (readIdentifier right).1
  let left := (readIdentifier left).2
  let right := (readIdentifier right).2
  if order ≠ 0 then order
  else if _follows : left.head? = some 46 ∧ right.head? = some 46 then
    comparePrerelease left.tail right.tail
  else truth (left.head? = some 46) - truth (right.head? = some 46)
termination_by left.length
decreasing_by exact length_tail_lt _follows.1

/-- `compare_versions`. -/
def compareVersions (lhs rhs : Version) : Int :=
  let order := compareCore lhs.core rhs.core
  if order ≠ 0 then order
  else
    match lhs.prerelease, rhs.prerelease with
    | some left, some right => comparePrerelease left right
    | left, right => truth (left = none) - truth (right = none)

/-- `h2_semver_is_valid`. -/
def isValid (version : Option Bytes) : Bool := (parse version).isSome

/-- What `h2_semver_compare` stores. -/
def result (lhs rhs : Option Bytes) : Int :=
  match parse lhs, parse rhs with
  | some left, some right => compareVersions left right
  | left, right => truth (left.isSome) - truth (right.isSome)

/-- `h2_semver_compare`: nothing is compared where there is no place for the result. -/
def compare (lhs rhs : Option Bytes) (outResult : Bool) : Option Int :=
  if outResult then some (result lhs rhs) else none

/-! The order that the comparison follows. -/

/-- The number that digits denote. -/
def value (id : Bytes) : Nat := Nat.ofDigits 10 (id.reverse.map fun c => c.toNat - 48)

/-- Where an identifier stands: numbers by value before texts in the order of their bytes. -/
abbrev Rank : Type := Nat ⊕ₗ List Nat

/-- The rank of an identifier. -/
def rank (id : Bytes) : Rank :=
  if id.all isDigit then Sum.inlₗ (value id) else Sum.inrₗ (id.map UInt8.toNat)

section Order

variable {α β : Type} [LinearOrder α] [LinearOrder β] {a b : α}

/-- The result for two values of an order. -/
def order (a b : α) : Int := if a < b then -1 else if b < a then 1 else 0

theorem order_of_lt (less : a < b) : order a b = -1 := if_pos less

theorem order_of_gt (more : b < a) : order a b = 1 := by
  rw [order, if_neg more.not_gt, if_pos more]

theorem order_congr {c d : β} (less : a < b ↔ c < d) (more : b < a ↔ d < c) :
    order a b = order c d :=
  if_congr less rfl (if_congr more rfl rfl)

@[simp] theorem order_self (a : α) : order a a = 0 := by simp [order]

theorem order_swap (a b : α) : order a b = -order b a := by
  rcases lt_trichotomy a b with less | rfl | more
  · rw [order_of_lt less, order_of_gt less]
  · simp
  · rw [order_of_lt more, order_of_gt more, neg_neg]

theorem order_eq_zero_iff : order a b = 0 ↔ a = b := by
  rcases lt_trichotomy a b with less | rfl | more
  · simp [order_of_lt less, less.ne]
  · simp
  · simp [order_of_gt more, more.ne']

theorem order_nonpos_iff : order a b ≤ 0 ↔ a ≤ b := by
  rcases lt_trichotomy a b with less | rfl | more
  · simp [order_of_lt less, less.le]
  · simp
  · simp [order_of_gt more, more.not_ge]

theorem order_toLex (a b : α) (c d : β) :
    order (toLex (a, c)) (toLex (b, d)) = if order a b ≠ 0 then order a b else order c d := by
  rcases lt_trichotomy a b with less | rfl | more
  · simp [order, Prod.Lex.toLex_lt_toLex, less]
  · simp [order, Prod.Lex.toLex_lt_toLex]
  · simp [order, Prod.Lex.toLex_lt_toLex, more, more.not_gt, more.ne']

theorem order_cons (a b : α) (lhs rhs : List α) :
    order (a :: lhs) (b :: rhs) = if order a b ≠ 0 then order a b else order lhs rhs := by
  rw [← order_toLex]
  exact order_congr (by simp [Prod.Lex.toLex_lt_toLex, List.cons_lt_cons_iff])
    (by simp [Prod.Lex.toLex_lt_toLex, List.cons_lt_cons_iff])

theorem order_coe_top (a b : α) : order (a : WithTop α) b = order a b := by simp [order]

theorem order_coe_bot (a b : α) : order (a : WithBot α) b = order a b := by simp [order]

end Order

theorem digit_lt {c : UInt8} (digit : isDigit c = true) : 48 ≤ c.toNat ∧ c.toNat - 48 < 10 := by
  simp only [isDigit, Bool.and_eq_true, decide_eq_true_eq, UInt8.le_iff_toNat_le] at digit
  have upper : c.toNat ≤ 57 := digit.2
  exact ⟨digit.1, by omega⟩

theorem value_cons (c : UInt8) (id : Bytes) :
    value (c :: id) = value id + 10 ^ id.length * (c.toNat - 48) := by
  simp [value, Nat.ofDigits_append]

theorem value_lt {id : Bytes} (digits : ∀ c ∈ id, isDigit c = true) :
    value id < 10 ^ id.length := by
  have bound := @Nat.ofDigits_lt_base_pow_length' 8 (id.reverse.map fun c => c.toNat - 48) (by
    simp only [List.mem_map, List.mem_reverse]
    rintro _ ⟨c, member, rfl⟩
    exact (digit_lt (digits c member)).2)
  simpa [value] using bound

theorem value_lt_of_lead {a b : UInt8} {lhs rhs : Bytes} (same : lhs.length = rhs.length)
    (digits : ∀ c ∈ a :: lhs, isDigit c = true) (less : a.toNat < b.toNat) :
    value (a :: lhs) < value (b :: rhs) := by
  obtain ⟨digit, digits⟩ := List.forall_mem_cons.1 digits
  have tail := value_lt digits
  have lead := (digit_lt digit).1
  have scaled := Nat.mul_le_mul_left (10 ^ rhs.length)
    (show a.toNat - 48 + 1 ≤ b.toNat - 48 by omega)
  rw [value_cons, value_cons, same] at *
  rw [Nat.mul_succ] at scaled
  omega

/-- Numbers of one length are ordered as texts. -/
theorem order_value : ∀ {lhs rhs : Bytes}, lhs.length = rhs.length →
    (∀ c ∈ lhs, isDigit c = true) → (∀ c ∈ rhs, isDigit c = true) →
    order (value lhs) (value rhs) = order (lhs.map UInt8.toNat) (rhs.map UInt8.toNat)
  | [], [], _, _, _ => rfl
  | a :: lhs, b :: rhs, same, left, right => by
    have tails : lhs.length = rhs.length := Nat.succ.inj same
    rw [List.map_cons, List.map_cons, order_cons]
    rcases lt_trichotomy a.toNat b.toNat with less | equal | more
    · rw [order_of_lt (value_lt_of_lead tails left less), order_of_lt less]
      rfl
    · rw [equal, order_self, ← order_value tails (List.forall_mem_cons.1 left).2
        (List.forall_mem_cons.1 right).2]
      simp [order, value_cons, equal, tails]
    · rw [order_of_gt (value_lt_of_lead tails.symm right more), order_of_gt more]
      rfl

/-- A number without leading zeros is larger than one with fewer digits. -/
theorem value_lt_of_shorter {lhs rhs : Bytes} (left : ∀ c ∈ lhs, isDigit c = true)
    (filled : lhs ≠ []) (right : rhs.all isDigit = true)
    (canonical : hasLeadingZero (identifier rhs) = false) (shorter : lhs.length < rhs.length) :
    value lhs < value rhs := by
  have some : 0 < lhs.length := List.length_pos_of_ne_nil filled
  cases rhs with
  | nil => exact absurd shorter (Nat.not_lt_zero _)
  | cons c rhs =>
    have digit := (digit_lt (List.all_eq_true.1 right c List.mem_cons_self)).1
    have lead : c.toNat ≠ 48 := by
      intro zero
      obtain rfl : c = 48 := UInt8.toNat_inj.1 zero
      simp [hasLeadingZero, identifier, right] at canonical
      simp only [canonical, List.length_singleton] at shorter
      omega
    calc value lhs < 10 ^ lhs.length := value_lt left
      _ ≤ 10 ^ rhs.length := Nat.pow_le_pow_right (by decide) (Nat.le_of_lt_succ shorter)
      _ ≤ 10 ^ rhs.length * (c.toNat - 48) := Nat.le_mul_of_pos_right _ (by omega)
      _ ≤ value (c :: rhs) := by rw [value_cons]; exact Nat.le_add_left _ _

/-- Texts are ordered by their bytes, and a longer one after what it begins with. -/
theorem memcmp_text : ∀ lhs rhs : Bytes,
    (if memcmp lhs rhs ≠ 0 then if memcmp lhs rhs < 0 then -1 else 1
      else truth (lhs.length > rhs.length) - truth (lhs.length < rhs.length)) =
      order (lhs.map UInt8.toNat) (rhs.map UInt8.toNat)
  | [], [] => rfl
  | [], _ :: _ => by simp [memcmp, truth, order]
  | _ :: _, [] => by simp [memcmp, truth, order]
  | a :: lhs, b :: rhs => by
    rw [List.map_cons, List.map_cons, order_cons, memcmp]
    by_cases equal : a = b
    · rw [if_pos equal, equal, order_self]
      simpa [Nat.succ_lt_succ_iff] using memcmp_text lhs rhs
    · rw [if_neg equal]
      by_cases less : a < b
      · rw [if_pos less, order_of_lt (UInt8.lt_iff_toNat_lt.1 less)]
        rfl
      · have more : b < a := UInt8.lt_of_le_of_ne (UInt8.not_lt.1 less) (Ne.symm equal)
        rw [if_neg less, order_of_gt (UInt8.lt_iff_toNat_lt.1 more)]
        rfl

theorem compareIdentifier_eq (lhs rhs : Identifier) : compareIdentifier lhs rhs =
    if lhs.numeric ≠ rhs.numeric then if lhs.numeric then -1 else 1
    else if lhs.numeric ∧ lhs.data.length ≠ rhs.data.length then
      if lhs.data.length < rhs.data.length then -1 else 1
    else order (lhs.data.map UInt8.toNat) (rhs.data.map UInt8.toNat) := by
  rw [← memcmp_text]
  rfl

/-! What a version string is. -/

/-- An identifier of SemVer 2.0; in a prerelease, numbers have no leading zeros. -/
structure IsIdentifier (prerelease : Bool) (id : Bytes) : Prop where
  filled : id ≠ []
  chars : ∀ c ∈ id, isIdentifierChar c = true
  canonical : prerelease = true → hasLeadingZero (identifier id) = false

/-- A number of SemVer 2.0. -/
structure IsNumber (id : Bytes) : Prop extends IsIdentifier true id where
  digits : id.all isDigit = true

/-- Identifiers with dots between them. -/
def dotted : List Bytes → Bytes
  | [] => []
  | id :: ids => id ++ if ids = [] then [] else 46 :: dotted ids

/-- Identifiers behind a mark, or nothing. -/
def part (mark : UInt8) (ids : List Bytes) : Bytes := if ids = [] then [] else mark :: dotted ids

/-- How SemVer 2.0 spells a version. -/
structure Spelling where
  core : List Bytes
  prerelease : List Bytes
  build : List Bytes
  three : core.length = 3
  numbers : ∀ id ∈ core, IsNumber id
  identifiers : ∀ id ∈ prerelease, IsIdentifier true id
  metadata : ∀ id ∈ build, IsIdentifier false id

namespace Spelling

/-- The version string. -/
def text (spelling : Spelling) : Bytes :=
  dotted spelling.core ++ (part 45 spelling.prerelease ++ part 43 spelling.build)

/-- The precedence of a version: its numbers, then the identifiers of its prerelease, with none
above all of them. Build metadata does not count. -/
def precedence (spelling : Spelling) : List Rank ×ₗ WithTop (List Rank) :=
  toLex (spelling.core.map rank,
    if spelling.prerelease = [] then ⊤ else (spelling.prerelease.map rank : List Rank))

end Spelling

/-- A string is a version of SemVer 2.0. -/
def Valid (text : Option Bytes) : Prop := ∃ spelling : Spelling, text = some spelling.text

section Ranks

variable {lhs rhs : Bytes} (left : IsIdentifier true lhs) (right : IsIdentifier true rhs)

include left right

theorem compareIdentifier_rank :
    compareIdentifier (identifier lhs) (identifier rhs) = order (rank lhs) (rank rhs) := by
  rw [compareIdentifier_eq, rank, rank]
  by_cases number : lhs.all isDigit = true
  · by_cases number' : rhs.all isDigit = true
    · have digits := List.all_eq_true.1 number
      have digits' := List.all_eq_true.1 number'
      have ranked : order (Sum.inlₗ (value lhs) : Rank) (Sum.inlₗ (value rhs)) =
          order (value lhs) (value rhs) :=
        order_congr Sum.Lex.inl_lt_inl_iff Sum.Lex.inl_lt_inl_iff
      simp only [identifier, number, number', if_true, ranked]
      rcases lt_trichotomy lhs.length rhs.length with shorter | same | longer
      · have less := value_lt_of_shorter digits left.filled number' (right.canonical rfl) shorter
        simp [order_of_lt less, shorter, shorter.ne]
      · simp [order_value same digits digits', same]
      · have more := value_lt_of_shorter digits' right.filled number (left.canonical rfl) longer
        simp [order_of_gt more, longer.ne', longer.not_gt]
    · simp [identifier, number, number', order]
  · by_cases number' : rhs.all isDigit = true
    · simp [identifier, number, number', order]
    · have ranked : order (Sum.inrₗ (lhs.map UInt8.toNat) : Rank)
          (Sum.inrₗ (rhs.map UInt8.toNat)) = order (lhs.map UInt8.toNat) (rhs.map UInt8.toNat) :=
        order_congr Sum.Lex.inr_lt_inr_iff Sum.Lex.inr_lt_inr_iff
      rw [if_neg number, if_neg number', ranked]
      simp [identifier, number, number']

theorem rank_injective (same : rank lhs = rank rhs) : lhs = rhs := by
  have zero := compareIdentifier_rank left right
  rw [same, order_self, compareIdentifier_eq] at zero
  split_ifs at zero
  · cases zero
  · cases zero
  · exact List.map_injective_iff.2 (fun _ _ => UInt8.toNat_inj.1) (order_eq_zero_iff.1 zero)

end Ranks

/-! What the parser accepts. -/

variable {p : UInt8 → Bool} {mark : UInt8} {prerelease : Bool} {id cursor rest rest' : Bytes}
  {ids lhs rhs : List Bytes}

/-- What consists of some characters does not go on into the rest of a string. -/
def Stops (p : UInt8 → Bool) (rest : Bytes) : Prop := ∀ c, rest.head? = some c → p c = false

/-- Identifiers with dots do not either. -/
structure Ends (rest : Bytes) : Prop where
  stops : Stops isIdentifierChar rest
  undotted : rest.head? ≠ some 46

theorem ends_build (build : List Bytes) : Ends (part 43 build) := by
  unfold part
  split
  · exact ⟨nofun, nofun⟩
  · exact ⟨fun _ found => by cases found; rfl, by simp⟩

theorem stops_part (other : p mark = false) (stops : Stops p rest) :
    Stops p (part mark ids ++ rest) := by
  unfold part
  split
  · exact stops
  · rintro _ ⟨⟩
    exact other

theorem dotted_cons (id : Bytes) (ids : List Bytes) (rest : Bytes) :
    dotted (id :: ids) ++ rest = id ++ (part 46 ids ++ rest) := List.append_assoc ..

theorem span_dotted (all : ∀ c ∈ id, p c = true) (dot : p 46 = false) (stops : Stops p rest) :
    (dotted (id :: ids) ++ rest).takeWhile p = id ∧
      (dotted (id :: ids) ++ rest).dropWhile p = part 46 ids ++ rest := by
  have stops : Stops p (part 46 ids ++ rest) := stops_part dot stops
  rw [dotted_cons, List.takeWhile_append_of_pos all, List.dropWhile_append_of_pos all]
  generalize part 46 ids ++ rest = rest at stops
  cases rest with
  | nil => simp
  | cons c rest => simp [stops c rfl]

theorem readIdentifier_dotted (valid : IsIdentifier prerelease id)
    (stops : Stops isIdentifierChar rest) :
    readIdentifier (dotted (id :: ids) ++ rest) = (identifier id, part 46 ids ++ rest) := by
  obtain ⟨taken, left⟩ := @span_dotted _ _ _ ids valid.chars rfl stops
  rw [readIdentifier, taken, left]

theorem parseIdentifiers_dotted (ends : Ends rest) : ∀ {ids : List Bytes}, ids ≠ [] →
    (∀ id ∈ ids, IsIdentifier prerelease id) →
    parseIdentifiers prerelease (dotted ids ++ rest) = some rest
  | id :: ids, _, valid => by
    obtain ⟨first, others⟩ := List.forall_mem_cons.1 valid
    have accepted : ¬((identifier id).data = [] ∨ prerelease ∧ hasLeadingZero (identifier id)) := by
      rintro (empty | ⟨strict, zero⟩)
      · exact first.filled empty
      · rw [first.canonical strict] at zero
        cases zero
    rw [parseIdentifiers]
    simp only [readIdentifier_dotted first ends.stops]
    rw [if_neg accepted]
    by_cases more : ids = []
    · simp [more, part, ends.undotted]
    · simp [more, part, parseIdentifiers_dotted ends more others]

theorem dotted_of_parseIdentifiers (parsed : parseIdentifiers prerelease cursor = some rest) :
    ∃ ids, ids ≠ [] ∧ (∀ id ∈ ids, IsIdentifier prerelease id) ∧ cursor = dotted ids ++ rest := by
  -- The identifier that is read first, whatever follows it.
  have first : ∀ {cursor : Bytes}, ¬((readIdentifier cursor).1.data = [] ∨
      prerelease ∧ hasLeadingZero (readIdentifier cursor).1) →
      IsIdentifier prerelease (cursor.takeWhile isIdentifierChar) := by
    intro cursor accepted
    rw [not_or, not_and, Bool.not_eq_true] at accepted
    exact ⟨accepted.1, fun _ => List.mem_takeWhile_imp, accepted.2⟩
  fun_induction parseIdentifiers prerelease cursor with
  | case1 => cases parsed
  | case2 cursor _ _ accepted follows ih =>
    obtain ⟨ids, some, valid, same⟩ := ih parsed
    refine ⟨_ :: ids, by simp, List.forall_mem_cons.2 ⟨first accepted, valid⟩, ?_⟩
    rw [dotted_cons, part, if_neg some, List.cons_append, ← same,
      ← List.eq_cons_of_mem_head? follows]
    exact List.takeWhile_append_dropWhile.symm
  | case3 cursor _ _ accepted =>
    refine ⟨[_], by simp, List.forall_mem_singleton.2 (first accepted), ?_⟩
    rw [← Option.some.inj parsed, dotted_cons]
    exact List.takeWhile_append_dropWhile.symm

theorem parsePart_part (valid : ∀ id ∈ ids, IsIdentifier prerelease id) (ends : Ends rest)
    (unmarked : rest.head? ≠ some mark) : parsePart mark prerelease (part mark ids ++ rest) =
      some (if ids = [] then none else some (dotted ids ++ rest), rest) := by
  unfold parsePart part
  by_cases absent : ids = []
  · simp [absent, unmarked]
  · simp [absent, parseIdentifiers_dotted ends absent valid]

theorem part_of_parsePart {found : Option Bytes}
    (parsed : parsePart mark prerelease cursor = some (found, rest)) :
    ∃ ids, (∀ id ∈ ids, IsIdentifier prerelease id) ∧ cursor = part mark ids ++ rest := by
  unfold parsePart at parsed
  split at parsed
  · rename_i marked
    obtain ⟨_, accepted, ⟨⟩⟩ := Option.map_eq_some_iff.1 parsed
    obtain ⟨ids, some, valid, same⟩ := dotted_of_parseIdentifiers accepted
    refine ⟨ids, valid, ?_⟩
    rw [part, if_neg some, List.cons_append, ← same]
    exact List.eq_cons_of_mem_head? marked
  · cases parsed
    exact ⟨[], nofun, rfl⟩

theorem parseNumber_dotted (valid : IsNumber id) (stops : Stops isDigit rest) :
    parseNumber (dotted (id :: ids) ++ rest) = some (identifier id, part 46 ids ++ rest) := by
  obtain ⟨taken, left⟩ := @span_dotted _ _ _ ids (List.all_eq_true.1 valid.digits) rfl stops
  have same : (⟨id, true⟩ : Identifier) = identifier id := by rw [identifier, valid.digits]
  simp [parseNumber, taken, left, same, valid.canonical rfl]
  exact valid.filled

theorem number_of_parseNumber {found : Identifier}
    (parsed : parseNumber cursor = some (found, rest)) :
    ∃ id, IsNumber id ∧ cursor = id ++ rest := by
  have digits : (cursor.takeWhile isDigit).all isDigit = true :=
    List.all_eq_true.2 fun _ => List.mem_takeWhile_imp
  have same : identifier (cursor.takeWhile isDigit) = ⟨cursor.takeWhile isDigit, true⟩ := by
    rw [identifier, digits]
  obtain ⟨accepted, ⟨⟩⟩ := Option.ite_none_left_eq_some.1 parsed
  rw [← same, not_or, Bool.not_eq_true] at accepted
  refine ⟨_, ⟨⟨accepted.1, fun c member => ?_, fun _ => accepted.2⟩, digits⟩,
    List.takeWhile_append_dropWhile.symm⟩
  rw [isIdentifierChar, List.mem_takeWhile_imp member]
  rfl

theorem parseCore_dotted (stops : Stops isDigit rest) : ∀ {dots : Nat} {ids : List Bytes},
    ids.length = dots + 1 → (∀ id ∈ ids, IsNumber id) →
    parseCore dots (dotted ids ++ rest) = some (ids.map identifier, rest)
  | 0, [id], _, valid => by
    simp [parseCore, parseNumber_dotted (valid id List.mem_cons_self) stops, part]
  | dots + 1, id :: ids, length, valid => by
    obtain ⟨first, others⟩ := List.forall_mem_cons.1 valid
    have more : ids ≠ [] := fun none => by simp [none] at length
    simp [parseCore, parseNumber_dotted first stops, part, more,
      parseCore_dotted stops (Nat.succ.inj length) others]

theorem dotted_of_parseCore : ∀ {dots : Nat} {cursor rest : Bytes} {found : List Identifier},
    parseCore dots cursor = some (found, rest) → ∃ ids, ids.length = dots + 1 ∧
      (∀ id ∈ ids, IsNumber id) ∧ cursor = dotted ids ++ rest
  | 0, _, _, _, parsed => by
    obtain ⟨⟨_, _⟩, number, ⟨⟩⟩ := Option.bind_eq_some_iff.1 parsed
    obtain ⟨id, valid, same⟩ := number_of_parseNumber number
    exact ⟨[id], rfl, List.forall_mem_singleton.2 valid, by rw [dotted_cons]; exact same⟩
  | dots + 1, _, _, _, parsed => by
    obtain ⟨⟨_, _⟩, number, dotted⟩ := Option.bind_eq_some_iff.1 parsed
    obtain ⟨id, valid, rfl⟩ := number_of_parseNumber number
    obtain ⟨dot, further⟩ := Option.ite_none_left_eq_some.1 dotted
    obtain ⟨⟨_, _⟩, further, ⟨⟩⟩ := Option.bind_eq_some_iff.1 further
    obtain ⟨ids, length, others, same⟩ := dotted_of_parseCore further
    have more : ids ≠ [] := fun none => by simp [none] at length
    refine ⟨id :: ids, by simp [length], List.forall_mem_cons.2 ⟨valid, others⟩, ?_⟩
    rw [dotted_cons, part, if_neg more, List.cons_append, ← same,
      ← List.eq_cons_of_mem_head? (not_not.1 dot)]

namespace Spelling

/-- What the parser makes of a version string. -/
def version (spelling : Spelling) : Version where
  core := spelling.core.map identifier
  prerelease := if spelling.prerelease = [] then none
    else some (dotted spelling.prerelease ++ part 43 spelling.build)

theorem parse_text (spelling : Spelling) : parse (some spelling.text) = some spelling.version := by
  obtain ⟨core, prerelease, build, three, numbers, identifiers, metadata⟩ := spelling
  have ends := ends_build build
  have unmarked : (part 43 build).head? ≠ some 45 := fun found => nomatch ends.stops 45 found
  have digits : Stops isDigit (part 45 prerelease ++ part 43 build) := by
    refine stops_part rfl fun c found => ?_
    have other := ends.stops c found
    simp only [isIdentifierChar, Bool.or_eq_false_iff] at other
    exact other.1.1.1
  have built := @parsePart_part 43 _ [] _ metadata ⟨nofun, nofun⟩ nofun
  rw [List.append_nil] at built
  simp [parse, text, version, parseCore_dotted digits three numbers,
    parsePart_part identifiers ends unmarked, built]

theorem of_parse {text : Option Bytes} {found : Version} (parsed : parse text = some found) :
    ∃ spelling : Spelling, text = some spelling.text := by
  obtain ⟨_, rfl, parsed⟩ := Option.bind_eq_some_iff.1 parsed
  obtain ⟨⟨_, _⟩, cored, parsed⟩ := Option.bind_eq_some_iff.1 parsed
  obtain ⟨⟨_, _⟩, released, parsed⟩ := Option.bind_eq_some_iff.1 parsed
  obtain ⟨⟨_, _⟩, built, ended⟩ := Option.bind_eq_some_iff.1 parsed
  obtain ⟨core, three, numbers, rfl⟩ := dotted_of_parseCore cored
  obtain ⟨prerelease, identifiers, rfl⟩ := part_of_parsePart released
  obtain ⟨build, metadata, rfl⟩ := part_of_parsePart built
  obtain ⟨rfl, -⟩ := Option.ite_none_right_eq_some.1 ended
  exact ⟨⟨core, prerelease, build, three, numbers, identifiers, metadata⟩, by simp [Spelling.text]⟩

end Spelling

/-! What the comparison comes to. -/

theorem compareCore_rank : ∀ {lhs rhs : List Bytes}, lhs.length = rhs.length →
    (∀ id ∈ lhs, IsNumber id) → (∀ id ∈ rhs, IsNumber id) →
    compareCore (lhs.map identifier) (rhs.map identifier) = order (lhs.map rank) (rhs.map rank)
  | [], [], _, _, _ => rfl
  | a :: lhs, b :: rhs, length, left, right => by
    obtain ⟨first, left⟩ := List.forall_mem_cons.1 left
    obtain ⟨first', right⟩ := List.forall_mem_cons.1 right
    simp only [List.map_cons, compareCore, order_cons, compareCore_rank (Nat.succ.inj length) left
      right, compareIdentifier_rank first.toIsIdentifier first'.toIsIdentifier]

theorem comparePrerelease_rank (ends : Ends rest) (ends' : Ends rest') :
    ∀ {lhs rhs : List Bytes}, lhs ≠ [] → rhs ≠ [] → (∀ id ∈ lhs, IsIdentifier true id) →
    (∀ id ∈ rhs, IsIdentifier true id) → comparePrerelease (dotted lhs ++ rest)
      (dotted rhs ++ rest') =
      order (lhs.map rank) (rhs.map rank)
  | a :: lhs, b :: rhs, _, _, left, right => by
    obtain ⟨first, left⟩ := List.forall_mem_cons.1 left
    obtain ⟨first', right⟩ := List.forall_mem_cons.1 right
    rw [comparePrerelease]
    simp only [readIdentifier_dotted first ends.stops, readIdentifier_dotted first' ends'.stops,
      compareIdentifier_rank first first', List.map_cons, order_cons]
    congr 1
    cases lhs with
    | nil => cases rhs <;> simp [part, ends.undotted, ends'.undotted, truth, order]
    | cons c lhs =>
      cases rhs with
      | nil => simp [part, ends'.undotted, truth, order]
      | cons d rhs =>
        simp [part, comparePrerelease_rank ends ends' (List.cons_ne_nil c lhs)
          (List.cons_ne_nil d rhs) left right]

theorem compareVersions_precedence (lhs rhs : Spelling) :
    compareVersions lhs.version rhs.version = order lhs.precedence rhs.precedence := by
  unfold compareVersions Spelling.precedence Spelling.version
  rw [compareCore_rank (lhs.three.trans rhs.three.symm) lhs.numbers rhs.numbers, order_toLex]
  by_cases final : lhs.prerelease = []
  · by_cases final' : rhs.prerelease = []
    · simp [final, final', truth]
    · simp [final, final', truth, order]
  · by_cases final' : rhs.prerelease = []
    · simp [final, final', truth, order]
    · simp only [if_neg final, if_neg final']
      rw [comparePrerelease_rank (ends_build _) (ends_build _) final final' lhs.identifiers
        rhs.identifiers, order_coe_top]

theorem map_rank_injective : ∀ {lhs rhs : List Bytes}, (∀ id ∈ lhs, IsIdentifier true id) →
    (∀ id ∈ rhs, IsIdentifier true id) → lhs.map rank = rhs.map rank → lhs = rhs
  | [], [], _, _, _ => rfl
  | a :: lhs, b :: rhs, left, right, same => by
    obtain ⟨first, left⟩ := List.forall_mem_cons.1 left
    obtain ⟨first', right⟩ := List.forall_mem_cons.1 right
    obtain ⟨head, tail⟩ := List.cons.inj same
    rw [rank_injective first first' head, map_rank_injective left right tail]

/-- Versions of one precedence differ at most in build metadata. -/
theorem Spelling.eq_of_precedence {lhs rhs : Spelling} (same : lhs.precedence = rhs.precedence) :
    lhs.core = rhs.core ∧ lhs.prerelease = rhs.prerelease := by
  obtain ⟨core, prerelease⟩ := Prod.mk.inj (toLex.injective same)
  refine ⟨map_rank_injective (fun id member => (lhs.numbers id member).toIsIdentifier)
    (fun id member => (rhs.numbers id member).toIsIdentifier) core, ?_⟩
  split_ifs at prerelease with final final' final'
  · rw [final, final']
  · cases prerelease
  · cases prerelease
  · exact map_rank_injective lhs.identifiers rhs.identifiers (WithTop.coe_injective prerelease)

open Classical in
/-- Where a string stands: below all versions, unless it is one. -/
noncomputable def key (text : Option Bytes) : WithBot (List Rank ×ₗ WithTop (List Rank)) :=
  if valid : Valid text then valid.choose.precedence else ⊥

theorem key_cases (text : Option Bytes) : ¬Valid text ∧ key text = ⊥ ∧ parse text = none ∨
    ∃ spelling : Spelling, text = some spelling.text ∧ key text = spelling.precedence ∧
      parse text = some spelling.version := by
  by_cases valid : Valid text
  · have same := valid.choose_spec
    refine .inr ⟨_, same, dif_pos valid, ?_⟩
    conv_lhs => rw [same]
    exact valid.choose.parse_text
  · refine .inl ⟨valid, dif_neg valid, ?_⟩
    cases parsed : parse text with
    | none => rfl
    | some version => exact absurd (Spelling.of_parse parsed) valid

theorem result_key (lhs rhs : Option Bytes) : result lhs rhs = order (key lhs) (key rhs) := by
  unfold result
  rcases key_cases lhs with ⟨-, low, parsed⟩ | ⟨left, -, stands, parsed⟩ <;>
    rcases key_cases rhs with ⟨-, low', parsed'⟩ | ⟨right, -, stands', parsed'⟩
  · simp [parsed, parsed', low, low', truth, order]
  · simp [parsed, parsed', low, stands', truth, order]
  · simp [parsed, parsed', stands, low', truth, order]
  · rw [parsed, parsed', stands, stands', order_coe_bot]
    exact compareVersions_precedence left right

/-- Comparing versions is a total preorder on all strings, with those that are no versions below. On
versions it is precedence, and the result is zero only for two that differ in build metadata. -/
theorem compare_precedence :
    (∀ lhs rhs, compare lhs rhs true = some (result lhs rhs)) ∧
    (∀ lhs rhs, result lhs rhs = -result rhs lhs) ∧
    (∀ first second third, result first second ≤ 0 → result second third ≤ 0 →
      result first third ≤ 0) ∧
    (∀ lhs rhs, Valid lhs → ¬Valid rhs → 0 < result lhs rhs) ∧
    (∀ lhs rhs : Spelling,
      result (some lhs.text) (some rhs.text) = order lhs.precedence rhs.precedence) ∧
    ∀ lhs rhs, result lhs rhs = 0 ↔ ¬Valid lhs ∧ ¬Valid rhs ∨
      ∃ left right : Spelling, lhs = some left.text ∧ rhs = some right.text ∧
        left.core = right.core ∧ left.prerelease = right.prerelease := by
  have spells : ∀ lhs rhs : Spelling,
      result (some lhs.text) (some rhs.text) = order lhs.precedence rhs.precedence := by
    intro lhs rhs
    rw [result, lhs.parse_text, rhs.parse_text]
    exact compareVersions_precedence lhs rhs
  refine ⟨fun _ _ => rfl, fun lhs rhs => ?_, fun first second third => ?_, fun lhs rhs left right =>
    ?_,
    spells, fun lhs rhs => ⟨fun zero => ?_, ?_⟩⟩
  · rw [result_key, result_key, order_swap]
  · simp only [result_key, order_nonpos_iff]
    exact le_trans
  · rcases key_cases lhs with ⟨invalid, -⟩ | ⟨_, -, stands, -⟩
    · exact absurd left invalid
    rcases key_cases rhs with ⟨-, low, -⟩ | ⟨spelling, same, -⟩
    · rw [result_key, stands, low, order_of_gt (WithBot.bot_lt_coe _)]
      decide
    · exact absurd ⟨spelling, same⟩ right
  · rw [result_key, order_eq_zero_iff] at zero
    rcases key_cases lhs with ⟨left, low, -⟩ | ⟨left, same, stands, -⟩ <;>
      rcases key_cases rhs with ⟨right, low', -⟩ | ⟨right, same', stands', -⟩
    · exact .inl ⟨left, right⟩
    · simp [low, stands'] at zero
    · simp [stands, low'] at zero
    · rw [stands, stands'] at zero
      exact .inr ⟨left, right, same, same', Spelling.eq_of_precedence (WithBot.coe_injective zero)⟩
  · rintro (⟨left, right⟩ | ⟨left, right, rfl, rfl, core, prerelease⟩)
    · rw [result_key, key, key, dif_neg left, dif_neg right, order_self]
    · rw [spells, Spelling.precedence, Spelling.precedence, core, prerelease, order_self]

end Gizos.Semver
