import Mathlib.Algebra.BigOperators.Group.List.Basic
import Mathlib.Algebra.Ring.Nat

/-! # Sums over the entries of a list

The bookkeeping of a counter that is to be the sum of a weight over the entries of a list: what
each way of changing the list does to the sum.
-/
namespace Gizos

variable {α β : Type}

/-- The sum of a weight over the entries of a list. -/
def tally (weight : α → Nat) (list : List α) : Nat := (list.map weight).sum

variable {weight weight' : α → Nat} {list : List α}

@[simp] theorem tally_nil : tally weight [] = 0 := rfl

@[simp] theorem tally_cons (entry : α) :
    tally weight (entry :: list) = weight entry + tally weight list := by
  simp [tally]

@[simp] theorem tally_append (left right : List α) :
    tally weight (left ++ right) = tally weight left + tally weight right := by
  simp [tally]

theorem tally_congr (same : ∀ entry ∈ list, weight entry = weight' entry) :
    tally weight list = tally weight' list := by
  unfold tally
  rw [List.map_congr_left same]

theorem tally_zero (list : List α) : tally (fun _ => 0) list = 0 := by
  simp [tally]

theorem tally_map (change : β → α) (entries : List β) :
    tally weight (entries.map change) = tally (fun entry => weight (change entry)) entries := by
  simp only [tally, List.map_map]
  rfl

/-- A filter keeps the weight of what it keeps. -/
theorem tally_filter (keep : α → Bool) :
    tally weight (list.filter keep) = tally (fun entry => if keep entry then weight entry else 0)
      list := by
  induction list with
  | nil => rfl
  | cons entry rest ih =>
    by_cases kept : keep entry = true
    · simp [List.filter_cons_of_pos kept, ih, kept]
    · simp [List.filter_cons_of_neg kept, ih, kept]

/-- Entries that are dropped or changed without weight do not count. -/
theorem tally_filter_eq {keep : α → Bool}
    (weightless : ∀ entry ∈ list, keep entry = false → weight entry = 0) :
    tally weight (list.filter keep) = tally weight list := by
  rw [tally_filter]
  refine tally_congr fun entry member => ?_
  by_cases kept : keep entry = true
  · rw [if_pos kept]
  · rw [if_neg kept, weightless entry member (by simpa using kept)]

/-- A change of one entry exchanges its weight. -/
theorem tally_modify (weight : α → Nat) {index : Nat} {entry : α} {change : α → α}
    (found : list[index]? = some entry) :
    tally weight (list.modify index change) + weight entry =
      tally weight list + weight (change entry) := by
  induction list generalizing index with
  | nil => simp at found
  | cons head rest ih =>
    cases index with
    | zero =>
      simp only [List.getElem?_cons_zero, Option.some.injEq] at found
      subst found
      simp only [List.modify_zero_cons, tally_cons]
      omega
    | succ index =>
      have rest := ih found
      simp only [List.modify_succ_cons, tally_cons]
      omega

/-- The entries of a list of which one was changed. -/
theorem mem_modify_entry {index : Nat} {entry member : α} {change : α → α}
    (found : list[index]? = some entry) (among : member ∈ list.modify index change) :
    member ∈ list ∨ member = change entry := by
  obtain ⟨place, bound, rfl⟩ := List.mem_iff_getElem.mp among
  rw [List.getElem_modify]
  split
  · rename_i here
    subst here
    rw [List.length_modify] at bound
    rw [List.getElem?_eq_getElem bound, Option.some.injEq] at found
    exact .inr (by rw [found])
  · exact .inl (List.getElem_mem _)

/-- Every entry weighs at most the sum. -/
theorem le_tally {entry : α} (member : entry ∈ list) : weight entry ≤ tally weight list := by
  induction list with
  | nil => cases member
  | cons head rest step =>
    rw [tally_cons]
    rcases List.mem_cons.mp member with rfl | later
    · omega
    · have bound := step later
      omega

/-- Entries that weigh at most one weigh at most their number. -/
theorem tally_le_length (light : ∀ entry, weight entry ≤ 1) : tally weight list ≤ list.length := by
  induction list with
  | nil => exact Nat.le_refl _
  | cons entry rest step =>
    have head := light entry
    rw [tally_cons, List.length_cons]
    omega

theorem tally_perm {other : List α} (same : list.Perm other) :
    tally weight list = tally weight other :=
  (same.map weight).sum_eq

theorem tally_sublist (weight : α → Nat) {part : List α} (sub : part.Sublist list) :
    tally weight part ≤ tally weight list := by
  induction sub with
  | slnil => exact Nat.le_refl _
  | cons entry _ ih | cons_cons entry _ ih =>
    simp only [tally_cons]
    omega

/-- Two weights add up entry by entry. -/
theorem tally_add : tally (fun entry => weight entry + weight' entry) list =
    tally weight list + tally weight' list := by
  induction list with
  | nil => rfl
  | cons entry rest ih =>
    simp only [tally_cons, ih]
    omega

end Gizos
