import Mathlib.Data.Finset.Card

/-!
# Tables of slots

A table has finitely many slots, each of which is in use or free.  A counter
beside the table is exact if it is the number of slots in use; it stays so when
it is adjusted with each slot which is taken or released.
-/

namespace SlotTable

open Function Finset

variable {size i : ℕ} {used : ℕ → Bool}

def inUse (size : ℕ) (used : ℕ → Bool) : Finset ℕ :=
  (range size).filter fun i => used i = true

@[simp] theorem mem_inUse : i ∈ inUse size used ↔ i < size ∧ used i = true := by
  rw [inUse, mem_filter, mem_range]

theorem card_inUse_le (size : ℕ) (used : ℕ → Bool) : (inUse size used).card ≤ size := by
  calc (inUse size used).card ≤ (range size).card := card_filter_le _ _
    _ = size := card_range size

theorem inUse_take (hi : i < size) :
    inUse size (update used i true) = insert i (inUse size used) := by
  ext j
  rw [mem_insert, mem_inUse, mem_inUse]
  by_cases hj : j = i
  · subst hj
    simp [hi]
  · simp [hj]

theorem inUse_release : inUse size (update used i false) = (inUse size used).erase i := by
  ext j
  rw [mem_erase, mem_inUse, mem_inUse]
  by_cases hj : j = i
  · subst hj
    simp
  · simp [hj]

theorem card_inUse_take (hi : i < size) (hfree : used i = false) :
    (inUse size (update used i true)).card = (inUse size used).card + 1 := by
  have hout : i ∉ inUse size used := by simp [hfree]
  rw [inUse_take hi, card_insert_of_notMem hout]

theorem card_inUse_release (hi : i < size) (hused : used i = true) :
    (inUse size (update used i false)).card + 1 = (inUse size used).card := by
  have hin : i ∈ inUse size used := mem_inUse.mpr ⟨hi, hused⟩
  rw [inUse_release]
  exact card_erase_add_one hin

theorem card_inUse_update (hi : i < size) (value : Bool) :
    (inUse size (update used i value)).card + (used i).toNat =
      (inUse size used).card + value.toNat := by
  cases hused : used i with
  | false =>
    cases value with
    | false => rw [← hused, update_eq_self]
    | true => exact card_inUse_take hi hused
  | true =>
    cases value with
    | false => exact card_inUse_release hi hused
    | true => rw [← hused, update_eq_self]

theorem card_inUse_succ (i : ℕ) (used : ℕ → Bool) :
    (inUse (i + 1) used).card = (inUse i used).card + (used i).toNat := by
  rw [inUse, range_add_one, filter_insert]
  cases hused : used i with
  | false => simp [inUse]
  | true =>
    rw [if_pos rfl, card_insert_of_notMem (by simp)]
    rfl

theorem unused_of_card_le {n : ℕ} (hcard : (inUse size used).card ≤ (inUse n used).card)
    (hn : n ≤ i) (hi : i < size) : used i = false := by
  by_contra hused
  rw [Bool.not_eq_false] at hused
  have hsub : inUse n used ⊆ (inUse size used).erase i := by
    intro j hj
    rw [mem_inUse] at hj
    rw [mem_erase, mem_inUse]
    exact ⟨by omega, by omega, hj.2⟩
  have hin : i ∈ inUse size used := mem_inUse.mpr ⟨hi, hused⟩
  have hle := card_le_card hsub
  have herase := card_erase_add_one hin
  omega

theorem card_inUse_eq_zero :
    (inUse size used).card = 0 ↔ ∀ i, i < size → used i = false := by
  rw [card_eq_zero, eq_empty_iff_forall_notMem]
  refine forall_congr' fun i => ?_
  rw [mem_inUse, not_and, Bool.not_eq_true]

theorem card_inUse_lt_iff :
    (inUse size used).card < size ↔ ∃ i, i < size ∧ used i = false := by
  constructor
  · intro hroom
    by_contra hfull
    push Not at hfull
    have hall : inUse size used = range size := by
      apply filter_true_of_mem
      intro i hi
      exact Bool.eq_true_of_not_eq_false (hfull i (mem_range.mp hi))
    rw [hall, card_range] at hroom
    exact Nat.lt_irrefl _ hroom
  · rintro ⟨i, hi, hfree⟩
    have htake := card_inUse_take hi hfree
    have hle := card_inUse_le size (update used i true)
    omega

end SlotTable
