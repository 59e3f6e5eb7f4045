import Mathlib.Data.List.InsertIdx
import Mathlib.Data.List.Nodup

/-!
# The live part of a packed array

An array is a function on indices of which only the first `n` values are
live.  Deleting and inserting move the tail by one place, as `memmove` does;
the lemmas read these moves as operations on the list of live values.
-/

namespace PackedArray

open Function List

variable {α : Type*}

def live (a : ℕ → α) (n : ℕ) : List α :=
  (List.range n).map a

/-- `memmove(&a[i], &a[i + 1], n - i)`: the values in `[i + 1, n]` move down
by one place. -/
def closeGap (a : ℕ → α) (i n : ℕ) : ℕ → α :=
  fun k => if i ≤ k ∧ k < n then a (k + 1) else a k

/-- `memmove(&a[i + 1], &a[i], n - i)`: the values in `[i, n)` move up by one
place. -/
def openGap (a : ℕ → α) (i n : ℕ) : ℕ → α :=
  fun k => if i < k ∧ k ≤ n then a (k - 1) else a k

@[simp] theorem live_length (a : ℕ → α) (n : ℕ) : (live a n).length = n := by
  simp [live]

@[simp] theorem live_getElem (a : ℕ → α) (n i : ℕ) (hi : i < (live a n).length) :
    (live a n)[i] = a i := by
  simp [live]

@[simp] theorem live_zero (a : ℕ → α) : live a 0 = [] := rfl

variable {a : ℕ → α} {n i : ℕ} {x : α}

theorem mem_live : x ∈ live a n ↔ ∃ i, i < n ∧ a i = x := by
  simp [live]

theorem live_succ (a : ℕ → α) (n : ℕ) : live a (n + 1) = live a n ++ [a n] := by
  simp [live, range_succ]

theorem live_congr {a b : ℕ → α} (heq : ∀ i, i < n → a i = b i) : live a n = live b n := by
  apply map_congr_left
  intro i hi
  exact heq i (mem_range.mp hi)

theorem live_pred_eq_dropLast (a : ℕ → α) (n : ℕ) :
    live a (n - 1) = (live a n).dropLast := by
  cases n with
  | zero => rfl
  | succ n => simp [live_succ]

theorem nodup_live_iff : (live a n).Nodup ↔ ∀ i j, i < n → j < n → a i = a j → i = j := by
  rw [nodup_iff_injective_getElem]
  constructor
  · intro hinj i j hi hj heq
    have hfin := @hinj ⟨i, by simpa using hi⟩ ⟨j, by simpa using hj⟩
      (by simpa using heq)
    simpa using hfin
  · intro hinj
    rintro ⟨i, hi⟩ ⟨j, hj⟩ heq
    simp only [live_length] at hi hj
    have heq' : a i = a j := by simpa using heq
    exact Fin.ext (hinj i j hi hj heq')

theorem live_closeGap_of_le {i n m : ℕ} (hi : i < n) (hm : n - 1 ≤ m) :
    live (closeGap a i m) (n - 1) = (live a n).eraseIdx i := by
  apply ext_getElem
  · rw [length_eraseIdx_of_lt (by simpa using hi)]
    simp
  · intro k hk₁ hk₂
    have hk : k < n - 1 := by simpa using hk₁
    rw [live_getElem, getElem_eraseIdx]
    by_cases hki : k < i
    · rw [dif_pos hki, live_getElem, closeGap, if_neg (by omega)]
    · rw [dif_neg hki, live_getElem, closeGap, if_pos (by omega)]

theorem live_closeGap (hi : i < n) :
    live (closeGap a i n) (n - 1) = (live a n).eraseIdx i :=
  live_closeGap_of_le hi (Nat.sub_le n 1)

theorem live_update_openGap (hi : i ≤ n) :
    live (update (openGap a i n) i x) (n + 1) = (live a n).insertIdx i x := by
  apply ext_getElem
  · rw [length_insertIdx_of_le_length (by simpa using hi)]
    simp
  · intro k hk₁ hk₂
    have hk : k < n + 1 := by simpa using hk₁
    rw [live_getElem, getElem_insertIdx]
    rcases Nat.lt_trichotomy k i with hlt | heq | hgt
    · rw [dif_pos hlt, live_getElem, update_of_ne (by omega), openGap, if_neg (by omega)]
    · subst heq
      simp
    · rw [dif_neg (by omega), dif_neg (by omega), live_getElem,
        update_of_ne (by omega), openGap, if_pos (by omega)]

theorem erase_live_eq_eraseIdx [DecidableEq α] (hnodup : (live a n).Nodup) (hi : i < n) :
    (live a n).erase (a i) = (live a n).eraseIdx i := by
  have hmem := List.Nodup.erase_getElem hnodup (i := i) (by simpa using hi)
  simpa using hmem

theorem pairwise_insertIdx {r : α → α → Prop}
    (hsorted : (live a n).Pairwise r) (hi : i ≤ n)
    (hbefore : ∀ k, k < i → r (a k) x)
    (hafter : ∀ k, i ≤ k → k < n → r x (a k)) :
    ((live a n).insertIdx i x).Pairwise r := by
  rw [← live_update_openGap hi, pairwise_iff_getElem]
  intro j k hj hk hjk
  rw [pairwise_iff_getElem] at hsorted
  have hk' : k < n + 1 := by simpa using hk
  have hpair : ∀ p q, q < n → p < q → r (a p) (a q) := by
    intro p q hq hpq
    have hrel := hsorted p q (by simp; omega) (by simpa using hq) hpq
    simpa using hrel
  rw [live_getElem, live_getElem]
  rcases Nat.lt_trichotomy k i with hki | rfl | hki
  · rw [update_of_ne (by omega), update_of_ne (by omega),
      openGap, openGap, if_neg (by omega), if_neg (by omega)]
    exact hpair j k (by omega) hjk
  · rw [update_self, update_of_ne (by omega), openGap, if_neg (by omega)]
    exact hbefore j hjk
  · rw [update_of_ne (show k ≠ i by omega), openGap, if_pos (by omega)]
    rcases Nat.lt_trichotomy j i with hji | rfl | hji
    · rw [update_of_ne (by omega), openGap, if_neg (by omega)]
      exact hpair j (k - 1) (by omega) (by omega)
    · rw [update_self]
      exact hafter (k - 1) (by omega) (by omega)
    · rw [update_of_ne (by omega), openGap, if_pos (by omega)]
      exact hpair (j - 1) (k - 1) (by omega) (by omega)

end PackedArray
