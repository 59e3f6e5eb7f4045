import Mathlib.Tactic.Common

/-!
# Bisection of a half-open interval

The loop `while (l < r) { i = l + (r - l) / 2; ... }` over an arbitrary
predicate.
-/

namespace Bisection

def bisect (goRight : ℕ → Bool) : ℕ → ℕ → ℕ → ℕ
  | 0, l, _ => l
  | fuel + 1, l, r =>
      if l < r then
        let i := l + (r - l) / 2
        if goRight i then bisect goRight fuel (i + 1) r
        else bisect goRight fuel l i
      else l

structure Boundary (goRight : ℕ → Bool) (n p : ℕ) : Prop where
  le : p ≤ n
  before : ∀ j, j < p → goRight j = true
  after : ∀ j, p ≤ j → j < n → goRight j = false

theorem bisect_boundary_of_bracket {goRight : ℕ → Bool} {n fuel l r : ℕ}
    (hmono : ∀ i j, i ≤ j → j < n → goRight j = true → goRight i = true)
    (hfuel : r - l ≤ fuel) (hlr : l ≤ r) (hr : r ≤ n)
    (hbefore : ∀ j, j < l → goRight j = true)
    (hafter : ∀ j, r ≤ j → j < n → goRight j = false) :
    Boundary goRight n (bisect goRight fuel l r) := by
  induction fuel generalizing l r with
  | zero =>
    have hrl : r = l := by omega
    subst hrl
    exact ⟨hr, hbefore, hafter⟩
  | succ fuel ih =>
    unfold bisect
    by_cases hlt : l < r
    · rw [if_pos hlt]
      dsimp only
      have hi : l + (r - l) / 2 < r := by omega
      by_cases hright : goRight (l + (r - l) / 2) = true
      · rw [if_pos hright]
        apply ih (by omega) (by omega) hr
        · intro j hj
          exact hmono j _ (by omega) (by omega) hright
        · exact hafter
      · rw [if_neg hright]
        apply ih (by omega) (by omega) (by omega) hbefore
        intro j hij hj
        by_contra htrue
        apply hright
        exact hmono _ j hij hj (by simpa using htrue)
    · rw [if_neg hlt]
      have hrl : r = l := by omega
      subst hrl
      exact ⟨hr, hbefore, hafter⟩

theorem bisect_boundary {goRight : ℕ → Bool} {n : ℕ}
    (hmono : ∀ i j, i ≤ j → j < n → goRight j = true → goRight i = true) :
    Boundary goRight n (bisect goRight n 0 n) := by
  apply bisect_boundary_of_bracket hmono
  · omega
  · omega
  · exact Nat.le_refl n
  · intro j hj
    omega
  · intro j hn hj
    omega

end Bisection
