import Mathlib.Tactic.Common
import Mathlib.Order.Nat

/-!
# Following pointers

A partial function gives the next node of a node.  If a measure decreases with
each step, no walk comes back, and every walk which goes on reaches its goal.
-/

namespace PointerWalk

variable {α : Type*} {next : α → Option α} {goal x y : α}

def walk (next : α → Option α) : ℕ → α → Option α
  | 0, x => some x
  | n + 1, x => do
      let y ← next x
      walk next n y

def Acyclic (next : α → Option α) : Prop :=
  ∀ n x, walk next (n + 1) x ≠ some x

def Arrives (next : α → Option α) (goal : α) (bound : ℕ) (x : α) : Prop :=
  ∃ n ≤ bound, walk next n x = some goal ∧
    ∀ i j, i < j → j ≤ n → walk next i x ≠ walk next j x

theorem walk_succ (hnext : next x = some y) (n : ℕ) :
    walk next (n + 1) x = walk next n y := by
  rw [walk, hnext]
  rfl

theorem acyclic_of_decreasing (measure : α → ℕ)
    (hstep : ∀ x y, next x = some y → measure y < measure x) :
    Acyclic next := by
  have hwalk : ∀ n x y, walk next n x = some y → measure y ≤ measure x := by
    intro n
    induction n with
    | zero =>
      intro x y hwalk
      obtain rfl := Option.some.inj hwalk
      exact Nat.le_refl _
    | succ n ih =>
      intro x y hwalk
      obtain ⟨z, hz, hrest⟩ := Option.bind_eq_some_iff.mp hwalk
      exact (ih z y hrest).trans (hstep x z hz).le
  intro n x hback
  obtain ⟨z, hz, hrest⟩ := Option.bind_eq_some_iff.mp hback
  exact absurd (hwalk n z x hrest) (Nat.not_le_of_lt (hstep x z hz))

theorem walk_of_decreasing (measure : α → ℕ) (good : α → Prop)
    (hstep : ∀ x, good x → x ≠ goal →
      ∃ y, next x = some y ∧ good y ∧ measure y < measure x)
    (hx : good x) :
    ∃ n ≤ measure x, walk next n x = some goal ∧
      (∀ i ≤ n, ∃ z, walk next i x = some z ∧ measure z ≤ measure x) ∧
      ∀ i j, i < j → j ≤ n → walk next i x ≠ walk next j x := by
  induction hm : measure x using Nat.strong_induction_on generalizing x with
  | _ m ih =>
    subst hm
    by_cases hgoal : x = goal
    · subst hgoal
      refine ⟨0, Nat.zero_le _, rfl, ?_, by omega⟩
      intro i hi
      obtain rfl := Nat.le_zero.mp hi
      exact ⟨x, rfl, Nat.le_refl _⟩
    · obtain ⟨y, hnext, hy, hlt⟩ := hstep x hx hgoal
      obtain ⟨n, hn, harrives, hbelow, hdiffer⟩ := ih _ hlt hy rfl
      refine ⟨n + 1, by omega, ?_, ?_, ?_⟩
      · rw [walk_succ hnext, harrives]
      · intro i hi
        cases i with
        | zero => exact ⟨x, rfl, Nat.le_refl _⟩
        | succ i =>
          obtain ⟨z, hz, hle⟩ := hbelow i (by omega)
          exact ⟨z, (walk_succ hnext i).trans hz, by omega⟩
      · intro i j hij hj
        obtain ⟨j, rfl⟩ := Nat.exists_eq_add_one_of_ne_zero (show j ≠ 0 by omega)
        rw [walk_succ hnext]
        cases i with
        | zero =>
          -- all later nodes have a smaller measure than the start
          obtain ⟨z, hz, hle⟩ := hbelow j (by omega)
          rw [hz]
          intro hsame
          obtain rfl := Option.some.inj hsame
          omega
        | succ i =>
          rw [walk_succ hnext]
          exact hdiffer i j (by omega) (by omega)

theorem arrives_of_decreasing (measure : α → ℕ) (good : α → Prop)
    (hstep : ∀ x, good x → x ≠ goal →
      ∃ y, next x = some y ∧ good y ∧ measure y < measure x)
    (hx : good x) : Arrives next goal (measure x) x := by
  obtain ⟨n, hn, harrives, -, hdiffer⟩ := walk_of_decreasing measure good hstep hx
  exact ⟨n, hn, harrives, hdiffer⟩

theorem Arrives.mono {bound bound' : ℕ} (harrives : Arrives next goal bound x)
    (hle : bound ≤ bound') : Arrives next goal bound' x := by
  obtain ⟨n, hn, hrest⟩ := harrives
  exact ⟨n, hn.trans hle, hrest⟩

end PointerWalk
