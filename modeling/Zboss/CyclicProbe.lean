import Mathlib.Data.Nat.ModEq

/-!
# Cyclic probing of a table

Open addressing visits the slots of a table of `size` slots one after the
other, wrapping around at the end, until a slot satisfies a predicate.
-/

namespace CyclicProbe

def probe (accept : ℕ → Bool) (size : ℕ) : ℕ → ℕ → Option ℕ
  | 0, _ => none
  | fuel + 1, slot =>
      if accept slot then some slot
      else probe accept size fuel ((slot + 1) % size)

variable {accept : ℕ → Bool} {fuel size slot start : ℕ}

theorem probe_eq_some (hfound : probe accept size fuel start = some slot) :
    accept slot = true := by
  induction fuel generalizing start with
  | zero => simp [probe] at hfound
  | succ fuel ih =>
    unfold probe at hfound
    by_cases haccept : accept start = true
    · rw [if_pos haccept, Option.some.injEq] at hfound
      exact hfound ▸ haccept
    · rw [if_neg haccept] at hfound
      exact ih hfound

section

variable (hstart : start < size)

include hstart

theorem probe_lt_size (hfound : probe accept size fuel start = some slot) :
    slot < size := by
  induction fuel generalizing start with
  | zero => simp [probe] at hfound
  | succ fuel ih =>
    unfold probe at hfound
    by_cases haccept : accept start = true
    · rw [if_pos haccept, Option.some.injEq] at hfound
      exact hfound ▸ hstart
    · rw [if_neg haccept] at hfound
      exact ih (Nat.mod_lt _ (by omega)) hfound

theorem probe_eq_none_steps (hnone : probe accept size fuel start = none)
    {k : ℕ} (hk : k < fuel) :
    accept ((start + k) % size) = false := by
  induction fuel generalizing start k with
  | zero => omega
  | succ fuel ih =>
    unfold probe at hnone
    by_cases haccept : accept start = true
    · simp [haccept] at hnone
    · rw [if_neg haccept] at hnone
      cases k with
      | zero =>
        rw [Nat.add_zero, Nat.mod_eq_of_lt hstart]
        simpa using haccept
      | succ k =>
        have hnext := ih (Nat.mod_lt _ (by omega)) hnone
          (show k < fuel by omega)
        rwa [Nat.mod_add_mod, show start + 1 + k = start + (k + 1) by omega]
          at hnext

theorem probe_eq_none (hnone : probe accept size size start = none) (hslot : slot < size) :
    accept slot = false := by
  -- The distance from `start` to `slot` in the direction of probing.
  let distance := if start ≤ slot then slot - start else slot + size - start
  have hdistance : distance < size := by
    dsimp only [distance]
    split <;> omega
  have hreach : (start + distance) % size = slot := by
    dsimp only [distance]
    split
    · rw [show start + (slot - start) = slot by omega, Nat.mod_eq_of_lt hslot]
    · rw [show start + (slot + size - start) = slot + size by omega,
        Nat.add_mod_right, Nat.mod_eq_of_lt hslot]
  rw [← hreach]
  exact probe_eq_none_steps hstart hnone hdistance

theorem probe_isSome (hslot : slot < size) (haccept : accept slot = true) :
    ∃ found, probe accept size size start = some found := by
  cases hprobe : probe accept size size start with
  | some found => exact ⟨found, rfl⟩
  | none =>
    have hfalse := probe_eq_none hstart hprobe hslot
    rw [haccept] at hfalse
    contradiction

theorem probe_eq_of_unique (hslot : slot < size) (haccept : accept slot = true)
    (hunique : ∀ other, other < size → accept other = true → other = slot) :
    probe accept size size start = some slot := by
  obtain ⟨found, hfound⟩ := probe_isSome hstart hslot haccept
  rw [hfound, hunique found (probe_lt_size hstart hfound) (probe_eq_some hfound)]

end

end CyclicProbe
