import Mathlib.Data.List.Basic
import Mathlib.Order.Bounds.Basic

/-!
# Running minima

Offers with costs arrive one after the other, and one of them is kept. What is
kept is best if it is among the offers and costs the least.
-/

namespace RunningMinimum

open List

variable {α β : Type*} [LinearOrder α]

def BestOf (offers : List (α × β)) : Option (α × β) → Prop
  | none => offers = []
  | some kept => kept ∈ offers ∧ ∀ other ∈ offers, kept.1 ≤ other.1

variable {offers : List (α × β)} {kept : Option (α × β)} {cost stated : α} {offer : β}

theorem BestOf.replaced_iff
    (hbest : BestOf offers kept) (hless : ∀ old ∈ kept, stated < old.1) :
    BestOf ((cost, offer) :: offers) (some (stated, offer)) ↔ stated = cost := by
  have hdearer : ∀ other ∈ offers, stated < other.1 := by
    cases kept with
    | none =>
      intro other hother
      rw [show offers = [] from hbest] at hother
      exact absurd hother not_mem_nil
    | some old =>
      intro other hother
      exact lt_of_lt_of_le (hless old rfl) (hbest.2 other hother)
  constructor
  · rintro ⟨hmem, -⟩
    rcases mem_cons.mp hmem with heq | hold
    · exact (Prod.mk.inj heq).1
    · exact absurd (hdearer _ hold) (lt_irrefl stated)
  · rintro rfl
    refine ⟨mem_cons_self, ?_⟩
    intro other hother
    rcases mem_cons.mp hother with rfl | hold
    · exact le_rfl
    · exact le_of_lt (hdearer other hold)

theorem BestOf.passed_iff (hbest : BestOf offers kept) :
    BestOf ((cost, offer) :: offers) kept ↔ ∃ old ∈ kept, old.1 ≤ cost := by
  cases kept with
  | none =>
    constructor
    · intro hnone
      exact absurd hnone (cons_ne_nil _ _)
    · rintro ⟨old, hold, -⟩
      contradiction
  | some old =>
    constructor
    · intro hmin
      exact ⟨old, rfl, hmin.2 _ mem_cons_self⟩
    · rintro ⟨_, hold, hle⟩
      obtain rfl := Option.some.inj hold
      refine ⟨mem_cons_of_mem _ hbest.1, ?_⟩
      intro other hother
      rcases mem_cons.mp hother with rfl | hmem
      · exact hle
      · exact hbest.2 other hmem

section Scan

variable {ι γ : Type*} (counts : ι → Prop) [DecidablePred counts]
  (value : ι → γ) (key : γ → α)

def scan (kept : γ) (indices : List ι) : γ :=
  indices.foldl (fun kept i =>
      if counts i ∧ key (value i) < key kept then value i else kept)
    kept

theorem isLeast_scan (kept : γ) (indices : List ι) : IsLeast
      (insert (key kept) {k | ∃ i ∈ indices, counts i ∧ key (value i) = k})
      (key (scan counts value key kept indices)) := by
  induction indices generalizing kept with
  | nil =>
    refine ⟨Set.mem_insert _ _, ?_⟩
    rintro k (rfl | ⟨i, hi, -⟩)
    · exact le_rfl
    · exact absurd hi not_mem_nil
  | cons i rest ih =>
    have hrest : scan counts value key kept (i :: rest) = scan counts value key
          (if counts i ∧ key (value i) < key kept then value i else kept)
          rest := rfl
    rw [hrest]
    split
    · rename_i hsmaller
      obtain ⟨hmem, hleast⟩ := ih (value i)
      constructor
      · rcases hmem with heq | ⟨j, hj, hcounts, heq⟩
        · exact .inr ⟨i, mem_cons_self, hsmaller.1, heq.symm⟩
        · exact .inr ⟨j, mem_cons_of_mem i hj, hcounts, heq⟩
      · have hi := hleast (Set.mem_insert _ _)
        rintro k (rfl | ⟨j, hj, hcounts, rfl⟩)
        · exact hi.trans hsmaller.2.le
        · rcases mem_cons.mp hj with rfl | hj
          · exact hi
          · exact hleast (.inr ⟨j, hj, hcounts, rfl⟩)
    · rename_i hnot
      obtain ⟨hmem, hleast⟩ := ih kept
      constructor
      · rcases hmem with heq | ⟨j, hj, hcounts, heq⟩
        · exact .inl heq
        · exact .inr ⟨j, mem_cons_of_mem i hj, hcounts, heq⟩
      · have hkept := hleast (Set.mem_insert _ _)
        rintro k (rfl | ⟨j, hj, hcounts, rfl⟩)
        · exact hkept
        · rcases mem_cons.mp hj with rfl | hj
          · exact hkept.trans (le_of_not_gt fun hlt => hnot ⟨hcounts, hlt⟩)
          · exact hleast (.inr ⟨j, hj, hcounts, rfl⟩)

end Scan

end RunningMinimum
