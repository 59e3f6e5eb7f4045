import Zboss.NeighborConsistency
import Mathlib.Data.Nat.Count

/-!
# Packing the base neighbor table

The loop which packs the base table counts the holes it has met, and takes one
off the count with each row it moves.  The row leaves a hole behind, so that
from then on the count is short by one: the next row moves too little.
-/

namespace Zboss

open Function

namespace NeighborTbl

variable (nt : NeighborTbl)

def UsedRow (n : ℕ) : Prop := (nt.baseNeighbor n).used = true

instance : DecidablePred nt.UsedRow :=
  fun n => inferInstanceAs (Decidable ((nt.baseNeighbor n).used = true))

def usedBefore (n : ℕ) : ℕ := Nat.count nt.UsedRow n

structure RowsCounted : Prop where
  genuine : ∀ n, n < nt.baseNeighborSize → nt.UsedRow n →
    nt.addrToNeighbor (nt.baseNeighbor n).addrRef = n
  counted : nt.usedBefore nt.baseNeighborSize ≤ nt.baseNeighborUsed

instance : Decidable nt.RowsCounted :=
  decidable_of_iff ((∀ n, n < nt.baseNeighborSize → nt.UsedRow n →
        nt.addrToNeighbor (nt.baseNeighbor n).addrRef = n) ∧
      nt.usedBefore nt.baseNeighborSize ≤ nt.baseNeighborUsed)
    ⟨fun ⟨hgenuine, hcounted⟩ => ⟨hgenuine, hcounted⟩,
      fun ⟨hgenuine, hcounted⟩ => ⟨hgenuine, hcounted⟩⟩

/-- The used rows of `nt` fill the first rows of `nt'`, in order and without
change, and are found there. -/
structure RowsPacked (nt' : NeighborTbl) : Prop where
  moved : ∀ n, n < nt.baseNeighborSize → nt.UsedRow n →
    nt'.baseNeighbor (nt.usedBefore n) = nt.baseNeighbor n
  found : ∀ n, n < nt.baseNeighborSize → nt.UsedRow n →
    nt'.addrToNeighbor (nt.baseNeighbor n).addrRef = nt.usedBefore n
  free : ∀ n, nt.usedBefore nt.baseNeighborSize ≤ n →
    n < nt.baseNeighborSize → ¬ nt'.UsedRow n

def holesKept : ℕ → ℕ
  | 0 => 0
  | n + 1 => if nt.UsedRow n then holesKept n - 1 else holesKept n + 1

def OneBehindHole : Prop :=
  ∀ k, k < nt.baseNeighborSize → ∀ j, j < k → ∀ i, i < j →
    ¬ nt.UsedRow i → nt.UsedRow j → ¬ nt.UsedRow k

instance : Decidable nt.OneBehindHole :=
  inferInstanceAs (Decidable (∀ k, k < nt.baseNeighborSize → ∀ j, j < k → ∀ i, i < j →
      ¬ nt.UsedRow i → nt.UsedRow j → ¬ nt.UsedRow k))

end NeighborTbl

open NeighborTbl TransitionSystem

section Counts

variable {nt : NeighborTbl} {n : ℕ}

theorem usedBefore_succ_used (hused : nt.UsedRow n) :
    nt.usedBefore (n + 1) = nt.usedBefore n + 1 := by
  rw [usedBefore, Nat.count_succ, if_pos hused]
  rfl

theorem usedBefore_succ_unused (hunused : ¬ nt.UsedRow n) :
    nt.usedBefore (n + 1) = nt.usedBefore n := by
  rw [usedBefore, Nat.count_succ, if_neg hunused]
  rfl

theorem holesKept_succ_used (hused : nt.UsedRow n) :
    nt.holesKept (n + 1) = nt.holesKept n - 1 := by
  rw [holesKept, if_pos hused]

theorem holesKept_succ_unused (hunused : ¬ nt.UsedRow n) :
    nt.holesKept (n + 1) = nt.holesKept n + 1 := by
  rw [holesKept, if_neg hunused]

theorem usedBefore_mono {m : ℕ} (hmn : m ≤ n) : nt.usedBefore m ≤ nt.usedBefore n :=
  Nat.count_monotone nt.UsedRow hmn

theorem holesKept_le (nt : NeighborTbl) (n : ℕ) :
    nt.holesKept n + nt.usedBefore n ≤ n := by
  induction n with
  | zero => exact Nat.le_refl 0
  | succ n ih =>
    by_cases hused : nt.UsedRow n
    · rw [holesKept_succ_used hused, usedBefore_succ_used hused]
      omega
    · rw [holesKept_succ_unused hused, usedBefore_succ_unused hused]
      omega

theorem lost_mono {m : ℕ} (hmn : m ≤ n) (d : ℕ)
    (hlost : nt.holesKept m + nt.usedBefore m + d ≤ m) :
    nt.holesKept n + nt.usedBefore n + d ≤ n := by
  induction n, hmn using Nat.le_induction with
  | base => exact hlost
  | succ n hmn ih =>
    by_cases hused : nt.UsedRow n
    · rw [holesKept_succ_used hused, usedBefore_succ_used hused]
      omega
    · rw [holesKept_succ_unused hused, usedBefore_succ_unused hused]
      omega

theorem exists_moved_of_lost (hlost : nt.holesKept n + nt.usedBefore n < n) :
    ∃ j, j < n ∧ nt.UsedRow j ∧ nt.usedBefore j < j := by
  induction n with
  | zero => omega
  | succ n ih =>
    by_cases hearlier : nt.holesKept n + nt.usedBefore n < n
    · obtain ⟨j, hj, hmoved⟩ := ih hearlier
      exact ⟨j, Nat.lt_succ_of_lt hj, hmoved⟩
    · by_cases hused : nt.UsedRow n
      · rw [holesKept_succ_used hused, usedBefore_succ_used hused] at hlost
        exact ⟨n, Nat.lt_succ_self n, hused, by omega⟩
      · rw [holesKept_succ_unused hused, usedBefore_succ_unused hused] at hlost
        omega

theorem usedBefore_lt_iff : nt.usedBefore n < n ↔ ∃ i, i < n ∧ ¬ nt.UsedRow i := by
  constructor
  · intro hlt
    by_contra hall
    push Not at hall
    have hcount : nt.usedBefore n = n := Nat.count_iff_forall.mpr hall
    omega
  · rintro ⟨i, hi, hunused⟩
    have hle : nt.usedBefore n ≤ n := Nat.count_le nt.UsedRow
    refine Nat.lt_of_le_of_ne hle fun hcount => ?_
    exact hunused (Nat.count_iff_forall.mp hcount i hi)

theorem holesKept_exact_iff : (∀ n, n < nt.baseNeighborSize → nt.UsedRow n →
        nt.holesKept n + nt.usedBefore n = n) ↔ nt.OneBehindHole := by
  constructor
  · intro hexact k hk j hjk i hij hunused hj hused
    have hshort : nt.usedBefore j < j := usedBefore_lt_iff.mpr ⟨i, hij, hunused⟩
    have hcount := hexact j (by omega) hj
    have hlost : nt.holesKept (j + 1) + nt.usedBefore (j + 1) + 1 ≤ j + 1 := by
      rw [holesKept_succ_used hj, usedBefore_succ_used hj]
      omega
    have hlater := lost_mono hjk 1 hlost
    have hcount' := hexact k hk hused
    omega
  · intro hone n hn hused
    have hle := holesKept_le nt n
    by_contra hne
    have hlost : nt.holesKept n + nt.usedBefore n < n := by omega
    obtain ⟨j, hj, hmoved, hshort⟩ := exists_moved_of_lost hlost
    obtain ⟨i, hi, hunused⟩ := usedBefore_lt_iff.mp hshort
    exact hone n hn j hj i hi hunused hmoved hused

end Counts

/-- When the loop comes to row `i`: the rows from there on are as they were,
and each row before has moved by the holes which were counted at it. -/
structure PackingTo (nt : NeighborTbl) (i : ℕ) (state : PackState) : Prop where
  used : state.used = nt.usedBefore i
  hole : state.hole = nt.holesKept i
  counted : state.nt.baseNeighborUsed = nt.baseNeighborUsed
  rest : ∀ n, i ≤ n → state.nt.baseNeighbor n = nt.baseNeighbor n
  found : ∀ n, n < nt.baseNeighborSize → nt.UsedRow n →
    state.nt.addrToNeighbor (nt.baseNeighbor n).addrRef =
      if n < i then n - nt.holesKept n else n

structure PlacedTo (nt : NeighborTbl) (i : ℕ) (tbl : NeighborTbl) : Prop where
  moved : ∀ n, n < i → nt.UsedRow n →
    tbl.baseNeighbor (nt.usedBefore n) = nt.baseNeighbor n
  free : ∀ n, nt.usedBefore i ≤ n → n < i → ¬ tbl.UsedRow n

section Loop

variable {nt : NeighborTbl} {i : ℕ} {state : PackState}

theorem PackingTo.packRow_eq (hpacking : PackingTo nt i state) :
    packRow state i = if nt.UsedRow i then
        if nt.holesKept i ≠ 0 then
          { nt := state.nt.moveRow i (i - nt.holesKept i)
            used := state.used + 1
            hole := state.hole - 1 }
        else { state with used := state.used + 1 }
      else { state with hole := state.hole + 1 } := by
  unfold packRow
  rw [hpacking.rest i (Nat.le_refl i), hpacking.hole]
  rfl

theorem PackingTo.packRow (hcounted : nt.RowsCounted) (hi : i < nt.baseNeighborSize)
    (hpacking : PackingTo nt i state) :
    PackingTo nt (i + 1) (packRow state i) := by
  rw [hpacking.packRow_eq]
  obtain ⟨hused, hhole, hcount, hrest, hfound⟩ := hpacking
  have hnext : ∀ n, n ≠ i → (if n < i + 1 then n - nt.holesKept n else n) =
        if n < i then n - nt.holesKept n else n := by
    intro n hn
    have hiff : n < i + 1 ↔ n < i := by omega
    simp only [hiff]
  by_cases hrow : nt.UsedRow i
  · rw [if_pos hrow]
    have hne : ∀ n, n < nt.baseNeighborSize → nt.UsedRow n → n ≠ i →
        (nt.baseNeighbor n).addrRef ≠ (nt.baseNeighbor i).addrRef := by
      intro n hn hnused hni heq
      have hn' := hcounted.genuine n hn hnused
      rw [heq, hcounted.genuine i hi hrow] at hn'
      exact hni hn'.symm
    by_cases hholes : nt.holesKept i = 0
    · rw [if_neg (not_not.mpr hholes)]
      refine ⟨?_, ?_, hcount, ?_, ?_⟩
      · rw [usedBefore_succ_used hrow, ← hused]
      · rw [holesKept_succ_used hrow, hhole, hholes]
      · exact fun n hn => hrest n (Nat.le_of_succ_le hn)
      · intro n hn hnused
        rw [hfound n hn hnused]
        by_cases hni : n = i
        · subst hni
          rw [if_neg (Nat.lt_irrefl n), if_pos (Nat.lt_succ_self n), hholes, Nat.sub_zero]
        · exact (hnext n hni).symm
    · rw [if_pos hholes]
      refine ⟨?_, ?_, hcount, ?_, ?_⟩
      · rw [usedBefore_succ_used hrow, ← hused]
      · rw [holesKept_succ_used hrow, ← hhole]
      · intro n hn
        simp only [NeighborTbl.moveRow, NeighborTbl.setRow, NeighborTbl.setNeighbor]
        rw [update_of_ne (by omega), update_of_ne (by omega)]
        exact hrest n (Nat.le_of_succ_le hn)
      · intro n hn hnused
        simp only [NeighborTbl.moveRow, NeighborTbl.setRow,
          NeighborTbl.setNeighbor, hrest i (Nat.le_refl i)]
        by_cases hni : n = i
        · subst hni
          rw [update_self, if_pos (Nat.lt_succ_self n)]
        · rw [update_of_ne (hne n hn hnused hni), hfound n hn hnused, hnext n hni]
  · rw [if_neg hrow]
    refine ⟨?_, ?_, hcount, ?_, ?_⟩
    · rw [usedBefore_succ_unused hrow, ← hused]
    · rw [holesKept_succ_unused hrow, ← hhole]
    · exact fun n hn => hrest n (Nat.le_of_succ_le hn)
    · intro n hn hnused
      have hni : n ≠ i := by
        rintro rfl
        exact hrow hnused
      rw [hfound n hn hnused, hnext n hni]

theorem PlacedTo.packRow (hexact : nt.UsedRow i → nt.holesKept i + nt.usedBefore i = i)
    (hpacking : PackingTo nt i state) (hplaced : PlacedTo nt i state.nt) :
    PlacedTo nt (i + 1) (packRow state i).nt := by
  rw [hpacking.packRow_eq]
  have hrow := hpacking.rest i (Nat.le_refl i)
  obtain ⟨hmoved, hfree⟩ := hplaced
  by_cases hused : nt.UsedRow i
  · have hplace := hexact hused
    rw [if_pos hused]
    by_cases hholes : nt.holesKept i = 0
    · rw [if_neg (not_not.mpr hholes)]
      have hself : nt.usedBefore i = i := by omega
      constructor
      · intro n hn hnused
        by_cases hni : n = i
        · rw [hni, hself]
          exact hrow
        · exact hmoved n (by omega) hnused
      · intro n hle hlt
        rw [usedBefore_succ_used hused] at hle
        omega
    · rw [if_pos hholes, show i - nt.holesKept i = nt.usedBefore i by omega]
      constructor
      · intro n hn hnused
        simp only [NeighborTbl.moveRow, NeighborTbl.setRow, NeighborTbl.setNeighbor]
        by_cases hni : n = i
        · rw [hni, update_of_ne (by omega), update_self]
          exact hrow
        · have hlt : nt.usedBefore n < nt.usedBefore i :=
            Nat.count_strict_mono hnused (by omega)
          rw [update_of_ne (by omega), update_of_ne (by omega)]
          exact hmoved n (by omega) hnused
      · intro n hle hlt
        rw [usedBefore_succ_used hused] at hle
        simp only [UsedRow, NeighborTbl.moveRow, NeighborTbl.setRow,
          NeighborTbl.setNeighbor]
        by_cases hni : n = i
        · rw [hni, update_self]
          exact Bool.false_ne_true
        · rw [update_of_ne hni, update_of_ne (by omega)]
          exact hfree n (by omega) (by omega)
  · rw [if_neg hused]
    constructor
    · intro n hn hnused
      have hni : n ≠ i := by
        rintro rfl
        exact hused hnused
      exact hmoved n (by omega) hnused
    · intro n hle hlt
      rw [usedBefore_succ_unused hused] at hle
      by_cases hni : n = i
      · rw [hni, UsedRow]
        rw [hrow]
        exact hused
      · exact hfree n hle (by omega)

theorem packLoop_spec (invariant : ℕ → PackState → Prop) {rounds : ℕ}
    (hcounted : nt.RowsCounted)
    (hpacking : ∀ i state, invariant i state → PackingTo nt i state)
    (hstep : ∀ i state, i < nt.baseNeighborSize → invariant i state →
      invariant (i + 1) (packRow state i))
    (hrounds : i + rounds = nt.baseNeighborSize)
    (hinvariant : invariant i state) :
    ∃ j, j ≤ nt.baseNeighborSize ∧ invariant j (packLoop rounds i state) ∧
      ∀ n, j ≤ n → n < nt.baseNeighborSize → ¬ nt.UsedRow n := by
  induction rounds generalizing i state with
  | zero =>
    refine ⟨i, Nat.le_of_eq hrounds, hinvariant, ?_⟩
    intro n hi hn
    omega
  | succ rounds ih =>
    rw [packLoop]
    split
    · exact ih (by omega) (hstep i state (by omega) hinvariant)
    · rename_i hall
      refine ⟨i, by omega, hinvariant, ?_⟩
      intro n hi hn hused
      -- The rows in use are all behind the loop.
      obtain ⟨hseen, _, hcount, _, _⟩ := hpacking i state hinvariant
      have hmono : nt.usedBefore i ≤ nt.usedBefore n := usedBefore_mono hi
      have hnext := usedBefore_succ_used hused
      have hend : nt.usedBefore (n + 1) ≤ nt.usedBefore nt.baseNeighborSize :=
        usedBefore_mono hn
      have htotal := hcounted.counted
      omega

theorem packingTo_start (hcounted : nt.RowsCounted) :
    PackingTo nt 0 ⟨nt, 0, 0⟩ := by
  refine ⟨rfl, rfl, rfl, fun n _ => rfl, ?_⟩
  intro n hn hused
  rw [if_neg (Nat.not_lt_zero n)]
  exact hcounted.genuine n hn hused

end Loop

/-- The loop packs a table exactly if no two used rows stand behind an unused
one. -/
theorem packBaseNeighbor_packs_iff (nt : NeighborTbl) (hcounted : nt.RowsCounted) :
    nt.RowsPacked (packBaseNeighbor nt) ↔ nt.OneBehindHole := by
  rw [← holesKept_exact_iff, packBaseNeighbor]
  have hrounds : 0 + nt.baseNeighborSize = nt.baseNeighborSize := Nat.zero_add _
  constructor
  · intro hpacked n hn hused
    obtain ⟨j, _, hpacking, hnone⟩ :=
      packLoop_spec (PackingTo nt) hcounted (fun _ _ hpacking => hpacking)
        (fun _ _ hi hpacking => hpacking.packRow hcounted hi)
        hrounds (packingTo_start hcounted)
    have hjn : n < j := by
      by_contra hle
      exact hnone n (by omega) hn hused
    have hfound := hpacking.found n hn hused
    rw [if_pos hjn, hpacked.found n hn hused] at hfound
    have hle := holesKept_le nt n
    omega
  · intro hexact
    obtain ⟨j, hj, ⟨hpacking, hplaced⟩, hnone⟩ :=
      packLoop_spec (fun i state => PackingTo nt i state ∧ PlacedTo nt i state.nt)
        hcounted (fun _ _ hboth => hboth.1)
        (fun i state hi hboth =>
          ⟨hboth.1.packRow hcounted hi, hboth.2.packRow (hexact i hi) hboth.1⟩)
        hrounds
        ⟨packingTo_start hcounted, fun n hn => absurd hn (Nat.not_lt_zero n),
          fun n _ hn => absurd hn (Nat.not_lt_zero n)⟩
    have hbefore : ∀ n, n < nt.baseNeighborSize → nt.UsedRow n → n < j := by
      intro n hn hused
      by_contra hle
      exact hnone n (by omega) hn hused
    refine ⟨?_, ?_, ?_⟩
    · intro n hn hused
      exact hplaced.moved n (hbefore n hn hused) hused
    · intro n hn hused
      have hcount := hexact n hn hused
      rw [hpacking.found n hn hused, if_pos (hbefore n hn hused)]
      omega
    · intro n hle hn
      by_cases hjn : n < j
      · exact hplaced.free n (Nat.le_trans (usedBefore_mono hj) hle) hjn
      · rw [UsedRow, hpacking.rest n (by omega)]
        exact hnone n (by omega) hn

/-- The first of two rows is deleted, and the second one takes its place. -/
theorem packBaseNeighbor_packs_oneRow : ∃ zg, run NeighborOp.apply (Globals.init .zero)
        [.get 0 true, .get 1 true, .delete 0] = some zg ∧
      zg.neighbor.RowsPacked (packBaseNeighbor zg.neighbor) := by
  have hresult : (run NeighborOp.apply (Globals.init .zero)
          [.get 0 true, .get 1 true, .delete 0]).map
          (fun zg => (decide zg.neighbor.RowsCounted,
            decide zg.neighbor.OneBehindHole)) = some (true, true) := by
    decide +kernel
  obtain ⟨zg, hrun, hobserved⟩ := Option.map_eq_some_iff.mp hresult
  simp only [Prod.mk.injEq, decide_eq_true_eq] at hobserved
  exact ⟨zg, hrun, (packBaseNeighbor_packs_iff zg.neighbor hobserved.1).mpr hobserved.2⟩

/-- The first of three rows is deleted: the second one takes its place, and the
third one stays where it is. -/
theorem not_rowsPacked_threeRows : ∃ zg, run NeighborOp.apply (Globals.init .zero)
        [.get 0 true, .get 1 true, .get 2 true, .delete 0] = some zg ∧
      zg.neighbor.RowsCounted ∧
      ¬ zg.neighbor.RowsPacked (packBaseNeighbor zg.neighbor) := by
  have hresult : (run NeighborOp.apply (Globals.init .zero)
          [.get 0 true, .get 1 true, .get 2 true, .delete 0]).map
          (fun zg => (decide zg.neighbor.RowsCounted,
            decide (2 < zg.neighbor.baseNeighborSize ∧ zg.neighbor.UsedRow 2),
            zg.neighbor.usedBefore 2,
            (packBaseNeighbor zg.neighbor).addrToNeighbor
              (zg.neighbor.baseNeighbor 2).addrRef)) =
        some (true, true, 1, 2) := by
    decide +kernel
  obtain ⟨zg, hrun, hobserved⟩ := Option.map_eq_some_iff.mp hresult
  simp only [Prod.mk.injEq, decide_eq_true_eq] at hobserved
  obtain ⟨hcounted, ⟨hsize, hused⟩, hbefore, hfound⟩ := hobserved
  refine ⟨zg, hrun, hcounted, ?_⟩
  intro hpacked
  have hplace := hpacked.found 2 hsize hused
  rw [hfound, hbefore] at hplace
  contradiction

end Zboss
