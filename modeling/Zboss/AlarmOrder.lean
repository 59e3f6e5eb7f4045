import Zboss.AlarmQueue
import Mathlib.Data.List.TakeWhile

/-!
# The order of alarms

Times wrap around, and are compared as long as they stay within half of their
range.  Seen from the first of them they are numbers, and the place which
`zb_schedule_alarm` finds for a new entry keeps the queue in order with one
exception.
-/

namespace Zboss

open List

/-- The time `a` is `b` or after it, by less than half of the range. -/
def NotBefore (a b : UInt16) : Prop := (a - b).toNat < 2 ^ 15

instance decidableNotBefore (a b : UInt16) : Decidable (NotBefore a b) :=
  Nat.decLt _ _

/-- One of the times is the first one, and the others are less than half of
the range after it. -/
def TimesClose (times : List UInt16) : Prop :=
  ∃ first ∈ times, ∀ time ∈ times, NotBefore time first

instance decidableTimesClose (times : List UInt16) :
    Decidable (TimesClose times) :=
  @List.decidableBEx _ _
    (fun _ => @List.decidableBAll _ _ (fun _ => decidableNotBefore _ _) times)
    times

theorem notBefore_iff
    {first a b : UInt16} (ha : NotBefore a first) (hb : NotBefore b first) :
    NotBefore a b ↔ (b - first).toNat ≤ (a - first).toNat := by
  unfold NotBefore at *
  simp only [UInt16.toNat_sub] at *
  have := a.toNat_lt
  have := b.toNat_lt
  have := first.toNat_lt
  omega

/-- The comparison of the code misses a distance of exactly
`ZB_HALF_MAX_TIME_VAL`. -/
theorem zbTimeGe_iff
    {first a b : UInt16} (ha : NotBefore a first) (hb : NotBefore b first) :
    zbTimeGe a b ↔ (b - first).toNat ≤ (a - first).toNat ∧
        (a - first).toNat ≠ (b - first).toNat + zbHalfMaxTimeVal.toNat := by
  have hhalf : zbHalfMaxTimeVal.toNat = 32767 := by decide
  rw [zbTimeGe, decide_eq_true_iff, UInt16.lt_iff_toNat_lt, hhalf]
  unfold NotBefore at *
  simp only [UInt16.toNat_sub] at *
  have := a.toNat_lt
  have := b.toNat_lt
  have := first.toNat_lt
  omega

def insertByTime (runTime : ℕ → UInt16) (nent : ℕ) : List ℕ → List ℕ
  | [] => [nent]
  | head :: rest =>
      let passes ent := zbTimeGe (runTime nent) (runTime ent)
      if zbTimeGe (runTime head) (runTime nent) then nent :: head :: rest
      else if (head :: rest).takeWhile passes = [] then head :: rest ++ [nent]
      else (head :: rest).takeWhile passes ++ nent :: (head :: rest).dropWhile passes

theorem insertByTime_perm (runTime : ℕ → UInt16) (nent : ℕ) (nodes : List ℕ) :
    (insertByTime runTime nent nodes).Perm (nent :: nodes) := by
  cases nodes with
  | nil => exact List.Perm.refl _
  | cons head rest =>
    rw [insertByTime]
    split
    · exact List.Perm.refl _
    · split
      · exact perm_append_singleton nent (head :: rest)
      · refine perm_middle.trans ?_
        rw [takeWhile_append_dropWhile]

def Sorted (runTime : ℕ → UInt16) (nodes : List ℕ) : Prop :=
  nodes.Pairwise fun x y => NotBefore (runTime y) (runTime x)

theorem sorted_iff {runTime : ℕ → UInt16} {nodes : List ℕ} {first : UInt16}
    (hclose : ∀ ent ∈ nodes, NotBefore (runTime ent) first) :
    Sorted runTime nodes ↔ nodes.Pairwise fun x y =>
        (runTime x - first).toNat ≤ (runTime y - first).toNat := by
  apply List.Pairwise.iff_of_mem
  intro x y hx hy
  exact notBefore_iff (hclose y hy) (hclose x hx)

theorem zbHalfMaxTimeVal_toNat : zbHalfMaxTimeVal.toNat = 2 ^ 15 - 1 := by
  decide

/-- The new entry lies `ZB_HALF_MAX_TIME_VAL` before the first one. -/
def Overlooked (runTime : ℕ → UInt16) (nent : ℕ) (nodes : List ℕ) : Prop :=
  ∃ head ∈ nodes.head?, runTime head - runTime nent = zbHalfMaxTimeVal

theorem sub_eq_half_iff
    {first a b : UInt16} (ha : NotBefore a first) (hb : NotBefore b first) :
    a - b = zbHalfMaxTimeVal ↔
      (a - first).toNat = (b - first).toNat + zbHalfMaxTimeVal.toNat := by
  rw [← UInt16.toNat_inj, zbHalfMaxTimeVal_toNat]
  unfold NotBefore at *
  simp only [UInt16.toNat_sub] at *
  have := a.toNat_lt
  have := b.toNat_lt
  have := first.toNat_lt
  omega

theorem pairwise_insert_later
    {key : ℕ → ℕ} {passes : ℕ → Bool} {nent head : ℕ} {rest : List ℕ}
    (hsorted : (head :: rest).Pairwise fun x y => key x ≤ key y)
    (hbound : ∀ ent ∈ head :: rest, key ent < 2 ^ 15)
    (hnent : key nent < 2 ^ 15)
    (hpasses : ∀ ent ∈ head :: rest,
      passes ent ↔ key ent ≤ key nent ∧ key nent ≠ key ent + (2 ^ 15 - 1))
    (hhead : key head < key nent) :
    (if (head :: rest).takeWhile passes = [] then head :: rest ++ [nent]
      else (head :: rest).takeWhile passes ++
        nent :: (head :: rest).dropWhile passes).Pairwise
      fun x y => key x ≤ key y := by
  have hfirst : ∀ ent ∈ head :: rest, key head ≤ key ent := by
    intro ent hent
    rcases mem_cons.mp hent with rfl | hrest
    · exact Nat.le_refl _
    · exact (pairwise_cons.mp hsorted).1 ent hrest
  have hsplit := hsorted
  rw [← takeWhile_append_dropWhile (p := passes) (l := head :: rest),
    pairwise_append] at hsplit
  obtain ⟨hearlier, hlater, hcross⟩ := hsplit
  split
  · rename_i hnil
    have hnot : ¬ passes head := by
      intro hpass
      rw [takeWhile_cons, if_pos hpass] at hnil
      exact cons_ne_nil _ _ hnil
    rw [hpasses head mem_cons_self] at hnot
    rw [pairwise_append]
    refine ⟨hsorted, pairwise_singleton _ _, ?_⟩
    intro x hx y hy
    obtain rfl := mem_singleton.mp hy
    have := hbound x hx
    omega
  · rename_i hcons
    have hpass : passes head := by
      by_contra hnot
      apply hcons
      rw [takeWhile_cons, if_neg hnot]
    rw [hpasses head mem_cons_self] at hpass
    have hbehind : ∀ ent ∈ (head :: rest).dropWhile passes,
        key nent ≤ key ent := by
      cases hdrop : (head :: rest).dropWhile passes with
      | nil => simp
      | cons e others =>
        have he : e ∈ head :: rest := (dropWhile_suffix passes).subset (by simp [hdrop])
        have hstop : ¬ passes e := by
          have := List.head?_dropWhile_not passes (head :: rest)
          rw [hdrop] at this
          simpa using this
        rw [hpasses e he] at hstop
        have hle : key nent ≤ key e := by
          have := hfirst e he
          have := hbound e he
          omega
        rw [hdrop] at hlater
        intro ent hent
        rcases mem_cons.mp hent with rfl | hothers
        · exact hle
        · exact hle.trans ((pairwise_cons.mp hlater).1 ent hothers)
    rw [pairwise_append]
    refine ⟨hearlier, pairwise_cons.mpr ⟨hbehind, hlater⟩, ?_⟩
    intro x hx y hy
    have hxmem : x ∈ head :: rest := (List.takeWhile_prefix passes).subset hx
    rcases mem_cons.mp hy with rfl | hy
    · exact ((hpasses x hxmem).mp (mem_takeWhile_imp hx)).1
    · exact hcross x hx y hy

theorem sorted_insertByTime_iff
    {runTime : ℕ → UInt16} {nent : ℕ} {nodes : List ℕ} {first : UInt16}
    (hsorted : Sorted runTime nodes)
    (hnent : NotBefore (runTime nent) first)
    (hclose : ∀ ent ∈ nodes, NotBefore (runTime ent) first) :
    Sorted runTime (insertByTime runTime nent nodes) ↔
      ¬ Overlooked runTime nent nodes := by
  cases nodes with
  | nil => simp [insertByTime, Sorted, Overlooked]
  | cons head rest =>
    have hclose' : ∀ ent ∈ insertByTime runTime nent (head :: rest),
        NotBefore (runTime ent) first := by
      intro ent hent
      rw [(insertByTime_perm runTime nent (head :: rest)).mem_iff] at hent
      rcases mem_cons.mp hent with rfl | hold
      · exact hnent
      · exact hclose ent hold
    have hheadclose := hclose head mem_cons_self
    rw [sorted_iff hclose] at hsorted
    rw [sorted_iff hclose']
    have hover : Overlooked runTime nent (head :: rest) ↔ (runTime head - first).toNat =
          (runTime nent - first).toNat + zbHalfMaxTimeVal.toNat := by
      rw [← sub_eq_half_iff hheadclose hnent]
      simp [Overlooked]
    have hge := zbTimeGe_iff hheadclose hnent
    rw [hover]
    rw [insertByTime]
    by_cases hfront : zbTimeGe (runTime head) (runTime nent)
    · rw [if_pos hfront]
      refine iff_of_true (pairwise_cons.mpr ⟨?_, hsorted⟩) ?_
      · intro ent hent
        have hle := (hge.mp hfront).1
        rcases mem_cons.mp hent with rfl | hrest
        · exact hle
        · exact hle.trans ((pairwise_cons.mp hsorted).1 ent hrest)
      · exact (hge.mp hfront).2
    · rw [if_neg hfront]
      rw [hge] at hfront
      have hpasses : ∀ ent ∈ head :: rest, zbTimeGe (runTime nent) (runTime ent) ↔
            (runTime ent - first).toNat ≤ (runTime nent - first).toNat ∧
              (runTime nent - first).toNat ≠
                (runTime ent - first).toNat + (2 ^ 15 - 1) := by
        intro ent hent
        rw [zbTimeGe_iff hnent (hclose ent hent), zbHalfMaxTimeVal_toNat]
      by_cases heq : (runTime head - first).toNat =
          (runTime nent - first).toNat + zbHalfMaxTimeVal.toNat
      · -- the search stops at once, and the entry goes to the end
        refine iff_of_false ?_ (not_not_intro heq)
        rw [zbHalfMaxTimeVal_toNat] at heq
        have hstop : ¬ zbTimeGe (runTime nent) (runTime head) := by
          rw [hpasses head mem_cons_self]
          omega
        rw [if_pos (by rw [takeWhile_cons, if_neg hstop]), cons_append, pairwise_cons]
        intro hpairwise
        have := hpairwise.1 nent (by simp)
        omega
      · refine iff_of_true ?_ heq
        refine @pairwise_insert_later
          (fun ent => (runTime ent - first).toNat) _ nent head rest hsorted
          hclose hnent hpasses ?_
        omega

end Zboss
