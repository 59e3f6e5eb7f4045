import Zboss.AddressTranslation
import Mathlib.Data.List.Perm.Subperm

/-!
# The sorted index of short addresses

Insertion into `short_sorted` and deletion from it, read as operations on the
list of the live references. `Indexes g members` says that the index lists
exactly the references in `members`, each once and by ascending short address.
-/

namespace Zboss

open Function PackedArray

def sortedRefs (g : AddrGlobals) : List ℕ :=
  live g.shortSorted g.nSortedElements

structure Indexes (g : AddrGlobals) (members : ℕ → Prop) : Prop where
  nodup : (sortedRefs g).Nodup
  mem_iff : ∀ ref, ref ∈ sortedRefs g ↔ members ref
  sorted : (sortedRefs g).Pairwise (fun p q => (g.addrMap p).addr ≤ (g.addrMap q).addr)

def staleByte (g : AddrGlobals) : ℕ :=
  shortSortedBytes g g.nSortedElements

def lastSorted (g : AddrGlobals) : ℕ :=
  g.shortSorted (g.nSortedElements - 1)

/-- Deleting `ref` moves a stale copy of `ref` into the part which is still to
be scanned, so that the copy is counted as well. -/
def CountsStaleCopy (g : AddrGlobals) (ref : ℕ) : Prop :=
  ref ∈ sortedRefs g ∧ lastSorted g ≠ ref ∧ staleByte g = ref

variable {g g' : AddrGlobals} {members : ℕ → Prop} {ref n shortAddr : ℕ} {sorted : ℕ → ℕ}

theorem Indexes.congr (hindex : Indexes g members)
    (hsorted : g'.shortSorted = g.shortSorted)
    (hn : g'.nSortedElements = g.nSortedElements)
    (haddr : ∀ ref, members ref → (g'.addrMap ref).addr = (g.addrMap ref).addr) :
    Indexes g' members := by
  have hlist : sortedRefs g' = sortedRefs g := by simp [sortedRefs, hsorted, hn]
  constructor
  · rw [hlist]
    exact hindex.nodup
  · rw [hlist]
    exact hindex.mem_iff
  · rw [hlist]
    apply hindex.sorted.imp_of_mem
    intro p q hp hq hle
    rw [haddr p ((hindex.mem_iff p).mp hp), haddr q ((hindex.mem_iff q).mp hq)]
    exact hle

theorem Indexes.setEntry {ent : AddressMap} (hindex : Indexes g members)
    (haddr : members ref → ent.addr = (g.addrMap ref).addr) :
    Indexes (g.setEntry ref ent) members := by
  have hsorted : (g.setEntry ref ent).shortSorted = g.shortSorted := rfl
  have hn : (g.setEntry ref ent).nSortedElements = g.nSortedElements := rfl
  apply hindex.congr hsorted hn
  intro other hother
  by_cases heq : other = ref
  · subst heq
    simpa [AddrGlobals.setEntry] using haddr hother
  · simp [AddrGlobals.setEntry, update_of_ne heq]

theorem Indexes.of_members_iff {members members' : ℕ → Prop} (hindex : Indexes g members)
    (hiff : ∀ ref, members' ref ↔ members ref) :
    Indexes g members' :=
  ⟨hindex.nodup, fun ref => (hindex.mem_iff ref).trans (hiff ref).symm, hindex.sorted⟩

theorem Indexes.length_le (hindex : Indexes g members)
    (hbound : ∀ ref, members ref → ref < ieeeAddrTableSize) :
    g.nSortedElements ≤ ieeeAddrTableSize := by
  have hsubset : sortedRefs g ⊆ List.range ieeeAddrTableSize := by
    intro ref href
    exact List.mem_range.mpr (hbound ref ((hindex.mem_iff ref).mp href))
  have hlength := (List.Nodup.subperm hindex.nodup hsubset).length_le
  simpa [sortedRefs] using hlength

theorem delShortSortedLoop_skip {ref n rounds skipped i dec : ℕ}
    (hne : ∀ k, i ≤ k → k < i + skipped → sorted k ≠ ref) :
    delShortSortedLoop ref n (skipped + rounds) i sorted dec =
      delShortSortedLoop ref n rounds (i + skipped) sorted dec := by
  induction skipped generalizing i with
  | zero => simp
  | succ skipped ih =>
    have hhead : sorted i ≠ ref := hne i (Nat.le_refl i) (by omega)
    have htail := @ih (i + 1) (fun k hk hk' => hne k (by omega) (by omega))
    rw [show skipped + 1 + rounds = skipped + rounds + 1 by omega,
      delShortSortedLoop, if_neg hhead, htail,
      show i + 1 + skipped = i + (skipped + 1) by omega]

theorem delShortSortedLoop_of_not_mem (hmem : ref ∉ live sorted n) :
    delShortSortedLoop ref n n 0 sorted 0 = (sorted, 0) := by
  have hne : ∀ k, 0 ≤ k → k < 0 + n → sorted k ≠ ref := by
    intro k _ hk heq
    exact hmem (mem_live.mpr ⟨k, by omega, heq⟩)
  have hskip : delShortSortedLoop ref n (n + 0) 0 sorted 0 =
        delShortSortedLoop ref n 0 (0 + n) sorted 0 :=
    delShortSortedLoop_skip hne
  exact hskip

/-- The reference stands at index `p` only.  Behind the last index the loop
has nothing left to scan; otherwise it scans the moved tail, whose last value
is the byte from past the end. -/
theorem delShortSortedLoop_of_index {n p : ℕ}
    (hnodup : (live sorted n).Nodup) (hp : p < n) :
    delShortSortedLoop (sorted p) n n 0 sorted 0 = if p = n - 1 then (sorted, 1)
      else (closeGap sorted p n, if sorted n = sorted p then 2 else 1) := by
  have hunique : ∀ k, k < n → k ≠ p → sorted k ≠ sorted p := by
    intro k hk hkp heq
    exact hkp (nodup_live_iff.mp hnodup k p hk hp heq)
  obtain ⟨rest, rfl⟩ : ∃ rest, n = p + (rest + 1) := ⟨n - p - 1, by omega⟩
  rw [delShortSortedLoop_skip (fun k _ hk => hunique k (by omega) (by omega)),
    Nat.zero_add, delShortSortedLoop, if_pos rfl]
  cases rest with
  | zero =>
    rw [if_neg (by simp), if_pos (by omega)]
    rfl
  | succ rest =>
    rw [if_pos (by omega), if_neg (by omega)]
    have hmoved : ∀ k, p + 1 ≤ k → k < p + 1 + rest →
        closeGap sorted p (p + (rest + 1 + 1)) k ≠ sorted p := by
      intro k hk hk'
      rw [closeGap, if_pos (by omega)]
      exact hunique (k + 1) (by omega) (by omega)
    have hlast : closeGap sorted p (p + (rest + 1 + 1)) (p + 1 + rest) =
          sorted (p + (rest + 1 + 1)) := by
      rw [closeGap, if_pos (by omega)]
      congr 1
      omega
    rw [delShortSortedLoop_skip hmoved, delShortSortedLoop, hlast]
    by_cases hstale : sorted (p + (rest + 1 + 1)) = sorted p
    · rw [if_pos hstale, if_pos hstale, if_neg (by omega)]
      rfl
    · rw [if_neg hstale, if_neg hstale]
      rfl

theorem live_shortSortedBytes (hn : n ≤ ieeeAddrTableSize) :
    live (shortSortedBytes g) n = live g.shortSorted n := by
  apply live_congr
  intro i hi
  exact update_of_ne (by omega) _ _

section

variable (hn : g.nSortedElements ≤ ieeeAddrTableSize)

include hn

theorem delShortSorted_of_not_mem (hmem : ref ∉ sortedRefs g) :
    sortedRefs (delShortSorted g ref) = sortedRefs g ∧
      (delShortSorted g ref).nSortedElements = g.nSortedElements := by
  have hmem' : ref ∉ live (shortSortedBytes g) g.nSortedElements := by
    rwa [live_shortSortedBytes hn]
  have hloop := delShortSortedLoop_of_not_mem hmem'
  simp only [sortedRefs, delShortSorted, hloop, Nat.sub_zero, and_true]
  exact live_shortSortedBytes hn

theorem delShortSorted_of_mem (hnodup : (sortedRefs g).Nodup) (hmem : ref ∈ sortedRefs g)
    (hclean : ¬ CountsStaleCopy g ref) :
    ∃ p, p < g.nSortedElements ∧ g.shortSorted p = ref ∧
      (delShortSorted g ref).nSortedElements = g.nSortedElements - 1 ∧
      (delShortSorted g ref).shortSorted =
        if p = g.nSortedElements - 1 then shortSortedBytes g
        else closeGap (shortSortedBytes g) p g.nSortedElements := by
  obtain ⟨p, hp, hpref⟩ := mem_live.mp hmem
  have hvalue : shortSortedBytes g p = ref := by
    rw [← hpref]
    exact update_of_ne (by omega) _ _
  have hnodup' : (live (shortSortedBytes g) g.nSortedElements).Nodup := by
    rwa [live_shortSortedBytes hn]
  have hloop := delShortSortedLoop_of_index hnodup' hp
  rw [hvalue] at hloop
  refine ⟨p, hp, hpref, ?_⟩
  simp only [delShortSorted, hloop]
  by_cases hend : p = g.nSortedElements - 1
  · rw [if_pos hend, if_pos hend]
    exact ⟨rfl, rfl⟩
  · have hlast : lastSorted g ≠ ref := by
      intro heq
      apply hend
      have hunique := nodup_live_iff.mp hnodup p (g.nSortedElements - 1)
      exact hunique hp (by omega) (hpref.trans heq.symm)
    have hstale : shortSortedBytes g g.nSortedElements ≠ ref :=
      fun heq => hclean ⟨hmem, hlast, heq⟩
    rw [if_neg hend, if_neg hend, if_neg hstale]
    exact ⟨rfl, rfl⟩

theorem delShortSorted_of_countsStaleCopy (hnodup : (sortedRefs g).Nodup)
    (hcounts : CountsStaleCopy g ref) :
    ∃ p, p + 1 < g.nSortedElements ∧ g.shortSorted p = ref ∧
      (delShortSorted g ref).nSortedElements = g.nSortedElements - 2 ∧
      (delShortSorted g ref).shortSorted =
        closeGap (shortSortedBytes g) p g.nSortedElements := by
  obtain ⟨hmem, hlast, hstale⟩ := hcounts
  obtain ⟨p, hp, hpref⟩ := mem_live.mp hmem
  have hvalue : shortSortedBytes g p = ref := by
    rw [← hpref]
    exact update_of_ne (by omega) _ _
  have hnodup' : (live (shortSortedBytes g) g.nSortedElements).Nodup := by
    rwa [live_shortSortedBytes hn]
  have hloop := delShortSortedLoop_of_index hnodup' hp
  have hend : p ≠ g.nSortedElements - 1 := by
    intro hend
    rw [hend] at hpref
    exact hlast hpref
  rw [hvalue, if_neg hend] at hloop
  simp only [delShortSorted, hloop]
  rw [staleByte] at hstale
  rw [if_pos hstale]
  exact ⟨p, by omega, hpref, rfl, rfl⟩

theorem sortedRefs_delShortSorted (hnodup : (sortedRefs g).Nodup)
    (hclean : ¬ CountsStaleCopy g ref) :
    sortedRefs (delShortSorted g ref) = (sortedRefs g).erase ref := by
  by_cases hmem : ref ∈ sortedRefs g
  · obtain ⟨p, hp, hpref, hlength, hmoved⟩ :=
      delShortSorted_of_mem hn hnodup hmem hclean
    have herase : (sortedRefs g).erase ref =
          (live (shortSortedBytes g) g.nSortedElements).eraseIdx p := by
      rw [live_shortSortedBytes hn, ← hpref]
      exact erase_live_eq_eraseIdx hnodup hp
    rw [herase, sortedRefs, hlength, hmoved]
    by_cases hend : p = g.nSortedElements - 1
    · rw [if_pos hend, live_pred_eq_dropLast, hend,
        List.dropLast_eq_eraseIdx (i := g.nSortedElements - 1) (by simp; omega)]
    · rw [if_neg hend]
      exact live_closeGap hp
  · rw [List.erase_of_not_mem hmem]
    exact (delShortSorted_of_not_mem hn hmem).1

theorem CountsStaleCopy.of_zbAddressDelete {ref other : ℕ} (hnodup : (sortedRefs g).Nodup)
    (hmem : ref ∈ sortedRefs g)
    (hclean : ¬ CountsStaleCopy g ref)
    (hne : other ≠ ref)
    (hcounts : CountsStaleCopy (zbAddressDelete g ref) other) :
    lastSorted g ≠ ref ∧ CountsStaleCopy g other := by
  obtain ⟨hother, hlast, hstale⟩ := hcounts
  obtain ⟨p, hp, hpref, hlength, hmoved⟩ := delShortSorted_of_mem hn hnodup hmem hclean
  have hlength' : (zbAddressDelete g ref).nSortedElements =
      g.nSortedElements - 1 := hlength
  have hmoved' : (zbAddressDelete g ref).shortSorted = _ := hmoved
  have hother' : other ∈ sortedRefs g := by
    change other ∈ sortedRefs (delShortSorted g ref) at hother
    rw [sortedRefs_delShortSorted hn hnodup hclean] at hother
    exact List.mem_of_mem_erase hother
  have hsize : g.nSortedElements - 1 ≠ ieeeAddrTableSize := by omega
  rw [staleByte, hlength', shortSortedBytes, update_of_ne hsize, hmoved'] at hstale
  rw [lastSorted, hlength', hmoved'] at hlast
  by_cases hend : p = g.nSortedElements - 1
  · rw [if_pos hend, shortSortedBytes, update_of_ne hsize, ← hend, hpref] at hstale
    exact absurd hstale.symm hne
  · rw [if_neg hend, closeGap, if_pos (by omega), Nat.sub_add_cancel (by omega)] at hstale
    rw [if_neg hend, closeGap, if_pos (by omega),
      show g.nSortedElements - 1 - 1 + 1 = g.nSortedElements - 1 by omega,
      shortSortedBytes, update_of_ne hsize] at hlast
    refine ⟨?_, hother', hlast, hstale⟩
    intro heq
    have hunique := nodup_live_iff.mp hnodup p (g.nSortedElements - 1)
    exact hend (hunique hp (by omega) (hpref.trans heq.symm))

end

@[simp] theorem delShortSorted_addrMap (g : AddrGlobals) (ref : ℕ) :
    (delShortSorted g ref).addrMap = g.addrMap := rfl

theorem Indexes.delShortSorted (hindex : Indexes g members)
    (hn : g.nSortedElements ≤ ieeeAddrTableSize)
    (hclean : ¬ CountsStaleCopy g ref) :
    Indexes (delShortSorted g ref) (fun other => members other ∧ other ≠ ref) := by
  have hlist := sortedRefs_delShortSorted hn hindex.nodup hclean
  constructor
  · rw [hlist]
    exact hindex.nodup.erase ref
  · intro other
    rw [hlist, hindex.nodup.mem_erase_iff, hindex.mem_iff, and_comm]
  · rw [hlist]
    exact hindex.sorted.sublist List.erase_sublist

/-! ## Insertion -/

theorem Indexes.sortedAddr_le {i j : ℕ} (hindex : Indexes g members)
    (hij : i ≤ j) (hj : j < g.nSortedElements) :
    sortedAddr g i ≤ sortedAddr g j := by
  rcases Nat.eq_or_lt_of_le hij with rfl | hlt
  · exact Nat.le_refl _
  · have hsorted := List.pairwise_iff_getElem.mp hindex.sorted i j
      (by simp [sortedRefs]; omega) (by simpa [sortedRefs] using hj) hlt
    simpa [sortedRefs, sortedAddr] using hsorted

theorem addShortSortedIndex_boundary (hindex : Indexes g members) (shortAddr : ℕ) :
    Bisection.Boundary (fun i => decide (sortedAddr g i ≤ shortAddr))
        g.nSortedElements (addShortSortedIndex g shortAddr) ∨
      (g.nSortedElements = 1 ∧ addShortSortedIndex g shortAddr = 0 ∧
        sortedAddr g 0 = shortAddr) := by
  unfold addShortSortedIndex
  by_cases hone : 1 < g.nSortedElements
  · have hboundary : Bisection.Boundary (fun i => decide (sortedAddr g i ≤ shortAddr))
          g.nSortedElements
          (Bisection.bisect (fun i => decide (sortedAddr g i ≤ shortAddr))
            g.nSortedElements 0 g.nSortedElements) := by
      apply Bisection.bisect_boundary
      intro i j hij hj hright
      have hle := hindex.sortedAddr_le hij hj
      simp only [decide_eq_true_eq] at hright ⊢
      omega
    left
    simp only [if_pos hone]
    rw [if_neg]
    · exact hboundary
    · rintro ⟨_, hlt, hlt'⟩
      have hafter := hboundary.after _ (Nat.le_refl _) hlt
      simp only [decide_eq_false_iff_not] at hafter
      omega
  · simp only [if_neg hone]
    by_cases hzero : g.nSortedElements = 0
    · left
      rw [if_neg (by omega)]
      exact ⟨Nat.zero_le _, fun j hj => by omega, fun j _ hj => by omega⟩
    have hn : g.nSortedElements = 1 := by omega
    by_cases hlt : sortedAddr g 0 < shortAddr
    · left
      rw [if_pos ⟨by omega, by omega, hlt⟩]
      refine ⟨by omega, fun j hj => ?_, fun j hj hj' => by omega⟩
      obtain rfl : j = 0 := by omega
      simpa using hlt.le
    · rw [if_neg (fun h => hlt h.2.2)]
      by_cases heq : sortedAddr g 0 = shortAddr
      · exact Or.inr ⟨hn, rfl, heq⟩
      · left
        refine ⟨by omega, fun j hj => by omega, fun j _ hj => ?_⟩
        obtain rfl : j = 0 := by omega
        simp only [decide_eq_false_iff_not]
        omega

theorem addShortSortedIndex_spec (hindex : Indexes g members) (shortAddr : ℕ) :
    addShortSortedIndex g shortAddr ≤ g.nSortedElements ∧
      (∀ k, k < addShortSortedIndex g shortAddr → sortedAddr g k ≤ shortAddr) ∧
      (∀ k, addShortSortedIndex g shortAddr ≤ k → k < g.nSortedElements →
        shortAddr ≤ sortedAddr g k) := by
  rcases addShortSortedIndex_boundary hindex shortAddr with
    hboundary | ⟨hn, hzero, heq⟩
  · refine ⟨hboundary.le, ?_, ?_⟩
    · intro k hk
      simpa using hboundary.before k hk
    · intro k hk hk'
      have hafter := hboundary.after k hk hk'
      simp only [decide_eq_false_iff_not] at hafter
      omega
  · rw [hzero]
    refine ⟨by omega, fun k hk => by omega, ?_⟩
    intro k _ hk
    obtain rfl : k = 0 := by omega
    exact heq.ge

theorem addShortSorted_eq_some (hadd : addShortSorted g ref shortAddr = some g') :
    g.nSortedElements < ieeeAddrTableSize ∧ g' =
        { g with
          shortSorted := g'.shortSorted
          nSortedElements := g'.nSortedElements } := by
  unfold addShortSorted at hadd
  by_cases hroom : g.nSortedElements < ieeeAddrTableSize
  · rw [if_pos hroom, Option.some.injEq] at hadd
    exact ⟨hroom, by rw [← hadd]⟩
  · rw [if_neg hroom] at hadd
    contradiction

theorem sortedRefs_addShortSorted
    (hle : addShortSortedIndex g shortAddr ≤ g.nSortedElements)
    (hadd : addShortSorted g ref shortAddr = some g') :
    sortedRefs g' = (sortedRefs g).insertIdx (addShortSortedIndex g shortAddr) ref := by
  unfold addShortSorted at hadd
  by_cases hroom : g.nSortedElements < ieeeAddrTableSize
  swap
  · rw [if_neg hroom] at hadd
    contradiction
  rw [if_pos hroom, Option.some.injEq] at hadd
  subst hadd
  rw [sortedRefs, sortedRefs, ← live_update_openGap hle]
  dsimp only
  split
  · rfl
  · -- At the end nothing has to move.
    apply live_congr
    intro k hk
    by_cases hkl : k = addShortSortedIndex g shortAddr
    · rw [hkl, update_self, update_self]
    · rw [update_of_ne hkl, update_of_ne hkl, openGap, if_neg (by omega)]

theorem Indexes.addShortSorted (hindex : Indexes g members) (hfresh : ¬ members ref)
    (haddr : (g.addrMap ref).addr = shortAddr)
    (hadd : addShortSorted g ref shortAddr = some g') :
    Indexes g' (fun other => members other ∨ other = ref) := by
  obtain ⟨hle, hbefore, hafter⟩ := addShortSortedIndex_spec hindex shortAddr
  have hlist := sortedRefs_addShortSorted hle hadd
  have hperm : (sortedRefs g').Perm (ref :: sortedRefs g) := by
    rw [hlist]
    exact List.perm_insertIdx ref _ (by simpa [sortedRefs] using hle)
  have hmap : g'.addrMap = g.addrMap := by rw [(addShortSorted_eq_some hadd).2]
  constructor
  · rw [hperm.nodup_iff, List.nodup_cons]
    exact ⟨fun hmem => hfresh ((hindex.mem_iff ref).mp hmem), hindex.nodup⟩
  · intro other
    rw [hperm.mem_iff, List.mem_cons, hindex.mem_iff, or_comm]
  · rw [hlist, hmap]
    apply pairwise_insertIdx hindex.sorted hle
    · intro k hk
      rw [haddr]
      exact hbefore k hk
    · intro k hk hk'
      rw [haddr]
      exact hafter k hk hk'

theorem shortSearchIndex_spec (hindex : Indexes g members) (shortAddr : ℕ) :
    (∀ k, k < shortSearchIndex g shortAddr → sortedAddr g k < shortAddr) ∧
      (1 < g.nSortedElements → ∀ k, shortSearchIndex g shortAddr ≤ k →
        k < g.nSortedElements → shortAddr ≤ sortedAddr g k) := by
  unfold shortSearchIndex
  by_cases hone : 1 < g.nSortedElements
  · rw [if_pos hone]
    have hboundary : Bisection.Boundary (fun i => decide (sortedAddr g i < shortAddr))
          g.nSortedElements
          (Bisection.bisect (fun i => decide (sortedAddr g i < shortAddr))
            g.nSortedElements 0 g.nSortedElements) := by
      apply Bisection.bisect_boundary
      intro p q hpq hq hright
      have hle := hindex.sortedAddr_le hpq hq
      simp only [decide_eq_true_eq] at hright ⊢
      omega
    constructor
    · intro k hk
      simpa using hboundary.before k hk
    · intro _ k hk hk'
      have hafter := hboundary.after k hk hk'
      simp only [decide_eq_false_iff_not] at hafter
      omega
  · rw [if_neg hone]
    exact ⟨fun k hk => absurd hk (Nat.not_lt_zero k), fun h => absurd h hone⟩

theorem shortSearch_eq_none (hindex : Indexes g members)
    (hnone : shortSearch g shortAddr = none)
    (hmember : members ref) :
    (g.addrMap ref).addr ≠ shortAddr := by
  intro haddr
  obtain ⟨i, hi, href⟩ := mem_live.mp ((hindex.mem_iff ref).mpr hmember)
  have hvalue : sortedAddr g i = shortAddr := by rw [sortedAddr, href, haddr]
  obtain ⟨hbefore, hafter⟩ := shortSearchIndex_spec hindex shortAddr
  have hle : shortSearchIndex g shortAddr ≤ i := by
    by_contra hlt
    have hsmall := hbefore i (by omega)
    omega
  have hge : shortAddr ≤ sortedAddr g (shortSearchIndex g shortAddr) := by
    by_cases hone : 1 < g.nSortedElements
    · exact hafter hone _ (Nat.le_refl _) (by omega)
    · rw [show shortSearchIndex g shortAddr = i by omega]
      exact hvalue.ge
  have hle' := hindex.sortedAddr_le hle hi
  simp only [shortSearch] at hnone
  rw [if_pos ⟨by omega, by omega, by omega⟩] at hnone
  contradiction

theorem shortSearch_eq_some (hsome : shortSearch g shortAddr = some ref) :
    ref ∈ sortedRefs g ∧ (g.addrMap ref).addr = shortAddr := by
  simp only [shortSearch] at hsome
  split at hsome
  · rename_i hfound
    rw [Option.some.injEq] at hsome
    constructor
    · exact mem_live.mpr ⟨_, hfound.2.1, hsome⟩
    · rw [hfound.2.2, sortedAddr, hsome]
  · contradiction

theorem shortSearch_eq_find (hindex : Indexes g members) (shortAddr : ℕ) :
    shortSearch g shortAddr =
      (sortedRefs g).find? (fun ref => (g.addrMap ref).addr == shortAddr) := by
  cases hsearch : shortSearch g shortAddr with
  | none =>
    symm
    rw [List.find?_eq_none]
    intro ref href
    rw [beq_iff_eq]
    exact shortSearch_eq_none hindex hsearch ((hindex.mem_iff ref).mp href)
  | some ref =>
    symm
    simp only [shortSearch] at hsearch
    split at hsearch
    swap
    · contradiction
    rename_i hfound
    rw [Option.some.injEq] at hsearch
    rw [List.find?_eq_some_iff_getElem]
    refine ⟨?_, shortSearchIndex g shortAddr, ?_, ?_, ?_⟩
    · rw [beq_iff_eq, ← hsearch]
      exact hfound.2.2.symm
    · simpa [sortedRefs] using hfound.2.1
    · simpa [sortedRefs] using hsearch
    · intro k hk
      have hlt := (shortSearchIndex_spec hindex shortAddr).1 k hk
      simpa [sortedRefs, sortedAddr] using Nat.ne_of_lt hlt

end Zboss
