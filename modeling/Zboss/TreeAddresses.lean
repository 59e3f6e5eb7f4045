import Zboss.TreeNetwork
import Mathlib.Tactic.LinearCombination

/-!
# Addresses in a tree network

The number of `zb_nwk_daa_calc_cskip` is the size of the block of a router
child, so that the addresses of children are those of the slots in nested
blocks, as long as no router takes more end devices than there are addresses
for them.
-/

namespace Zboss

open TreeAddressing TransitionSystem

section Cskip

variable {cm rm lm : ℕ}

theorem closed_blockSize (hcm : rm ≤ cm) (k : ℕ) :
    ((1 : ℤ) - rm) * blockSize rm (cm - rm) k = 1 + cm - rm - cm * (rm : ℤ) ^ k := by
  induction k with
  | zero =>
    rw [blockSize]
    push_cast
    ring
  | succ k ih =>
    rw [blockSize, Nat.cast_add, Nat.cast_add, Nat.cast_mul, Nat.cast_sub hcm]
    push_cast
    linear_combination (rm : ℤ) * ih

theorem pow_le_blockSize (l k : ℕ) : rm ^ k ≤ blockSize rm l k := by
  induction k with
  | zero => exact Nat.le_refl _
  | succ k ih =>
    rw [Nat.pow_succ, Nat.mul_comm]
    exact (Nat.mul_le_mul_left rm ih).trans blockSize_le_succ.le

theorem blockSize_one (hcm : 1 ≤ cm) (k : ℕ) : blockSize 1 (cm - 1) k = 1 + cm * k := by
  induction k with
  | zero => rfl
  | succ k ih =>
    rw [blockSize, ih, Nat.mul_succ]
    omega

theorem cskipPower_eq (hrm : 1 ≤ rm) {n : ℕ} (hfit : rm ^ n < 2 ^ 16) :
    cskipPower rm n = rm ^ n := by
  induction n with
  | zero => rfl
  | succ n ih =>
    have hle : rm ^ n ≤ rm ^ (n + 1) := Nat.pow_le_pow_right hrm (Nat.le_succ n)
    rw [cskipPower, ih (Nat.lt_of_le_of_lt hle hfit), ← Nat.pow_succ,
      Nat.mod_eq_of_lt hfit]

theorem zbNwkDaaCalcCskip_eq {nib : TreeNib} {depth : ℕ} (hrm : 1 ≤ nib.maxRouters)
    (hcm : nib.maxRouters ≤ nib.maxChildren) (hdepth : depth < nib.maxDepth)
    (hfit : blockSize nib.maxRouters (nib.maxChildren - nib.maxRouters)
      (nib.maxDepth - depth - 1) < 2 ^ 16) :
    zbNwkDaaCalcCskip nib depth =
      blockSize nib.maxRouters (nib.maxChildren - nib.maxRouters)
        (nib.maxDepth - depth - 1) := by
  unfold zbNwkDaaCalcCskip
  dsimp only
  split
  · rename_i hone
    rw [hone] at hfit hcm ⊢
    have hsize := blockSize_one hcm (nib.maxDepth - depth - 1)
    have hcast : (1 + (nib.maxChildren : ℤ) * ((nib.maxDepth : ℤ) - depth - 1)) =
        (blockSize 1 (nib.maxChildren - 1) (nib.maxDepth - depth - 1) : ℕ) := by
      have hlevels : ((nib.maxDepth - depth - 1 : ℕ) : ℤ) =
          (nib.maxDepth : ℤ) - depth - 1 := by
        omega
      rw [hsize, Nat.cast_add, Nat.cast_mul, hlevels, Nat.cast_one]
    rw [hcast]
    omega
  · rename_i hmany
    have hpower := cskipPower_eq hrm (Nat.lt_of_le_of_lt (pow_le_blockSize _ _) hfit)
    have hden : (1 : ℤ) - nib.maxRouters ≠ 0 := by omega
    rw [hpower, Nat.cast_pow, ← closed_blockSize hcm, Int.mul_tdiv_cancel_left _ hden]
    omega

end Cskip

structure TreeNib.KeepsPlace (nib nib' : TreeNib) : Prop where
  maxChildren : nib'.maxChildren = nib.maxChildren
  maxRouters : nib'.maxRouters = nib.maxRouters
  maxDepth : nib'.maxDepth = nib.maxDepth
  depth : nib'.depth = nib.depth
  cskip : nib'.cskip = nib.cskip
  macShortAddress : nib'.macShortAddress = nib.macShortAddress
  routers : nib.routerChildNum ≤ nib'.routerChildNum
  eds : nib.edChildNum ≤ nib'.edChildNum

def TreeNib.nextSlot (nib : TreeNib) (isRouter : Bool) : Slot :=
  if isRouter then .inner nib.routerChildNum else .leaf nib.edChildNum

def TreeNib.Counted (nib : TreeNib) : Slot → Prop
  | .inner i => i < nib.routerChildNum
  | .leaf j => j < nib.edChildNum

structure TreeNib.HasPlace (nib : TreeNib) (isRouter : Bool) : Prop where
  room : nib.edChildNum + nib.routerChildNum < nib.maxChildren
  depth : nib.depth < nib.maxDepth
  routers : isRouter = true → nib.routerChildNum < nib.maxRouters

def TreeNib.childAddress (nib : TreeNib) (isRouter : Bool) : ℕ :=
  if isRouter then nib.routerAddress else nib.edAddress

theorem TreeNib.KeepsPlace.refl (nib : TreeNib) : nib.KeepsPlace nib :=
  ⟨rfl, rfl, rfl, rfl, rfl, rfl, Nat.le_refl _, Nat.le_refl _⟩

theorem TreeNib.KeepsPlace.counted
    {nib nib' : TreeNib} (hkeeps : nib.KeepsPlace nib') {slot : Slot}
    (hcounted : nib.Counted slot) : nib'.Counted slot := by
  cases slot with
  | inner i => exact Nat.lt_of_lt_of_le hcounted hkeeps.routers
  | leaf j => exact Nat.lt_of_lt_of_le hcounted hkeeps.eds

theorem TreeNib.not_counted_nextSlot (nib : TreeNib) (isRouter : Bool) :
    ¬ nib.Counted (nib.nextSlot isRouter) := by
  unfold TreeNib.nextSlot
  split
  · exact Nat.lt_irrefl _
  · exact Nat.lt_irrefl _

theorem TreeNib.admitChild_spec (nib : TreeNib) (capability : MacCapability) :
    nib.KeepsPlace (nib.admitChild capability).1 ∧
      ((nib.admitChild capability).2 = none ∨ nib.HasPlace capability.isRouter ∧
        (nib.admitChild capability).1.Counted (nib.nextSlot capability.isRouter) ∧
        (nib.admitChild capability).2 = some (if capability.allocateAddress then
              nib.childAddress capability.isRouter
            else noShortAddress)) := by
  unfold TreeNib.admitChild
  split
  · rename_i hroom
    split
    · rename_i hrouter
      rw [TreeNib.nextSlot, TreeNib.childAddress, if_pos hrouter, if_pos hrouter]
      split
      · rename_i hfree
        refine ⟨⟨rfl, rfl, rfl, rfl, rfl, rfl, Nat.le_succ _, Nat.le_refl _⟩,
          Or.inr ⟨⟨hroom.1, hroom.2, fun _ => hfree⟩, Nat.lt_succ_self _, rfl⟩⟩
      · exact ⟨.refl nib, Or.inl rfl⟩
    · rename_i hed
      rw [TreeNib.nextSlot, TreeNib.childAddress, if_neg hed, if_neg hed]
      refine ⟨⟨rfl, rfl, rfl, rfl, rfl, rfl, Nat.le_refl _, Nat.le_succ _⟩,
        Or.inr ⟨⟨hroom.1, hroom.2, fun hrouter => absurd hrouter hed⟩,
          Nat.lt_succ_self _, rfl⟩⟩
  · exact ⟨.refl nib, Or.inl rfl⟩

theorem zbNwkAcceptChild_spec
    (nib : TreeNib) (capability : MacCapability) (registered : Bool) :
    nib.KeepsPlace (zbNwkAcceptChild nib none capability registered).1 ∧
      ((zbNwkAcceptChild nib none capability registered).2 = none ∨
        registered = true ∧ nib.HasPlace capability.isRouter ∧
        (zbNwkAcceptChild nib none capability registered).1.Counted
          (nib.nextSlot capability.isRouter) ∧
        (zbNwkAcceptChild nib none capability registered).2 = some
            (if capability.allocateAddress then nib.childAddress capability.isRouter
            else noShortAddress)) := by
  obtain ⟨hkeeps, haddress⟩ := nib.admitChild_spec capability
  unfold zbNwkAcceptChild
  dsimp only
  have hresult : ∀ nib' : TreeNib, nib.KeepsPlace nib' →
      (nib'.Counted (nib.nextSlot capability.isRouter) ↔
        (nib.admitChild capability).1.Counted (nib.nextSlot capability.isRouter)) →
      nib.KeepsPlace nib' ∧
        ((if registered then (nib.admitChild capability).2 else none) = none ∨
          registered = true ∧ nib.HasPlace capability.isRouter ∧
          nib'.Counted (nib.nextSlot capability.isRouter) ∧
          (if registered then (nib.admitChild capability).2 else none) = some
              (if capability.allocateAddress then nib.childAddress capability.isRouter
              else noShortAddress)) := by
    intro nib' hkeeps' hcounted
    refine ⟨hkeeps', ?_⟩
    cases registered with
    | false => exact Or.inl rfl
    | true =>
      rw [if_pos rfl, hcounted]
      rcases haddress with hnone | hsome
      · exact Or.inl hnone
      · exact Or.inr ⟨rfl, hsome⟩
  split
  · refine hresult _ ?_ ?_
    · obtain ⟨h1, h2, h3, h4, h5, h6, h7, h8⟩ := hkeeps
      exact ⟨h1, h2, h3, h4, h5, h6, h7, h8⟩
    · cases nib.nextSlot capability.isRouter <;> exact Iff.rfl
  · exact hresult _ hkeeps Iff.rfl

theorem JoinCall.apply_eq_some {net next : TreeNetwork} {call : JoinCall}
    (happly : call.apply net = some next) :
    ∃ dev nib', net[call.parent]? = some dev ∧ dev.isRouter = true ∧
      dev.nib.KeepsPlace nib' ∧
      (next = net.set call.parent { dev with nib := nib' } ∨
        call.registered = true ∧ call.capability.allocateAddress = true ∧
        dev.nib.HasPlace call.capability.isRouter ∧
        nib'.Counted (dev.nib.nextSlot call.capability.isRouter) ∧
        next = net.set call.parent { dev with nib := nib' } ++
          [{ nib :=
              joinedNib dev.nib (dev.nib.childAddress call.capability.isRouter)
             isRouter := call.capability.isRouter
             parent := some call.parent }]) := by
  unfold JoinCall.apply at happly
  obtain ⟨dev, hdev, hjoin⟩ := Option.bind_eq_some_iff.mp happly
  split at hjoin
  · rename_i hrouter
    obtain ⟨hkeeps, haddress⟩ := zbNwkAcceptChild_spec dev.nib
      call.capability call.registered
    refine ⟨dev, _, hdev, hrouter, hkeeps, ?_⟩
    dsimp only at hjoin
    rcases haddress with hnone | ⟨hregistered, hplace, hcounted, hsome⟩
    · rw [hnone] at hjoin
      exact Or.inl (Option.some.inj hjoin).symm
    · rw [hsome] at hjoin
      dsimp only at hjoin
      split at hjoin
      · rename_i hallocate
        exact Or.inr ⟨hregistered, hallocate, hplace, hcounted,
          (Option.some.inj hjoin).symm⟩
      · exact Or.inl (Option.some.inj hjoin).symm
  · contradiction

end Zboss
