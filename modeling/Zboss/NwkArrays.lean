import Zboss.ActiveRoutes
import Zboss.SlotTable

/-!
# Arrays with a counter

The macros `NWK_ARRAY_GET_ENT`, `NWK_ARRAY_PUT_ENT` and `NWK_ARRAY_FIND_ENT` of
`nwk_internal.h` on an array of the network layer and the counter beside it.
-/

namespace Zboss

open Function SlotTable

structure NwkArray (size : ℕ) (α : Type) where
  used : ℕ → Bool
  ents : ℕ → α
  cnt : UInt8

namespace NwkArray

variable {size : ℕ} {α : Type}

def zeroed (ent : α) : NwkArray size α := ⟨fun _ => false, fun _ => ent, 0⟩

def findEnt (array : NwkArray size α) (condition : α → Bool) : Option ℕ :=
  nwkArrayFindEnt size array.used fun i => condition (array.ents i)

def freeEnt (array : NwkArray size α) : Option ℕ :=
  nwkArrayGetEnt size array.used

def takeEnt (array : NwkArray size α) (i : ℕ) (ent : α) : NwkArray size α where
  used := update array.used i true
  ents := update array.ents i ent
  cnt := array.cnt + 1

def putEnt (array : NwkArray size α) (i : ℕ) : NwkArray size α :=
  { array with
    used := update array.used i false
    cnt := array.cnt - 1 }

def setEnt (array : NwkArray size α) (i : ℕ) (ent : α) : NwkArray size α :=
  { array with ents := update array.ents i ent }

def live (array : NwkArray size α) : Finset ℕ := inUse size array.used

def Exact (array : NwkArray size α) : Prop :=
  array.cnt.toNat = array.live.card

def holding (array : NwkArray size α) (condition : α → Bool) : ℕ :=
  (inUse size fun i => array.used i && condition (array.ents i)).card

variable {array : NwkArray size α} {i : ℕ} {ent : α}

theorem exact_zeroed (ent : α) : (zeroed ent : NwkArray size α).Exact :=
  (card_inUse_eq_zero.mpr fun _ _ => rfl).symm

theorem findEnt_eq_some {condition : α → Bool} (hfind : array.findEnt condition = some i) :
    i < size ∧ array.used i = true ∧ condition (array.ents i) = true :=
  nwkArrayFindEnt_eq_some hfind

theorem findEnt_eq_none {condition : α → Bool} :
    array.findEnt condition = none ↔ ∀ i, i < size → array.used i = true →
        condition (array.ents i) = false := by
  rw [findEnt, nwkArrayFindEnt, List.find?_range_eq_none]
  refine forall₂_congr fun i _ => ?_
  rw [Bool.not_eq_true', Bool.and_eq_false_imp]

theorem freeEnt_eq_some (hfree : array.freeEnt = some i) :
    i < size ∧ array.used i = false :=
  nwkArrayGetEnt_eq_some hfree

theorem freeEnt_eq_none : array.freeEnt = none ↔ array.live.card = size := by
  have hnone : array.freeEnt = none ↔ ∀ i, i < size → ¬ array.used i = false := by
    rw [freeEnt, nwkArrayGetEnt, List.find?_range_eq_none]
    refine forall₂_congr fun i _ => ?_
    rw [Bool.not_eq_true', Bool.not_eq_false', Bool.not_eq_false]
  have hle := card_inUse_le size array.used
  rw [hnone]
  constructor
  · intro hfull
    refine hle.antisymm (Nat.le_of_not_gt fun hroom => ?_)
    obtain ⟨i, hi, hfree⟩ := card_inUse_lt_iff.mp hroom
    exact hfull i hi hfree
  · intro hcard i hi hfree
    exact (card_inUse_lt_iff.mpr ⟨i, hi, hfree⟩).ne hcard

theorem live_putEnt : (array.putEnt i).live = array.live.erase i := inUse_release

theorem Exact.takeEnt (hexact : array.Exact) (hsize : size < 256)
    (hfree : array.freeEnt = some i) : (array.takeEnt i ent).Exact := by
  obtain ⟨hi, hunused⟩ := freeEnt_eq_some hfree
  have hcard : (array.takeEnt i ent).live.card = array.live.card + 1 :=
    card_inUse_take hi hunused
  have hle : (array.takeEnt i ent).live.card ≤ size := card_inUse_le size _
  rw [Exact] at hexact ⊢
  have hcnt : (array.takeEnt i ent).cnt = array.cnt + 1 := rfl
  rw [hcnt, hcard, UInt8.toNat_add, hexact]
  have hone : UInt8.toNat 1 = 1 := rfl
  rw [hone]
  omega

theorem Exact.putEnt (hexact : array.Exact) (hi : i < size) (hused : array.used i = true) :
    (array.putEnt i).Exact := by
  have hcard : (array.putEnt i).live.card + 1 = array.live.card :=
    card_inUse_release hi hused
  have hlt := array.cnt.toNat_lt
  rw [Exact] at hexact ⊢
  have hcnt : (array.putEnt i).cnt = array.cnt - 1 := rfl
  have hone : UInt8.toNat 1 = 1 := rfl
  rw [hcnt, UInt8.toNat_sub, hone]
  omega

theorem holding_change {next : NwkArray size α} {condition : α → Bool} (hi : i < size)
    (hused : ∀ j, j ≠ i → next.used j = array.used j)
    (hents : ∀ j, j ≠ i → next.ents j = array.ents j) :
    next.holding condition + (array.used i && condition (array.ents i)).toNat =
      array.holding condition + (next.used i && condition (next.ents i)).toNat := by
  have hupdate : (fun j => next.used j && condition (next.ents j)) =
      update (fun j => array.used j && condition (array.ents j)) i
        (next.used i && condition (next.ents i)) := by
    funext j
    by_cases hj : j = i
    · rw [hj, update_self]
    · rw [update_of_ne hj, hused j hj, hents j hj]
  rw [holding, hupdate]
  exact card_inUse_update hi _

theorem holding_takeEnt {condition : α → Bool} (hfree : array.freeEnt = some i) :
    (array.takeEnt i ent).holding condition =
      array.holding condition + (condition ent).toNat := by
  obtain ⟨hi, hunused⟩ := freeEnt_eq_some hfree
  have hchange : (array.takeEnt i ent).holding condition +
      (array.used i && condition (array.ents i)).toNat = _ :=
    holding_change hi (fun j hj => update_of_ne hj ..) (fun j hj => update_of_ne hj ..)
  simpa [hunused, takeEnt] using hchange

theorem holding_putEnt
    {condition : α → Bool} (hi : i < size) (hused : array.used i = true) :
    (array.putEnt i).holding condition + (condition (array.ents i)).toNat =
      array.holding condition := by
  have hchange : (array.putEnt i).holding condition +
      (array.used i && condition (array.ents i)).toNat = _ :=
    holding_change hi (fun j hj => update_of_ne hj ..) (fun _ _ => rfl)
  simpa [hused, putEnt] using hchange

theorem holding_congr {next : NwkArray size α} {condition : α → Bool}
    (hused : next.used = array.used)
    (hents : ∀ j, condition (next.ents j) = condition (array.ents j)) :
    next.holding condition = array.holding condition := by
  unfold holding
  simp only [hused, hents]

structure Evolves (array next : NwkArray size α) : Prop where
  exact : array.Exact → next.Exact
  live : next.live ⊆ array.live

theorem Evolves.refl (array : NwkArray size α) : Evolves array array :=
  ⟨id, Finset.Subset.refl _⟩

theorem Evolves.trans {array next last : NwkArray size α}
    (hfirst : Evolves array next) (hsecond : Evolves next last) :
    Evolves array last :=
  ⟨hsecond.exact ∘ hfirst.exact, hsecond.live.trans hfirst.live⟩

theorem evolves_setEnt (array : NwkArray size α) (i : ℕ) (ent : α) :
    Evolves array (array.setEnt i ent) :=
  ⟨id, Finset.Subset.refl _⟩

theorem evolves_putEnt (hi : i < size) (hused : array.used i = true) :
    Evolves array (array.putEnt i) := by
  refine ⟨fun hexact => hexact.putEnt hi hused, ?_⟩
  rw [live_putEnt]
  exact Finset.erase_subset _ _

theorem Exact.exists_freeEnt (hexact : array.Exact) (hroom : array.cnt.toNat < size) :
    ∃ i, array.freeEnt = some i := by
  cases hfree : array.freeEnt with
  | some i => exact ⟨i, rfl⟩
  | none =>
    have hfull := freeEnt_eq_none.mp hfree
    rw [Exact] at hexact
    omega

end NwkArray

end Zboss
