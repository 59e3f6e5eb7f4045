import Zboss.StackGlobals

/-!
# The base neighbor table

`zb_nwk_neighbor_get`, `zb_nwk_neighbor_delete` and the expiry of frame
counters in `nwk_neighbor.c`, for a router or coordinator.  Operations return
`none` where the source asserts, or where it writes a row outside the part of
the array which belongs to the base table.
-/

namespace Zboss

open Option

namespace NeighborTbl

def setRow (nt : NeighborTbl) (n : ℕ) (ent : NeighborTblEnt) : NeighborTbl :=
  { nt with baseNeighbor := Function.update nt.baseNeighbor n ent }

def setNeighbor (nt : NeighborTbl) (ref n : ℕ) : NeighborTbl :=
  { nt with addrToNeighbor := Function.update nt.addrToNeighbor ref n }

end NeighborTbl

def newNeighborEnt (addrRef depth : ℕ) : NeighborTblEnt :=
  { NeighborTblEnt.zero with
    used := true
    addrRef := addrRef
    relationship := .noneOfTheAbove
    permitJoining := 2
    depth := depth }

/-- Returns the row number in place of a pointer to the row; `none` if the new
row would lie over the extended table. -/
def zbNwkNeighborGet (zg : Globals) (addr : ℕ) (createIfAbsent : Bool) :
    Option (Globals × Except RetError ℕ) := do
  let nt := zg.neighbor
  if nt.addrToNeighbor addr = noNeighbor then
    if createIfAbsent then
      if nt.baseNeighborUsed + 1 = nt.baseNeighborSize then some (zg, .error .noMemory)
      else
        let locked ← zbAddressLock zg.addr addr
        let n := nt.baseNeighborUsed
        if n < nt.baseNeighborSize then
          some
            ({ zg with
                addr := locked
                neighbor :=
                  { (nt.setNeighbor addr n).setRow n
                      (newNeighborEnt addr zg.nib.depth) with
                    baseNeighborUsed := n + 1 } },
              .ok n)
        else none
    else some (zg, .error .notFound)
  else some (zg, .ok (nt.addrToNeighbor addr))

def zbNwkNeighborDelete (zg : Globals) (ieeeRef : ℕ) :
    Globals × Except RetError Unit :=
  let nt := zg.neighbor
  let n := nt.addrToNeighbor ieeeRef
  if n ≠ noNeighbor then
    ({ zg with
        neighbor :=
          (nt.setNeighbor ieeeRef noNeighbor).setRow n
            { nt.baseNeighbor n with used := false } },
      .ok ())
  else (zg, .error .notFound)

def forgetDevice (zg : Globals) (addrRef : ℕ) : Globals :=
  let zg := (zbNwkNeighborDelete zg addrRef).1
  { zg with addr := zbAddressDelete zg.addr addrRef }

/-- The own entry goes in `zb_nwk_do_leave` for a device which does not come back. -/
def forgetOwnAddress (zg : Globals) (networkAddress : ℕ) : Globals :=
  match zbAddressByShort zg.addr networkAddress false false with
  | some (addr, .ok ref) => forgetDevice { zg with addr := addr } ref
  | some (addr, .error _) => { zg with addr := addr }
  | none => zg

/-- The branch of `zb_apsme_update_device_indication` for a device which has
left. -/
def zbApsmeUpdateDeviceLeft (zg : Globals) (deviceShortAddress : ℕ)
    (deviceAddress : IeeeAddr) : Option Globals := do
  let (addr, ret) ←
    zbAddressByShort zg.addr deviceShortAddress false false
  match ret with
  | .ok addrRef => some (forgetDevice { zg with addr := addr } addrRef)
  | .error _ => do
      let (addr, ret) ← zbAddressByIeee addr deviceAddress false false
      match ret with
      | .ok addrRef => some (forgetDevice { zg with addr := addr } addrRef)
      | .error _ => some { zg with addr := addr }

theorem zbNwkNeighborGet_eq_some
    {zg zg' : Globals} {addr : ℕ} {create : Bool} {ret : Except RetError ℕ}
    (hget : zbNwkNeighborGet zg addr create = some (zg', ret)) :
    (zg' = zg ∧ ((zg.neighbor.addrToNeighbor addr ≠ noNeighbor ∧
            ret = .ok (zg.neighbor.addrToNeighbor addr)) ∨
          (zg.neighbor.addrToNeighbor addr = noNeighbor ∧ ∃ err, ret = .error err))) ∨
      (zg.neighbor.addrToNeighbor addr = noNeighbor ∧ create = true ∧
        zg.neighbor.baseNeighborUsed < zg.neighbor.baseNeighborSize ∧
        zg.neighbor.baseNeighborUsed + 1 ≠ zg.neighbor.baseNeighborSize ∧
        ret = .ok zg.neighbor.baseNeighborUsed ∧
        ∃ locked, zbAddressLock zg.addr addr = some locked ∧ zg' =
            { zg with
              addr := locked
              neighbor :=
                { (zg.neighbor.setNeighbor addr zg.neighbor.baseNeighborUsed).setRow
                    zg.neighbor.baseNeighborUsed
                    (newNeighborEnt addr zg.nib.depth) with
                  baseNeighborUsed := zg.neighbor.baseNeighborUsed + 1 } }) := by
  unfold zbNwkNeighborGet at hget
  dsimp only at hget
  split at hget
  · rename_i habsent
    split at hget
    · rename_i hcreate
      split at hget
      · simp only [some.injEq, Prod.mk.injEq] at hget
        exact Or.inl ⟨hget.1.symm, Or.inr ⟨habsent, .noMemory, hget.2.symm⟩⟩
      · rename_i hfull
        obtain ⟨locked, hlock, hrest⟩ := bind_eq_some_iff.mp hget
        split at hrest
        · rename_i hroom
          simp only [some.injEq, Prod.mk.injEq] at hrest
          exact Or.inr ⟨habsent, hcreate, hroom, hfull, hrest.2.symm, locked,
            hlock, hrest.1.symm⟩
        · contradiction
    · simp only [some.injEq, Prod.mk.injEq] at hget
      exact Or.inl ⟨hget.1.symm, Or.inr ⟨habsent, .notFound, hget.2.symm⟩⟩
  · rename_i hpresent
    simp only [some.injEq, Prod.mk.injEq] at hget
    exact Or.inl ⟨hget.1.symm, Or.inl ⟨hpresent, hget.2.symm⟩⟩

end Zboss
