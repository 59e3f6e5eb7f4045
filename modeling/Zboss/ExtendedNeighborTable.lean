import Zboss.NeighborTable
import Zboss.TransitionSystem

/-!
# The extended neighbor table

During a discovery the table of the devices heard takes the place of the last
rows of the base table (`zb_nwk_exneighbor_start`).  At its end the devices of
the own network are moved to the base table (`zb_nwk_exneighbor_stop`).  The
two tables share memory, so that rows behind those in use hold the remains of
the extended table afterwards; they are a parameter.
-/

namespace Zboss

open TransitionSystem

/-- `sizeof(zb_neighbor_tbl_ent_t)` -/
def neighborTblEntSize : ℕ := 13

/-- `sizeof(zb_ext_neighbor_tbl_ent_t)` -/
def extNeighborTblEntSize : ℕ := 14

def roundTo4 (a : ℕ) : ℕ := (a + 3) / 4 * 4

structure PackState where
  nt : NeighborTbl
  used : ℕ
  hole : ℕ

def NeighborTbl.moveRow (nt : NeighborTbl) (i n : ℕ) : NeighborTbl :=
  let ent := nt.baseNeighbor i
  ((nt.setRow n ent).setNeighbor ent.addrRef n).setRow i { ent with used := false }

def packRow (state : PackState) (i : ℕ) : PackState :=
  if (state.nt.baseNeighbor i).used then
    if state.hole ≠ 0 then
      { nt := state.nt.moveRow i (i - state.hole)
        used := state.used + 1
        hole := state.hole - 1 }
    else { state with used := state.used + 1 }
  else { state with hole := state.hole + 1 }

/-- The loop from row `i` on: it ends after as many used rows as were ever
added. -/
def packLoop : ℕ → ℕ → PackState → PackState
  | 0, _, state => state
  | rounds + 1, i, state =>
      if state.used < state.nt.baseNeighborUsed then
        packLoop rounds (i + 1) (packRow state i)
      else state

def packBaseNeighbor (nt : NeighborTbl) : NeighborTbl :=
  (packLoop nt.baseNeighborSize 0 ⟨nt, 0, 0⟩).nt

def cutRows (nt : NeighborTbl) : ℕ :=
  let cut := nt.baseNeighborSize / 2
  if nt.baseNeighborUsed > nt.baseNeighborSize - cut then
    nt.baseNeighborSize - nt.baseNeighborUsed
  else cut

/-- `none` if the offset of the extended table does not fit into its byte, so
that the table is laid over rows in use, or if the table has no place. -/
def zbNwkExneighborStart (zg : Globals) : Option Globals :=
  let nt := zg.neighbor
  if nt.extNeighborSize ≠ 0 then some zg
  else
    let nt := if nt.baseNeighborUsed ≠ 0 then packBaseNeighbor nt else nt
    let cut := cutRows nt
    let size := nt.baseNeighborSize - cut
    let bytes := size * neighborTblEntSize
    let off := UInt8.ofNat (roundTo4 bytes)
    let cutBytes := UInt8.ofNat (cut * neighborTblEntSize) - (off - UInt8.ofNat bytes)
    let extSize := cutBytes.toNat / extNeighborTblEntSize
    if off.toNat ≠ roundTo4 bytes then none
    else if extSize = 0 then none
    else
      some
        { zg with
          neighbor :=
            { nt with
              baseNeighborSize := size
              extNeighborSize := extSize } }

structure BeaconInfo where
  lqi : UInt8
  depth : ℕ
  permitJoining : ℕ
  deviceType : DeviceType

def allocNewExtneiboard (zg : Globals) (panidRef shortAddr : ℕ) :
    Globals × Except RetError ℕ :=
  let nt := zg.neighbor
  if nt.extNeighborUsed = nt.extNeighborSize then (zg, .error .noMemory)
  else
    ({ zg with
        neighbor :=
          { nt with
            extNeighbor :=
              Function.update nt.extNeighbor nt.extNeighborUsed
                { ExtNeighborTblEnt.zero with
                  shortAddr := shortAddr
                  panidRef := panidRef }
            extNeighborUsed := nt.extNeighborUsed + 1 } },
      .ok nt.extNeighborUsed)

def zbNwkExneighborByShort (zg : Globals) (panidRef shortAddr : ℕ) :
    Globals × Except RetError ℕ :=
  let nt := zg.neighbor
  match (List.range nt.extNeighborUsed).find? (fun i =>
      (nt.extNeighbor i).shortAddr == shortAddr &&
        (nt.extNeighbor i).panidRef == panidRef) with
  | some i => (zg, .ok i)
  | none => allocNewExtneiboard zg panidRef shortAddr

def Globals.setExtNeighbor (zg : Globals) (i : ℕ) (ent : ExtNeighborTblEnt) :
    Globals :=
  { zg with
    neighbor :=
      { zg.neighbor with
        extNeighbor := Function.update zg.neighbor.extNeighbor i ent } }

def zbNwkExneighborByIeee (zg : Globals) (panidRef : ℕ) (longAddr : IeeeAddr) :
    Option (Globals × Except RetError ℕ) := do
  let (addr, compressed) ← zbIeeeAddrCompress zg.addr longAddr
  let zg := { zg with addr := addr }
  let nt := zg.neighbor
  match (List.range nt.extNeighborUsed).reverse.find? (fun i =>
      (nt.extNeighbor i).panidRef == panidRef &&
        (nt.extNeighbor i).longAddr == compressed) with
  | some i => some (zg, .ok i)
  | none =>
      match allocNewExtneiboard zg panidRef unknownShort with
      | (zg, .ok i) => do
          let (addr, compressed) ← zbIeeeAddrCompress zg.addr longAddr
          let ent := zg.neighbor.extNeighbor i
          some (Globals.setExtNeighbor { zg with addr := addr } i
              { ent with longAddr := compressed },
              .ok i)
      | (zg, .error err) => some (zg, .error err)

def fillExtNeighbor (zg : Globals) (ret : Except RetError ℕ) (panidRef : ℕ)
    (info : BeaconInfo) : Globals :=
  match ret with
  | .ok i =>
      zg.setExtNeighbor i
        { zg.neighbor.extNeighbor i with
          lqi := info.lqi
          panidRef := panidRef
          depth := info.depth
          permitJoining := info.permitJoining
          deviceType := info.deviceType }
  | .error _ => zg

def extNeighborRef (g : AddrGlobals) (ext : ExtNeighborTblEnt) :
    Option (AddrGlobals × Except RetError ℕ) :=
  if ext.shortAddr ≠ unknownShort then
    if ext.longAddr ≠ .zero then
      zbAddressUpdate g (zbIeeeAddrDecompress g ext.longAddr) ext.shortAddr
        false
    else zbAddressByShort g ext.shortAddr true false
  else zbAddressByIeee g (zbIeeeAddrDecompress g ext.longAddr) true false

def movedNeighborEnt (addrRef : ℕ) (ext : ExtNeighborTblEnt) :
    NeighborTblEnt :=
  { NeighborTblEnt.zero with
    deviceType := ext.deviceType
    rxOnWhenIdle := decide (ext.deviceType ≠ .endDevice)
    depth := ext.depth
    permitJoining := ext.permitJoining
    relationship := .noneOfTheAbove
    used := true
    addrRef := addrRef
    lqi := ext.lqi }

def moveToBase (nt : NeighborTbl) (addrRef : ℕ) (ext : ExtNeighborTblEnt) :
    Option NeighborTbl :=
  let n := nt.addrToNeighbor addrRef
  if n ≠ noNeighbor then
    let ent := nt.baseNeighbor n
    if ent.used then
      some (nt.setRow n
          { ent with
            deviceType :=
              if ent.deviceType = .none then ext.deviceType
              else ent.deviceType
            addrRef := addrRef
            lqi := ext.lqi })
    else none
  else if nt.baseNeighborUsed < nt.baseNeighborSize then
    some
      { (nt.setNeighbor addrRef nt.baseNeighborUsed).setRow nt.baseNeighborUsed
          (movedNeighborEnt addrRef ext) with
        baseNeighborUsed := nt.baseNeighborUsed + 1 }
  else some nt

def moveExtNeighbor (zg : Globals) (myPanidRef : ℕ) (ext : ExtNeighborTblEnt) :
    Option Globals :=
  if ext.panidRef = myPanidRef then do
    let (addr, ret) ← extNeighborRef zg.addr ext
    match ret with
    | .ok addrRef => do
        let nt ← moveToBase zg.neighbor addrRef ext
        some { zg with addr := addr, neighbor := nt }
    | .error _ => some { zg with addr := addr }
  else some zg

/-- The memory of an entry which has been moved is given to the base table:
returns the number of bytes left over. -/
def giveToBase (zg : Globals) (freeSize : ℕ) : Option (Globals × ℕ) :=
  let nt := zg.neighbor
  let free := freeSize + extNeighborTblEntSize
  let size := nt.baseNeighborSize + free / neighborTblEntSize
  if size ≤ neighborTableSize then
    some ({ zg with neighbor := { nt with baseNeighborSize := size } },
        free % neighborTblEntSize)
  else none

def extNeighbors (nt : NeighborTbl) : List ExtNeighborTblEnt :=
  (List.range nt.extNeighborUsed).map nt.extNeighbor

/-- The body of the loop of `zb_nwk_exneighbor_stop`, with the left-over bytes
in `state.2`. -/
def exneighborStopRow (myPanidRef : ℕ) (state : Globals × ℕ)
    (ext : ExtNeighborTblEnt) : Option (Globals × ℕ) :=
  (moveExtNeighbor state.1 myPanidRef ext).bind fun zg => giveToBase zg state.2

def restoreBase (before nt : NeighborTbl) (residue : ℕ → NeighborTblEnt) :
    NeighborTbl :=
  { nt with
    baseNeighbor := fun n =>
      if n < nt.baseNeighborUsed ∨ n < before.baseNeighborSize then nt.baseNeighbor n
      else residue n
    baseNeighborSize := neighborTableSize
    extNeighborUsed := 0
    extNeighborSize := 0 }

/-- `myPanidRef` stands for the reference of the own extended PAN id. -/
def zbNwkExneighborStop (zg : Globals) (myPanidRef : ℕ)
    (residue : ℕ → NeighborTblEnt) : Option Globals := do
  let moved ←
    if zg.joined then
      (run (exneighborStopRow myPanidRef) (zg, 0) (extNeighbors zg.neighbor)).map Prod.fst
    else some zg
  some
    { moved with
      neighbor := restoreBase zg.neighbor moved.neighbor residue }

end Zboss
