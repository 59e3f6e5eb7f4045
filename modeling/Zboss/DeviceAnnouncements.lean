import Zboss.NeighborTable

/-!
# Addresses which become known

`zdo_device_annce_srv` with `zdo_device_info_upd` in `zdo_rx.c`, the address
update of `zb_get_peer_short_addr_cb`, and the own entry which
`zb_apsde_data_confirm` makes for the confirm of an announcement.  All of them
have the address table lock the entry.
-/

namespace Zboss

/-- `zb_zdo_device_annce_t` with the bits of the capability which are read, and
whether its short address is the MAC source of the frame. -/
structure DeviceAnnce where
  nwkAddr : ℕ
  ieeeAddr : IeeeAddr
  isRouter : Bool
  rxOnWhenIdle : Bool
  direct : Bool

structure AnnceReceiver where
  deviceType : DeviceType
  maxDepth : ℕ

namespace NeighborTblEnt

def isChild (ne : NeighborTblEnt) : Bool :=
  ne.relationship = .child || ne.relationship = .unauthenticatedChild

def announced (ne : NeighborTblEnt) (self : AnnceReceiver) (depth : ℕ)
    (annce : DeviceAnnce) : NeighborTblEnt :=
  let ne :=
    if ne.deviceType = .none ∨ ne.relationship = .previousChild then
      { ne with
        deviceType := if annce.isRouter then .router else .endDevice }
    else ne
  let ne := { ne with rxOnWhenIdle := annce.rxOnWhenIdle }
  let ne :=
    if ne.relationship = .noneOfTheAbove ∧
        (self.deviceType = .router ∨ self.deviceType = .coordinator) ∧
        annce.isRouter then
      { ne with relationship := .sibling }
    else ne
  let ne :=
    if (ne.isChild ∨ ne.relationship = .previousChild) ∧ depth < self.maxDepth then
      { ne with depth := depth + 1 }
    else ne
  if ne.deviceType = .endDevice then { ne with permitJoining := 0 } else ne

end NeighborTblEnt

/-- The first part of `zdo_device_info_upd`: a child whose short address has
changed is a previous child. -/
def detectFormerChild (zg : Globals) (ieeeAddr : IeeeAddr) (addr : ℕ) :
    Option Globals := do
  let (addrs, ret) ← zbAddressByIeee zg.addr ieeeAddr false false
  let zg := { zg with addr := addrs }
  match ret with
  | .ok addrRef =>
      let oldShort := (zg.addr.addrMap addrRef).addr
      if oldShort ≠ addr ∧ oldShort ≠ unknownShort then do
        let (zg, ret) ← zbNwkNeighborGet zg addrRef false
        match ret with
        | .ok n =>
            let ne := zg.neighbor.baseNeighbor n
            if ne.isChild then
              some { zg with
                neighbor := zg.neighbor.setRow n
                  { ne with relationship := .previousChild } }
            else some zg
        | .error _ => some zg
      else some zg
  | .error _ => some zg

def zdoDeviceInfoUpd (zg : Globals) (ieeeAddr : IeeeAddr) (addr : ℕ) (direct : Bool) :
    Option (Globals × Option ℕ) := do
  let zg ← detectFormerChild zg ieeeAddr addr
  let (addrs, ret) ← zbAddressUpdate zg.addr ieeeAddr addr true
  let zg := { zg with addr := addrs }
  match ret, direct with
  | .ok addrRef, true => do
      let (zg, ret) ← zbNwkNeighborGet zg addrRef true
      some (zg, ret.toOption)
  | _, _ => some (zg, none)

def zdoDeviceAnnceSrv (self : AnnceReceiver) (zg : Globals) (annce : DeviceAnnce) :
    Option Globals := do
  let (zg, ne) ←
    zdoDeviceInfoUpd zg annce.ieeeAddr annce.nwkAddr annce.direct
  match ne with
  | some n =>
      some { zg with
        neighbor := zg.neighbor.setRow n
          ((zg.neighbor.baseNeighbor n).announced self zg.nib.depth annce) }
  | none => some zg

/-- `zb_get_peer_short_addr_cb`; the return value of the update is ignored. -/
def zbGetPeerShortAddrCb
    (zg : Globals) (status : UInt8) (ieeeAddr : IeeeAddr) (nwkAddr : ℕ) :
    Option Globals :=
  if status = 0 then
    (zbAddressUpdate zg.addr ieeeAddr nwkAddr true).map fun updated =>
      { zg with addr := updated.1 }
  else some zg

def ownAnnceConfirm (zg : Globals) (shortAddress : ℕ) : Option Globals :=
  (zbAddressByShort zg.addr shortAddress true true).map fun found =>
    { zg with addr := found.1 }

inductive AnnceEvent where
  | deviceAnnce (annce : DeviceAnnce)
  | peerShortAddr (status : UInt8) (ieeeAddr : IeeeAddr) (nwkAddr : ℕ)
  | ownAnnceConfirm (shortAddress : ℕ)

def AnnceEvent.apply (self : AnnceReceiver) (zg : Globals) : AnnceEvent → Option Globals
  | .deviceAnnce annce => zdoDeviceAnnceSrv self zg annce
  | .peerShortAddr status ieeeAddr nwkAddr =>
      zbGetPeerShortAddrCb zg status ieeeAddr nwkAddr
  | .ownAnnceConfirm shortAddress => Zboss.ownAnnceConfirm zg shortAddress

end Zboss
