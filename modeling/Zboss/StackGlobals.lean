import Zboss.AddressTranslation

/-!
# The global state of the stack

The parts of `ZG`, the NIB, the AIB and the PIB which the network layer, the
neighbor table and the network security code share.  Only the fields which
the modelled functions read or write are present.
-/

namespace Zboss

def neighborTableSize : ℕ := 32

/-- The mark of a reference without neighbor, `(zb_uint8_t)~0`. -/
def noNeighbor : ℕ := 0xFF

inductive Relationship where
  | parent
  | child
  | sibling
  | noneOfTheAbove
  | previousChild
  | unauthenticatedChild
  deriving DecidableEq, Repr

inductive DeviceType where
  | endDevice
  | router
  | coordinator
  | none
  deriving DecidableEq, Repr

structure NeighborTblEnt where
  addrRef : ℕ
  permitJoining : ℕ
  deviceType : DeviceType
  depth : ℕ
  used : Bool
  rxOnWhenIdle : Bool
  relationship : Relationship
  lqi : UInt8
  incomingFrameCounter : UInt32
  keySeqNumber : UInt8
  deriving DecidableEq

def NeighborTblEnt.zero : NeighborTblEnt where
  addrRef := 0
  permitJoining := 0
  deviceType := .endDevice
  depth := 0
  used := false
  rxOnWhenIdle := false
  relationship := .parent
  lqi := 0
  incomingFrameCounter := 0
  keySeqNumber := 0

structure ExtNeighborTblEnt where
  shortAddr : ℕ
  longAddr : IeeeAddrCompressed
  panidRef : ℕ
  lqi : UInt8
  depth : ℕ
  permitJoining : ℕ
  deviceType : DeviceType

def ExtNeighborTblEnt.zero : ExtNeighborTblEnt where
  shortAddr := 0
  longAddr := .zero
  panidRef := 0
  lqi := 0
  depth := 0
  permitJoining := 0
  deviceType := .endDevice

structure NeighborTbl where
  baseNeighbor : ℕ → NeighborTblEnt
  addrToNeighbor : ℕ → ℕ
  baseNeighborSize : ℕ
  baseNeighborUsed : ℕ
  extNeighbor : ℕ → ExtNeighborTblEnt
  extNeighborSize : ℕ
  extNeighborUsed : ℕ
  incomingFrameCounterClock : ℕ

abbrev CcmKey := Vector UInt8 16

/-- `zb_secur_material_set_t` -/
structure SecurMaterial where
  key : CcmKey
  keySeqNumber : UInt8
  deriving DecidableEq

instance neZero_three : NeZero 3 := ⟨by decide⟩

structure Nib where
  depth : ℕ
  activeSecurMaterialI : Fin 3
  securMaterialSet : Fin 3 → SecurMaterial
  activeKeySeqNumber : UInt8
  outgoingFrameCounter : UInt32
  prevOutgoingFrameCounter : UInt32

/-- `zb_globals_t`: `nwk.handle.joined`, `nwk.handle.is_tc` and
`aps.authenticated` are flags, `trustCenterAddress` is in the AIB and
`extendedAddress` in the PIB. -/
structure Globals where
  addr : AddrGlobals
  neighbor : NeighborTbl
  nib : Nib
  joined : Bool
  isTc : Bool
  authenticated : Bool
  trustCenterAddress : IeeeAddr
  extendedAddress : IeeeAddr

def zbNwkNeighborInit : NeighborTbl where
  baseNeighbor _ := .zero
  addrToNeighbor _ := noNeighbor
  baseNeighborSize := neighborTableSize
  baseNeighborUsed := 0
  extNeighbor _ := .zero
  extNeighborSize := 0
  extNeighborUsed := 0
  incomingFrameCounterClock := 0

def Nib.zeroed : Nib where
  depth := 0
  activeSecurMaterialI := 0
  securMaterialSet _ := ⟨Vector.replicate 16 0, 0⟩
  activeKeySeqNumber := 0
  outgoingFrameCounter := 0
  prevOutgoingFrameCounter := 0

def Globals.init (extendedAddress : IeeeAddr) : Globals where
  addr := .zeroed
  neighbor := zbNwkNeighborInit
  nib := .zeroed
  joined := false
  isTc := false
  authenticated := false
  trustCenterAddress := .zero
  extendedAddress := extendedAddress

end Zboss
