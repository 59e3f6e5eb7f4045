import Zboss.AddressUpdateCorrectness
import Zboss.ExtendedNeighborTable
import Zboss.RejoinProcedure
import Zboss.ScannedNetworks
import Zboss.TreeNetwork

/-!
# Joining a network

What a router does when it has been admitted to a network: the successful
branch of `zb_mlme_associate_confirm`, and `zb_nlme_rejoin_response`.  Both
read the entry of the parent in the extended neighbor table, which
`zb_mlme_beacon_notify_indication` wrote when the parent was heard.  Functions
return `none` where the source asserts.
-/

namespace Zboss

structure ParentBeacon where
  srcPanId : UInt16
  extendedPanid : ExtPanId
  source : BeaconSource IeeeAddr
  channel : Channel
  nwkUpdateId : UInt8
  info : BeaconInfo
  depth_lt : info.depth < 16

structure JoinConfirm where
  success : Bool
  networkAddress : ℕ
  extendedPanId : ExtPanId
  activeChannel : Option ℕ

structure AssociateConfirm where
  assocShortAddress : ℕ
  parentAddress : IeeeAddr

/-- The state of a device, with the columns of the extended table which are
not in `ExtNeighborTblEnt`.  No function reads `heard`, the beacon by which an
entry was written last; the device type is left out. -/
structure JoinDevice where
  zg : Globals
  tree : TreeNib
  panMap : PanMap
  state : NlmeState
  nwkUpdateId : UInt8
  extPanId : ExtPanId
  networkAddress : ℕ
  parent : ℕ
  rowUpdateId : ℕ → UInt8
  rowChannel : ℕ → ℕ
  heard : ℕ → Option ParentBeacon

/-- What is in memory which was not written: the rows behind those in use, the
variable for the reference of the own network, and the bits of the channel in
an entry which a row of the base table lies over. -/
structure JoinLeftovers where
  rows : ℕ → NeighborTblEnt
  panidRef : ℕ
  channel : ℕ

namespace JoinDevice

def exneighborOf (zg : Globals) (panidRef : ℕ) :
    BeaconSource IeeeAddr → Option (Globals × Except RetError ℕ)
  | .short addr => some (zbNwkExneighborByShort zg panidRef addr)
  | .ieee addr => zbNwkExneighborByIeee zg panidRef addr

/-- `zb_mlme_beacon_notify_indication` for a network which is looked for.  A
new entry starts with zeros, and the identifier of the last update is not
copied. -/
def hear (dev : JoinDevice) (beacon : ParentBeacon) : Option JoinDevice :=
  match zbAddressSetPanId dev.panMap beacon.srcPanId beacon.extendedPanid with
  | none => some dev
  | some (panMap, ref) => do
      let (zg, ret) ← exneighborOf dev.zg ref.val beacon.source
      match ret with
      | .error _ => some { dev with panMap := panMap, zg := zg }
      | .ok i =>
          some
            { dev with
              panMap := panMap
              zg := fillExtNeighbor zg ret ref.val beacon.info
              rowUpdateId :=
                if i = dev.zg.neighbor.extNeighborUsed then
                  Function.update dev.rowUpdateId i 0
                else dev.rowUpdateId
              rowChannel := Function.update dev.rowChannel i beacon.channel.val
              heard := Function.update dev.heard i (some beacon) }

def setDepth (dev : JoinDevice) (depth : ℕ) : JoinDevice :=
  { dev with
    zg := { dev.zg with nib := { dev.zg.nib with depth := depth } }
    tree :=
      { dev.tree with
        depth := depth
        cskip := zbNwkDaaCalcCskip dev.tree depth } }

def exneighborStop (dev : JoinDevice) (left : JoinLeftovers) :
    Option JoinDevice :=
  let myPanidRef :=
    match zbAddressGetPanIdRef dev.panMap dev.extPanId with
    | some ref => ref.val
    | none => left.panidRef
  (zbNwkExneighborStop dev.zg myPanidRef left.rows).map fun zg => { dev with zg := zg }

def markParent (dev : JoinDevice) (ref : ℕ) : Option (JoinDevice × Bool) := do
  let (zg, ret) ← zbNwkNeighborGet dev.zg ref false
  match ret with
  | .ok n =>
      let ent := { zg.neighbor.baseNeighbor n with relationship := .parent }
      some ({ dev with zg := { zg with neighbor := zg.neighbor.setRow n ent } },
          true)
  | .error _ => some ({ dev with zg := zg }, false)

/-- The channel which is read from the entry `p` after its memory has gone to
the base table: it is in byte 10 of the entry, and not yet overwritten if the
rows in use end before it. -/
def staleChannel (dev : JoinDevice) (p : ℕ) (after : NeighborTbl)
    (left : JoinLeftovers) : ℕ :=
  let off := roundTo4 (dev.zg.neighbor.baseNeighborSize * neighborTblEntSize)
  if after.baseNeighborUsed * neighborTblEntSize ≤
      off + p * extNeighborTblEntSize + 10 then
    dev.rowChannel p
  else left.channel

def findParent (g : AddrGlobals) (shortAddr : ℕ)
    (longAddr parentAddress : IeeeAddr) : Option (AddrGlobals × ℕ) := do
  let (g, ret) ←
    if shortAddr = unknownShort then zbAddressByIeee g longAddr false false
    else zbAddressByShort g shortAddr false false
  match ret with
  | .error _ => none
  | .ok addrRef =>
      if longAddr ≠ .zero ∧ shortAddr ≠ unknownShort then do
        let (g, ret) ← zbAddressUpdate g parentAddress shortAddr false
        match ret with
        | .ok addrRef => some (g, addrRef)
        | .error _ => some (g, addrRef)
      else some (g, addrRef)

/-- `zb_mlme_associate_confirm` with success; `p` is the entry of the parent,
and `extPanId` the network of the saved request. -/
def zbMlmeAssociateConfirm (dev : JoinDevice) (p : ℕ) (extPanId : ExtPanId)
    (request : AssociateConfirm) (left : JoinLeftovers) :
    Option (JoinDevice × JoinConfirm) := do
  let row := dev.zg.neighbor.extNeighbor p
  let (addr, _) ←
    zbAddressUpdate dev.zg.addr dev.zg.extendedAddress request.assocShortAddress true
  let longAddr :=
    if row.shortAddr = unknownShort then zbIeeeAddrDecompress addr row.longAddr
    else request.parentAddress
  let joined : JoinDevice :=
    { dev with
      zg := { dev.zg with addr := addr, joined := true }
      extPanId := extPanId
      networkAddress := request.assocShortAddress
      nwkUpdateId := dev.rowUpdateId p }
  let stopped ←
    (joined.setDepth
      (if row.depth ≠ 0xF then row.depth + 1 else row.depth)).exneighborStop left
  let (addr, addrRef) ←
    findParent stopped.zg.addr row.shortAddr longAddr request.parentAddress
  let (marked, found) ←
    { stopped with zg := { stopped.zg with addr := addr } }.markParent addrRef
  some (if found then { marked with parent := addrRef } else marked,
      { success := true
        networkAddress := request.assocShortAddress
        extendedPanId := extPanId
        activeChannel := some (dev.staleChannel p marked.zg.neighbor left) })

/-- `nwk_join_failure_confirm`, which reports successes, too. -/
def nwkJoinFailureConfirm (dev : JoinDevice) (success : Bool) : JoinConfirm where
  success := success
  networkAddress := if success then dev.networkAddress else 0xFFFF
  extendedPanId := dev.extPanId
  activeChannel := none

/-- The long address of the sender in the header of a response: without a
destination address it stands in the place of that. -/
def responderIeee (frame : RejoinResponseFrame) : IeeeAddr :=
  if frame.destinationIeee then frame.srcIeeeAddr else frame.dstIeeeAddr

/-- `zb_nlme_rejoin_response`, without a confirm if the response is ignored;
`p` is the entry of the parent, and `extPanId` the network to rejoin. -/
def zbNlmeRejoinResponse (dev : JoinDevice) (p : ℕ) (extPanId : ExtPanId)
    (frame : RejoinResponseFrame) (left : JoinLeftovers) :
    Option (JoinDevice × Option JoinConfirm) :=
  let row := dev.zg.neighbor.extNeighbor p
  if dev.state = .rejoin ∧ frame.isCorrect dev.zg.extendedAddress
        (zbIeeeAddrDecompress dev.zg.addr row.longAddr) then do
    let (addr, _) ←
      zbAddressUpdate dev.zg.addr dev.zg.extendedAddress frame.networkAddr true
    let (addr, ret) ←
      zbAddressUpdate addr (responderIeee frame) row.shortAddr true
    let joined : JoinDevice :=
      { dev with
        zg := { dev.zg with addr := addr, joined := true }
        parent := match ret with
          | .ok addrRef => addrRef
          | .error _ => dev.parent
        networkAddress := frame.networkAddr
        tree := { dev.tree with macShortAddress := frame.networkAddr }
        extPanId := extPanId }
    let stopped ←
      (joined.setDepth
        (row.depth + if dev.tree.depth ≠ 0xF then 1 else 0)).exneighborStop left
    let (marked, _) ← { stopped with state := .idle }.markParent stopped.parent
    some (marked, some (marked.nwkJoinFailureConfirm true))
  else some (dev, none)

end JoinDevice

def NeighborTbl.IsParentRow (nt : NeighborTbl) (n : ℕ) : Prop :=
  n < nt.baseNeighborUsed ∧ (nt.baseNeighbor n).used = true ∧
    (nt.baseNeighbor n).relationship = .parent

/-- The long address of the parent, as far as the device gets to know it: from
the beacon, or as the source of the response. -/
def ParentBeacon.knownIeee (beacon : ParentBeacon) (responder : IeeeAddr) :
    Option IeeeAddr :=
  match beacon.source with
  | .ieee addr => some addr
  | .short _ => if responder = .zero then none else some responder

structure JoinDevice.JoinedTo
    (dev : JoinDevice) (confirm : JoinConfirm) (beacon : ParentBeacon)
    (responder : IeeeAddr) : Prop where
  depth : dev.tree.depth = min (beacon.info.depth + 1) 15
  cskip : dev.tree.cskip = zbNwkDaaCalcCskip dev.tree dev.tree.depth
  updateId : dev.nwkUpdateId = beacon.nwkUpdateId
  row : ∀ n, dev.zg.neighbor.IsParentRow n ↔ n = dev.zg.neighbor.addrToNeighbor dev.parent
  rowRef : (dev.zg.neighbor.baseNeighbor
    (dev.zg.neighbor.addrToNeighbor dev.parent)).addrRef = dev.parent
  entry : (dev.zg.addr.addrMap dev.parent).used = true
  short : ∀ addr, beacon.source = .short addr →
    (dev.zg.addr.addrMap dev.parent).addr = addr
  ieee : ∀ addr ∈ beacon.knownIeee responder, entryIeee dev.zg.addr dev.parent = addr
  channel : confirm.activeChannel = some beacon.channel.val

end Zboss
