import Zboss.AlarmQueue
import Zboss.NwkArrays
import Zboss.NwkFrame
import Zboss.TreeRouting

/-!
# Packets in the network layer

The functions of `nwk_main.c` through which packets pass: from the APS layer
and from the MAC layer to `zb_nwk_forward` and back, with the tables for
broadcasts and for packets which wait for a route.  A packet is known by the
number of its buffer.  What is scheduled, requested and freed is returned in
the order of the calls, without the delays of alarms.  Functions return `none`
where the source asserts, or where it writes behind the bits of `passive_ack`,
for which the size of the array is one byte.
-/

namespace Zboss

open Function

def nwkBtrTableSize : ℕ := 16

def nwkBrrTableSize : ℕ := 8

def nwkWaitAllocTableSize : ℕ := 5

def nwkBroadcastDeliveryTime : ℕ := 9

def nwkMaxBroadcastRetries : ℕ := 2

/-- `ZB_NWK_RREQ_RETRY_INTERVAL`, in beacon intervals. -/
def nwkRreqRetryInterval : UInt16 := 16

def nwkPendingEntryExpiry : ℕ := 20

def nwkPassiveAckBits : ℕ := 8

def nwkInternalNsduHandle : ℕ := 0xFF

def nwkInternalRejoinCmdHandle : ℕ := 0xFE

def nwkInternalRejoinCmdResponse : ℕ := 0xFD

/-- `ZB_NWK_INTERNAL_LEAVE_IND_AT_DATA_CONFIRM_HANDLE` -/
def nwkInternalLeaveIndHandle : ℕ := 0xFC

/-- `ZB_NWK_INTERNAL_LEAVE_CONFIRM_AT_DATA_CONFIRM_HANDLE` -/
def nwkInternalLeaveConfirmHandle : ℕ := 0xFB

def nwkBroadcastAllDevices : ℕ := 0xFFFF

def nwkBroadcastRxOnWhenIdle : ℕ := 0xFFFD

def nwkBroadcastRouterCoordinator : ℕ := 0xFFFC

def nwkBroadcastLowPowerRouter : ℕ := 0xFFFB

structure NwkBtr where
  expirationTime : ℕ
  sourceAddr : ℕ
  sequenceNumber : ℕ

structure NwkBroadcastRetransmit where
  retries : ℕ
  buf : ℕ
  neighborTableIterator : Option ℕ
  nextRetransmit : UInt16
  srcAddr : ℕ
  dstAddr : ℕ
  seqNum : ℕ
  passiveAck : Finset ℕ

inductive NwkCommand where
  | routeRequest (cmd : NwkCmdRreq)
  | routeReply (cmd : NwkCmdRrep)
  | networkStatus
  | leave
  | routeRecord
  | rejoinRequest
  | rejoinResponse
  | linkStatus
  | networkReport
  | networkUpdate
  deriving DecidableEq

inductive NwkPayload where
  | data
  | command (cmd : NwkCommand)
  | reserved
  deriving DecidableEq

/-- A buffer: whether it begins with a MAC and a network header, the fields of
the network header, the source in what is left of a MAC header, and the
parameters behind the data. -/
structure NwkPacket where
  macHdr : Bool
  nwkHdr : Bool
  payload : NwkPayload
  security : Bool
  discoverRoute : Bool
  dstIeeeAddr : Option IeeeAddr
  dstAddr : ℕ
  srcAddr : ℕ
  radius : ℕ
  seqNum : ℕ
  macSource : Option ℕ
  macDst : ℕ
  indirect : Bool
  handle : ℕ
  deriving DecidableEq

inductive NwkCallback where
  | mcpsDataRequest
  | nwkForward
  | nwkFrameIndication
  | nldeDataIndication
  | nldeDataConfirm
  | nlmeStatusIndication
  | callStatusIndication
  | nwkBroadcastTransmition
  | newBufferAllocated
  | nwkCallBrConfirm
  | nwkBtrExpiry
  | meshInitiateRouteDiscovery
  | meshExpiryPending
  | nlmeJoinRequest
  | nlmeRejoinResponseTimeout
  | nlmeRejoinRespSent
  | nwkCallLeaveInd
  | nlmeLeaveConfirm
  | commandHandler
  deriving DecidableEq

/-- What the functions do with buffers and with the scheduler.  `call` is a
direct call of a function which takes the buffer and is not modelled, and
`unsecureFailed` is what `zb_nwk_unsecure_frame` does with the buffer of a frame
which it refuses. -/
inductive NwkOutput where
  | schedule (func : NwkCallback) (param : ℕ)
  | call (func : NwkCallback) (param : ℕ)
  | freeBuf (param : ℕ)
  | getBufDelayed (func : NwkCallback) (isIn : Bool)
  | setAlarm (func : NwkCallback)
  | cancelAlarm (func : NwkCallback)
  | unsecureFailed (param : ℕ)
  | mesh (param : ℕ) (output : MeshOutput)
  deriving DecidableEq

/-- The parts of `ZG->nwk` and of the PIB which the functions use, and the
buffers.  `waitingBuf` and `pendExpiry` are the fields of these names in the
entries of the pending table, and `secureAllFrames` is set if the NIB asks for
security and its level is not zero. -/
structure NwkMain where
  mesh : MeshRouter
  waitingBuf : ℕ → Bool
  pendExpiry : ℕ → ℕ
  treeNib : TreeNib
  useTreeRouting : Bool
  secureAllFrames : Bool
  deviceType : DeviceType
  joinedPro : Bool
  rejoining : Bool
  parent : ℕ
  rxOnWhenIdle : Bool
  timer : UInt16
  sequenceNumber : ℕ
  btt : NwkArray nwkBtrTableSize NwkBtr
  brrt : NwkArray nwkBrrTableSize NwkBroadcastRetransmit
  waitAlloc : NwkArray nwkWaitAllocTableSize ℕ
  packets : ℕ → NwkPacket

namespace NwkMain

def setZg (nwk : NwkMain) (zg : Globals) : NwkMain :=
  { nwk with mesh := { nwk.mesh with zg := zg } }

def setPacket (nwk : NwkMain) (param : ℕ) (packet : NwkPacket) : NwkMain :=
  { nwk with packets := update nwk.packets param packet }

/-! ## The destination of a packet -/

def addBufToPending (nwk : NwkMain) (param : ℕ) : Option NwkMain :=
  let mesh := nwk.mesh
  match nwkArrayGetEnt nwkPendingTableSize (fun i => (mesh.pendingTable i).used) with
  | some i =>
      let packet := nwk.packets param
      some
        { nwk with
          mesh :=
            { mesh with
              pendingTable :=
                update mesh.pendingTable i
                  { used := true
                    buf := param
                    handle := packet.handle
                    destAddr := packet.dstAddr }
              pendingTableCnt := mesh.pendingTableCnt + 1 }
          pendExpiry := update nwk.pendExpiry i nwkPendingEntryExpiry
          waitingBuf := update nwk.waitingBuf i true }
  | none => none

def findRouteDiscoveryEntry (nwk : NwkMain) (destAddr : ℕ) : Option ℕ :=
  nwk.mesh.findRouteDisc fun i => (nwk.mesh.routeDiscTable i).destAddr == destAddr

def destNeighbor (nwk : NwkMain) (packet : NwkPacket) :
    Option (Globals × Option ℕ) :=
  match packet.dstIeeeAddr with
  | none => some (zbNwkNeighborGetByShort nwk.mesh.zg packet.dstAddr)
  | some ieee => do
      let (addr, ret) ← zbAddressByIeee nwk.mesh.zg.addr ieee false false
      let zg := { nwk.mesh.zg with addr := addr }
      match ret with
      | .ok ref =>
          let n := zg.neighbor.addrToNeighbor ref
          some (zg, if n ≠ noNeighbor then some n else none)
      | .error _ => some (zg, none)

end NwkMain

/-- What `nwk_calc_destination` returns: `RET_OK`, `RET_BUSY` or an error,
with the address to send to. -/
inductive CalcDestination where
  | ok (macDst : ℕ) (indirect : Bool)
  | busy
  | error (macDst : ℕ)

namespace NwkMain

def waitForRoute (nwk : NwkMain) (param : ℕ) (discover : Bool) :
    NwkMain × CalcDestination × List NwkOutput :=
  match nwk.addBufToPending param with
  | some nwk =>
      (nwk, .busy, if discover then [.getBufDelayed .meshInitiateRouteDiscovery false]
        else [])
  | none => (nwk, .error (nwk.packets param).dstAddr, [])

/-- The branch of `nwk_calc_destination` for tree routing. -/
def calcTreeDestination (nwk : NwkMain) (destAddr : ℕ) :
    Option (NwkMain × CalcDestination × List NwkOutput) := do
  let (zg, row) ←
    zbNwkTreeRoutingRoute ⟨nwk.mesh.zg, nwk.treeNib, nwk.parent⟩ destAddr
  match row with
  | some n => some (nwk.setZg zg, .ok (rowAddress zg n) false, [])
  | none => some (nwk.setZg zg, .error destAddr, [])

/-- The branches of `nwk_calc_destination` for a packet which may look for a
route and whose destination is no neighbor. -/
def calcRoute (nwk : NwkMain) (param : ℕ) :
    Option (NwkMain × CalcDestination × List NwkOutput) :=
  let destAddr := (nwk.packets param).dstAddr
  match nwk.mesh.routeTo destAddr with
  | none => some (nwk.waitForRoute param true)
  | some r =>
      let route := nwk.mesh.routingTable r
      match route.status with
      | .active | .validationUnderway =>
          some
            ({ nwk with
                mesh := nwk.mesh.setRouting r { route with status := .active } },
              .ok route.nextHopAddr false, [])
      | .discoveryUnderway =>
          let own :=
            match nwk.findRouteDiscoveryEntry destAddr with
            | some d => (nwk.mesh.routeDiscTable d).sourceAddr == nwk.mesh.address
            | none => false
          some (nwk.waitForRoute param (!own))
      | .discoveryFailed | .discoveryInactive =>
          if nwk.useTreeRouting then nwk.calcTreeDestination destAddr
          else some (nwk, .error destAddr, [])

def nwkCalcDestination (nwk : NwkMain) (param : ℕ) :
    Option (NwkMain × CalcDestination × List NwkOutput) :=
  let packet := nwk.packets param
  if nwk.deviceType = .endDevice then
    if nwk.rejoining then some (nwk, .ok packet.dstAddr false, [])
    else
      let macDst := (nwk.mesh.zg.addr.addrMap nwk.parent).addr
      some (nwk, .ok macDst false, [])
  else if nwkIsAddressBroadcast packet.dstAddr then
    some (nwk, .ok nwkBroadcastAllDevices false, [])
  else do
    let (zg, row) ← nwk.destNeighbor packet
    let nwk := nwk.setZg zg
    match row with
    | some n =>
        let rxOn := (zg.neighbor.baseNeighbor n).rxOnWhenIdle
        some (nwk, .ok packet.dstAddr (!rxOn), [])
    | none =>
        if packet.discoverRoute then nwk.calcRoute param
        else some (nwk, .error packet.dstAddr, [])

def startBtrExpiry (nwk : NwkMain) : List NwkOutput :=
  if nwk.btt.cnt = 1 then [.cancelAlarm .nwkBtrExpiry, .setAlarm .nwkBtrExpiry]
  else []

def findBtr (nwk : NwkMain) (sourceAddr sequenceNumber : ℕ) : Option ℕ :=
  nwk.btt.findEnt fun ent =>
    ent.sourceAddr == sourceAddr && ent.sequenceNumber == sequenceNumber

def addBtr (nwk : NwkMain) (sourceAddr sequenceNumber : ℕ) :
    Option (NwkMain × List NwkOutput) :=
  match nwk.btt.freeEnt with
  | some i =>
      let nwk :=
        { nwk with
          btt := nwk.btt.takeEnt i ⟨nwkBroadcastDeliveryTime, sourceAddr, sequenceNumber⟩ }
      some (nwk, nwk.startBtrExpiry)
  | none => none

def nextZeChildrenI (zg : Globals) (addr i : ℕ) : Option ℕ :=
  (List.range' i (zg.neighbor.baseNeighborUsed - i)).find? fun n =>
    let ent := zg.neighbor.baseNeighbor n
    ent.used && (ent.relationship == .child ||
        ent.relationship == .unauthenticatedChild) &&
      ent.deviceType == .endDevice &&
      (addr == nwkBroadcastAllDevices ||
        addr == nwkBroadcastRxOnWhenIdle && ent.rxOnWhenIdle)

/-- The end of `zb_nwk_forward` for a packet which cannot be delivered. -/
def forwardFailed (nwk : NwkMain) (param macDst : ℕ) :
    NwkMain × List NwkOutput :=
  match zbNwkNeighborGetByShort nwk.mesh.zg macDst with
  | (zg, some n) =>
      let relationship := (zg.neighbor.baseNeighbor n).relationship
      if relationship = .child ∨ relationship = .unauthenticatedChild then
        (nwk.setZg zg, [.schedule .nlmeStatusIndication param])
      else (nwk.setZg zg, [.freeBuf param])
  | (zg, none) => (nwk.setZg zg, [.freeBuf param])

/-- The part of `zb_nwk_forward` which begins to retransmit a broadcast. -/
def startRetransmit (nwk : NwkMain) (param macDst : ℕ) :
    Option (NwkMain × List NwkOutput) :=
  let packet := nwk.packets param
  if nwk.brrt.cnt.toNat < nwkBrrTableSize then
    match nwk.brrt.freeEnt with
    | some i =>
        some
          ({ nwk with
              brrt :=
                nwk.brrt.takeEnt i
                  { nwk.brrt.ents i with
                    buf := param
                    retries := 0
                    srcAddr := packet.srcAddr
                    dstAddr := packet.dstAddr
                    seqNum := packet.seqNum
                    neighborTableIterator := nextZeChildrenI nwk.mesh.zg packet.dstAddr 0
                    passiveAck := ∅ } },
            [.cancelAlarm .nwkBroadcastTransmition,
              .getBufDelayed .nwkBroadcastTransmition false])
    | none => none
  else some (nwk.forwardFailed param macDst)

/-- The part of `zb_nwk_forward` behind the broadcast transaction table. -/
def forwardTo (nwk : NwkMain) (param macDst : ℕ) (indirect : Bool) :
    Option (NwkMain × List NwkOutput) :=
  let packet := nwk.packets param
  let nwk := nwk.setPacket param { packet with macDst := macDst, indirect := indirect }
  if nwkIsAddressBroadcast packet.dstAddr ∧ nwk.deviceType ≠ .endDevice then
    nwk.startRetransmit param macDst
  else some (nwk, [.schedule .mcpsDataRequest param])

def zbNwkForward (nwk : NwkMain) (param : ℕ) :
    Option (NwkMain × List NwkOutput) := do
  let (nwk, ret, outputs) ← nwk.nwkCalcDestination param
  match ret with
  | .busy => some (nwk, outputs)
  | .error macDst => some (nwk.forwardFailed param macDst)
  | .ok macDst indirect =>
      let packet := nwk.packets param
      if nwkIsAddressBroadcast packet.dstAddr ∧
          nwk.findBtr packet.srcAddr packet.seqNum = none then
        match nwk.addBtr packet.srcAddr packet.seqNum with
        | some (nwk, started) => do
            let (nwk, outputs) ← nwk.forwardTo param macDst indirect
            some (nwk, started ++ outputs)
        | none => some (nwk.forwardFailed param macDst)
      else nwk.forwardTo param macDst indirect

def passiveAckDevNum (zg : Globals) : ℕ :=
  (List.range zg.neighbor.baseNeighborSize).countP fun n =>
    let ent := zg.neighbor.baseNeighbor n
    ent.used && (ent.deviceType == .router || ent.deviceType == .coordinator)

/-- So many acknowledgements are those of all neighbors which relay a broadcast:
of all of them if the router has sent it first, else of all but its source. -/
def AllAcked (nwk : NwkMain) (ent : NwkBroadcastRetransmit) (acks : ℕ) : Prop :=
  (acks = passiveAckDevNum nwk.mesh.zg ∧ ent.srcAddr = nwk.mesh.address) ∨
    (acks + 1 = passiveAckDevNum nwk.mesh.zg ∧ ent.srcAddr ≠ nwk.mesh.address)

instance (nwk : NwkMain) (ent : NwkBroadcastRetransmit) (acks : ℕ) :
    Decidable (nwk.AllAcked ent acks) :=
  inferInstanceAs (Decidable (_ ∨ _))

/-- The second loop of `nwk_broadcast_transmition`: an entry which is to be sent
to a child, and the row of the child. -/
def pickUnicast (nwk : NwkMain) : List ℕ → NwkMain × Option (ℕ × ℕ)
  | [] => (nwk, none)
  | i :: rest =>
      let ent := nwk.brrt.ents i
      match nwk.brrt.used i, ent.neighborTableIterator with
      | true, some n =>
          if rowAddress nwk.mesh.zg n = (nwk.packets ent.buf).srcAddr then
            let next := nextZeChildrenI nwk.mesh.zg ent.dstAddr (n + 1)
            let ent := { ent with neighborTableIterator := next }
            ({ nwk with brrt := nwk.brrt.setEnt i ent } : NwkMain).pickUnicast rest
          else (nwk, some (i, n))
      | _, _ => nwk.pickUnicast rest

/-- The entry which `nwk_broadcast_transmition` serves, and the row of the
child to which it is sent. -/
def pickBroadcast (nwk : NwkMain) : NwkMain × Option (ℕ × Option ℕ) :=
  match nwk.brrt.findEnt fun ent => ent.retries == 0 with
  | some i => (nwk, some (i, none))
  | none =>
      match nwk.pickUnicast (List.range nwkBrrTableSize) with
      | (nwk, some (i, n)) => (nwk, some (i, some n))
      | (nwk, none) =>
          let due := nwk.brrt.findEnt fun ent => zbTimeGe nwk.timer ent.nextRetransmit
          (nwk, due.map fun i => (i, none))

def countTransmission (nwk : NwkMain) (ent : NwkBroadcastRetransmit) :
    Option ℕ → Option NwkBroadcastRetransmit
  | some n =>
      if n < nwkPassiveAckBits then
        some
          { ent with
            passiveAck := insert n ent.passiveAck
            neighborTableIterator := nextZeChildrenI nwk.mesh.zg ent.dstAddr (n + 1) }
      else none
  | none =>
      some
        { ent with
          nextRetransmit := nwk.timer + nwkRreqRetryInterval
          retries := (ent.retries + 1) % 2 ^ 6 }

/-- The `i` of `nwk_broadcast_transmition` behind its scans.  The ones which come
after the one that has found the entry set it to 0. -/
def scanIndex (ent : NwkBroadcastRetransmit) (i : ℕ) (child : Option ℕ) : ℕ :=
  if ent.retries = 0 ∨ child.isSome then 0 else i + 1

/-- `ZB_CALC_NONE_ZERO_BITS_IN_BIT_VECTOR` counts the acknowledgements in an `i`
of its own, so that the comparison is with that of the scans. -/
def LastTransmission (nwk : NwkMain) (ent : NwkBroadcastRetransmit) (i : ℕ) : Prop :=
  ent.neighborTableIterator = none ∧
    (ent.retries ≥ nwkMaxBroadcastRetries ∨ nwk.AllAcked ent i)

instance (nwk : NwkMain) (ent : NwkBroadcastRetransmit) (i : ℕ) :
    Decidable (nwk.LastTransmission ent i) :=
  inferInstanceAs (Decidable (_ ∧ _))

def sendBroadcast (nwk : NwkMain) (param : ℕ) (child : Option ℕ) : NwkMain :=
  match child with
  | some n =>
      nwk.setPacket param
        { nwk.packets param with
          macDst := rowAddress nwk.mesh.zg n
          indirect := true }
  | none => nwk

def scheduleTransmition (nwk : NwkMain) (sent : Bool) : List NwkOutput :=
  if nwk.brrt.cnt ≠ 0 then
    if sent then [.schedule .nwkBroadcastTransmition 0]
    else [.cancelAlarm .nwkBroadcastTransmition, .setAlarm .nwkBroadcastTransmition]
  else []

/-- The part of `nwk_broadcast_transmition` for an entry which is sent with the
buffer `param`. -/
def transmitEnt (nwk : NwkMain) (param i : ℕ) (child : Option ℕ) :
    Option (NwkMain × List NwkOutput) := do
  let index := scanIndex (nwk.brrt.ents i) i child
  let ent ← nwk.countTransmission (nwk.brrt.ents i) child
  let nwk := { nwk with brrt := nwk.brrt.setEnt i ent }
  if nwk.LastTransmission ent index then
    let nwk := { nwk with brrt := nwk.brrt.putEnt i }
    let nwk := nwk.sendBroadcast ent.buf child
    some (nwk, [.freeBuf param, .schedule .mcpsDataRequest ent.buf] ++
          nwk.scheduleTransmition true)
  else
    let copy := { nwk.packets ent.buf with handle := nwkInternalNsduHandle }
    let nwk := if param ≠ ent.buf then nwk.setPacket param copy else nwk
    let nwk := nwk.sendBroadcast param child
    some (nwk, .schedule .mcpsDataRequest param :: nwk.scheduleTransmition true)

def nwkBroadcastTransmition (nwk : NwkMain) (param : ℕ) :
    Option (NwkMain × List NwkOutput) :=
  match nwk.pickBroadcast with
  | (nwk, some (i, child)) =>
      if param = 0 then some (nwk, [.getBufDelayed .nwkBroadcastTransmition false])
      else nwk.transmitEnt param i child
  | (nwk, none) =>
      some (nwk, (if param ≠ 0 then [.freeBuf param] else []) ++
            nwk.scheduleTransmition false)

/-! ## Received packets -/

def supportedBroadcast (nwk : NwkMain) (dstAddr : ℕ) : Bool :=
  dstAddr == nwkBroadcastAllDevices ||
    dstAddr == nwkBroadcastRxOnWhenIdle && nwk.rxOnWhenIdle ||
    dstAddr == nwkBroadcastRouterCoordinator && !nwk.joinedPro ||
    dstAddr == nwkBroadcastLowPowerRouter && !nwk.joinedPro

def markPassiveAck (nwk : NwkMain) (packet : NwkPacket) :
    Option (NwkMain × List NwkOutput) :=
  let found := nwk.brrt.findEnt fun ent =>
    ent.srcAddr == packet.srcAddr && ent.seqNum == packet.seqNum
  match nwk.joinedPro, found, packet.macSource with
  | false, some i, some macSource =>
      match zbNwkNeighborGetByShort nwk.mesh.zg macSource with
      | (zg, some n) =>
          if n < nwkPassiveAckBits then
            let ent := nwk.brrt.ents i
            let ent := { ent with passiveAck := insert n ent.passiveAck }
            let nwk := { nwk.setZg zg with brrt := nwk.brrt.setEnt i ent }
            if nwk.AllAcked ent ent.passiveAck.card then
              some ({ nwk with brrt := nwk.brrt.putEnt i },
                  [.schedule .nwkCallBrConfirm ent.buf])
            else some (nwk, [])
          else none
      | (zg, none) => some (nwk.setZg zg, [])
  | _, _, _ => some (nwk, [])

/-- What `zb_mcps_data_indication` does with a packet behind the security
processing. -/
inductive Disposition where
  | indicate
  | retransmit
  | indicateAndRetransmit
  | drop

def NwkPayload.relayed : NwkPayload → Bool
  | .data => true
  | .command .networkReport | .command .networkStatus
  | .command .networkUpdate => true
  | _ => false

/-- `radius` is what is left of it. -/
def disposition (nwk : NwkMain) (packet : NwkPacket) : Disposition :=
  let broadcast := nwkIsAddressBroadcast packet.dstAddr
  let own := packet.dstAddr == nwk.mesh.address
  if nwk.deviceType = .coordinator ∨ nwk.deviceType = .router then
    if broadcast then
      if packet.radius ≠ 0 ∧ NwkPayload.relayed packet.payload then .indicateAndRetransmit
      else .indicate
    else if own then .indicate
    else if packet.radius ≠ 0 then .retransmit
    else .drop
  else if own ∨ broadcast then .indicate
  else .drop

def updateLqi (nwk : NwkMain) (srcAddr : ℕ) (lqi : UInt8) : NwkMain :=
  match zbNwkNeighborGetByShort nwk.mesh.zg srcAddr with
  | (zg, some n) =>
      nwk.setZg
        { zg with
          neighbor := zg.neighbor.setRow n { zg.neighbor.baseNeighbor n with lqi := lqi } }
  | (zg, none) => nwk.setZg zg

def dispose (nwk : NwkMain) (param : ℕ) : Disposition → NwkMain × List NwkOutput
  | .indicate => (nwk, [.schedule .nwkFrameIndication param])
  | .retransmit =>
      (nwk.setPacket param { nwk.packets param with handle := nwkInternalNsduHandle },
        [.schedule .nwkForward param])
  | .indicateAndRetransmit =>
      match nwk.waitAlloc.freeEnt with
      | some i =>
          ({ nwk with waitAlloc := nwk.waitAlloc.takeEnt i param },
            [.getBufDelayed .newBufferAllocated true])
      | none => (nwk, [.schedule .nwkFrameIndication param])
  | .drop => (nwk, [.freeBuf param])

/-- What `zb_nwk_unsecure_frame` makes of the tables, and whether the frame is
authentic. -/
abbrev Unsecure := Globals → Option (Globals × Except RetError Unit)

/-- The part of `zb_mcps_data_indication` from the security processing on. -/
def handleFrame (nwk : NwkMain) (param : ℕ) (lqi : UInt8) (unsecure : Unsecure) :
    Option (NwkMain × List NwkOutput) := do
  let packet := nwk.packets param
  let checked :=
    if packet.security then unsecure nwk.mesh.zg
    else some (nwk.mesh.zg, .ok ())
  let (zg, ret) ← checked
  let nwk := nwk.setZg zg
  match ret with
  | .error _ => some (nwk, [.unsecureFailed param])
  | .ok () =>
      let packet := { packet with radius := packet.radius - 1 }
      let disposed := nwk.disposition packet
      let nwk := (nwk.setPacket param packet).updateLqi packet.srcAddr lqi
      some (nwk.dispose param disposed)

/-- `packet` is the frame which the MAC layer has put into the buffer. -/
def zbMcpsDataIndication (nwk : NwkMain) (param : ℕ) (packet : NwkPacket) (lqi : UInt8)
    (unsecure : Unsecure) : Option (NwkMain × List NwkOutput) :=
  let nwk := nwk.setPacket param { packet with macHdr := false }
  if packet.radius = 0 ∨ packet.payload = .reserved then some (nwk, [.freeBuf param])
  else if nwkIsAddressBroadcast packet.dstAddr then
    if nwk.supportedBroadcast packet.dstAddr then do
      let (nwk, acked) ← nwk.markPassiveAck packet
      if nwk.findBtr packet.srcAddr packet.seqNum = none then
        match nwk.addBtr packet.srcAddr packet.seqNum with
        | some (nwk, started) => do
            let (nwk, outputs) ← nwk.handleFrame param lqi unsecure
            some (nwk, acked ++ started ++ outputs)
        | none => some (nwk, acked ++ [.freeBuf param])
      else some (nwk, acked ++ [.freeBuf param])
    else some (nwk, [.freeBuf param])
  else nwk.handleFrame param lqi unsecure

/-- The parameter 0 means that there is no buffer yet.  The entry which is
served is the one at the end of the array. -/
def newBufferAllocated (nwk : NwkMain) (param : ℕ) :
    NwkMain × List NwkOutput :=
  if param ≠ 0 ∧ nwk.waitAlloc.cnt ≠ 0 then
    let i := nwk.waitAlloc.cnt.toNat - 1
    let buf := nwk.waitAlloc.ents i
    let packet := nwk.packets buf
    let nwk := nwk.setPacket param packet
    let nwk := nwk.setPacket buf { packet with handle := nwkInternalNsduHandle }
    let nwk := { nwk with waitAlloc := nwk.waitAlloc.putEnt i }
    (nwk, [.schedule .nwkFrameIndication param, .schedule .nwkForward buf] ++
        if nwk.waitAlloc.cnt ≠ 0 then [.getBufDelayed .newBufferAllocated true]
        else [])
  else (nwk, [])

def NwkPacket.meshFrame (packet : NwkPacket) : MeshFrame :=
  ⟨packet.macSource, packet.srcAddr, packet.seqNum, packet.radius⟩

def nwkFrameIndication (nwk : NwkMain) (param : ℕ) :
    NwkMain × List NwkOutput :=
  let packet := nwk.packets param
  let frame := NwkPacket.meshFrame packet
  match packet.payload, nwk.joinedPro with
  | .data, _ => (nwk, [.schedule .nldeDataIndication param])
  | .command (.routeRequest cmd), false =>
      let (mesh, outputs) := zbNwkMeshRreqHandler nwk.mesh frame cmd
      ({ nwk with mesh := mesh }, outputs.map (.mesh param))
  | .command (.routeReply cmd), false =>
      let (mesh, outputs) := zbNwkMeshRrepHandler nwk.mesh frame cmd
      ({ nwk with mesh := mesh }, outputs.map (.mesh param))
  | .command (.routeRequest _), true | .command (.routeReply _), true
  | .command .rejoinRequest, true | .command .routeRecord, _
  | .command .linkStatus, _ => (nwk, [.freeBuf param])
  | .command _, _ => (nwk, [.call .commandHandler param])
  | .reserved, _ => (nwk, [])

end NwkMain

structure NldeDataReq where
  dstAddr : ℕ
  radius : ℕ
  discoverRoute : Bool
  securityEnable : Bool
  ndsuHandle : ℕ

namespace NwkMain

def zbNldeDataRequest (nwk : NwkMain) (param : ℕ) (req : NldeDataReq) :
    NwkMain × List NwkOutput :=
  let nsdu := { nwk.packets param with macHdr := false, nwkHdr := false }
  if nwk.mesh.zg.joined then
    let radius := if req.radius ≠ 0 then req.radius else nwk.mesh.maxDepth * 2 % 2 ^ 8
    let packet : NwkPacket :=
      { nsdu with
        nwkHdr := true
        payload := .data
        security := req.securityEnable && nwk.mesh.zg.authenticated && nwk.secureAllFrames
        discoverRoute := req.discoverRoute
        dstIeeeAddr := none
        dstAddr := req.dstAddr
        srcAddr := nwk.mesh.address
        radius := radius
        seqNum := nwk.sequenceNumber
        handle := req.ndsuHandle }
    ({ nwk.setPacket param packet with
        sequenceNumber := (nwk.sequenceNumber + 1) % 2 ^ 8 },
      [.schedule .nwkForward param])
  else (nwk.setPacket param nsdu, [.schedule .nldeDataConfirm param])

/-- `success` is the status in the buffer -/
def zbMcpsDataConfirm (nwk : NwkMain) (param : ℕ) (success : Bool) :
    List NwkOutput :=
  let handle := (nwk.packets param).handle
  if handle = nwkInternalRejoinCmdHandle ∧ nwk.rejoining then
    [.cancelAlarm .nlmeRejoinResponseTimeout, .schedule .nlmeRejoinResponseTimeout param]
  else if handle = nwkInternalRejoinCmdResponse then [.call .nlmeRejoinRespSent param]
  else if handle = nwkInternalLeaveIndHandle then [.call .nwkCallLeaveInd param]
  else if handle = nwkInternalLeaveConfirmHandle then [.schedule .nlmeLeaveConfirm param]
  else if handle = nwkInternalNsduHandle then
    if success then [.freeBuf param]
    else [.schedule .nlmeStatusIndication param]
  else if success then [.schedule .nldeDataConfirm param]
  else [.schedule .nldeDataConfirm param, .getBufDelayed .callStatusIndication true]

def zbNwkCallBrConfirm (nwk : NwkMain) (param : ℕ) (success : Bool) :
    NwkMain × List NwkOutput :=
  let nwk := nwk.setPacket param { nwk.packets param with macHdr := true }
  (nwk, nwk.zbMcpsDataConfirm param success)

def findWaiting (nwk : NwkMain) : Option ℕ :=
  nwkArrayFindEnt nwkPendingTableSize
    (fun i => (nwk.mesh.pendingTable i).used) nwk.waitingBuf

def startDiscovery (nwk : NwkMain) (param i destAddr : ℕ) :
    NwkMain × List NwkOutput :=
  let (mesh, outputs) :=
    zbNwkMeshRouteDiscovery nwk.mesh (nwk.packets param).macSource destAddr 0
  ({ nwk with
      mesh := mesh
      waitingBuf := update nwk.waitingBuf i false },
    outputs.map (.mesh param))

/-- Without an entry which waits, the source frees the buffer and asserts. -/
def zbNwkMeshInitiateRouteDiscovery (nwk : NwkMain) (param : ℕ) :
    Option (NwkMain × List NwkOutput) :=
  nwk.findWaiting.map fun i =>
    nwk.startDiscovery param i (nwk.packets (nwk.mesh.pendingTable i).buf).dstAddr

def expiryPendingLoop (nwk : NwkMain) : List ℕ → NwkMain × List NwkOutput
  | [] => (nwk, [])
  | i :: rest =>
      let ent := nwk.mesh.pendingTable i
      if ent.used then
        if nwk.pendExpiry i = 0 then
          let (nwk, outputs) :=
            expiryPendingLoop { nwk with mesh := nwk.mesh.putPending i } rest
          (nwk, .freeBuf ent.buf :: outputs)
        else
          expiryPendingLoop
            { nwk with
              pendExpiry := update nwk.pendExpiry i (nwk.pendExpiry i - 1) } rest
      else expiryPendingLoop nwk rest

def zbNwkMeshExpiryPending (nwk : NwkMain) : NwkMain × List NwkOutput :=
  if nwk.mesh.pendingTableCnt ≠ 0 then
    let (nwk, outputs) := nwk.expiryPendingLoop (List.range nwkPendingTableSize)
    (nwk, outputs ++ [.setAlarm .meshExpiryPending])
  else (nwk, [.setAlarm .meshExpiryPending])

def btrExpiryLoop (btt : NwkArray nwkBtrTableSize NwkBtr) :
    List ℕ → NwkArray nwkBtrTableSize NwkBtr
  | [] => btt
  | i :: rest =>
      let ent := btt.ents i
      if btt.used i then
        if ent.expirationTime ≠ 0 then
          btrExpiryLoop (btt.setEnt i
              { ent with expirationTime := ent.expirationTime - 1 }) rest
        else btrExpiryLoop (btt.putEnt i) rest
      else btrExpiryLoop btt rest

def zbNwkBtrExpiry (nwk : NwkMain) : NwkMain × List NwkOutput :=
  if nwk.btt.cnt ≠ 0 then
    ({ nwk with btt := btrExpiryLoop nwk.btt (List.range nwkBtrTableSize) },
      [.setAlarm .nwkBtrExpiry])
  else (nwk, [])

/-- The part of `zb_nwk_do_leave` for a device which does not come back. -/
def forgetNetwork (nwk : NwkMain) : NwkMain :=
  { nwk with
    mesh :=
      { nwk.mesh with
        zg := forgetOwnAddress nwk.mesh.zg nwk.mesh.address
        address := 0xFFFF } }

def zbNwkDoLeave (nwk : NwkMain) (param : ℕ) (rejoin : Bool) :
    NwkMain × List NwkOutput :=
  let nwk :=
    { nwk.setZg { nwk.mesh.zg with joined := false } with
      btt := { nwk.btt with cnt := 0 }
      brrt := { nwk.brrt with cnt := 0 }
      parent := 0xFF }
  if rejoin then (nwk, [.schedule .nlmeJoinRequest param])
  else (nwk.forgetNetwork, [.freeBuf param])

end NwkMain

end Zboss
