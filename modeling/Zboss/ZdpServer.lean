import Zboss.PagedReports
import Zboss.ZdpRequests
import Zboss.ZdpTransactions
import Mathlib.Algebra.Order.Group.Multiset

/-!
# The ZDP server

`zb_zdo_data_indication` in `zdo_rx.c` with the handlers it calls, in
`zdo_disc_srv.c`, `zdo_nwk_manage_srv.c`, `zdo_bind_manage.c` and
`zdo_channel_manager.c`, and the ends of the procedures in which a handler
keeps its buffer.  The build is that of the requests with cluster lists.
-/

namespace Zboss

namespace ZdpStatus

def success : UInt8 := 0x00

def invRequesttype : UInt8 := 0x80

def deviceNotFound : UInt8 := 0x81

def invalidEp : UInt8 := 0x82

def notSupported : UInt8 := 0x84

def timeout : UInt8 := 0x85

def noMatch : UInt8 := 0x86

def noDescriptor : UInt8 := 0x89

def insufficientSpace : UInt8 := 0x8a

def invalidRequest : UInt8 := 0xc2

end ZdpStatus

namespace ZdpCluster

def nwkAddrReq : UInt16 := 0x0000

def ieeeAddrReq : UInt16 := 0x0001

def nodeDescReq : UInt16 := 0x0002

def powerDescReq : UInt16 := 0x0003

def simpleDescReq : UInt16 := 0x0004

def activeEpReq : UInt16 := 0x0005

def matchDescReq : UInt16 := 0x0006

def deviceAnnce : UInt16 := 0x0013

def systemServerDiscoveryReq : UInt16 := 0x0015

def endDeviceBindReq : UInt16 := 0x0020

def bindReq : UInt16 := 0x0021

def unbindReq : UInt16 := 0x0022

def mgmtLqiReq : UInt16 := 0x0031

def mgmtLeaveReq : UInt16 := 0x0034

def mgmtPermitJoining : UInt16 := 0x0036

def mgmtNwkUpdateReq : UInt16 := 0x0038

def systemServerDiscoveryResp : UInt16 := 0x8015

def mgmtNwkUpdateNotify : UInt16 := 0x8038

def resp (req : UInt16) : UInt16 := req ||| 0x8000

def afResps : List UInt16 :=
  [resp nodeDescReq, resp powerDescReq, resp simpleDescReq, resp nwkAddrReq,
    resp ieeeAddrReq, resp activeEpReq, resp matchDescReq, resp mgmtLeaveReq,
    resp mgmtLqiReq, resp bindReq, resp unbindReq, resp endDeviceBindReq]

def answered : List UInt16 :=
  [nodeDescReq, powerDescReq, simpleDescReq, matchDescReq, activeEpReq,
    nwkAddrReq, ieeeAddrReq, mgmtLqiReq, mgmtLeaveReq, bindReq, unbindReq,
    endDeviceBindReq, mgmtNwkUpdateReq]

end ZdpCluster

/-- The buffer of an indication, `zb_apsde_data_indication_t` with the payload
behind the APS header. -/
structure ZdpInd where
  param : ℕ
  fc : UInt8
  srcAddr : ℕ
  clusterId : UInt16
  frame : ZdpFrame

namespace ZdpInd

def tsn (ind : ZdpInd) : UInt8 := ind.frame.byte 0

def deliveryMode (ind : ZdpInd) : UInt8 := (ind.fc >>> 2) &&& 3

def unicast (ind : ZdpInd) : Bool := ind.deliveryMode = 0

def broadcast (ind : ZdpInd) : Bool := ind.deliveryMode = 2

def rawWord (ind : ZdpInd) (index : ℕ) : ℕ :=
  256 * (ind.frame.byte index).toNat + (ind.frame.byte (index + 1)).toNat

end ZdpInd

structure ZdpResp where
  clusterId : UInt16
  status : UInt8
  tsn : UInt8
  dstAddr : ℕ
  deriving DecidableEq

structure UpdNotify where
  status : UInt8
  tsn : UInt8
  dstAddr : ℕ
  deriving DecidableEq

inductive ZdpAct where
  | freeBuf
  | sendResp (resp : ZdpResp)
  | sendReq (clusterId : UInt16)
  | schedule (cb : Option ℕ)
  | localResp (resp : ZdpResp)
  | nlmePermitJoiningRequest
  | nlmeLeaveRequest
  | nlmeEdScanRequest
  | nwkUpdNotify (notify : UpdNotify)
  | channelCheckScanResult
  | nwkDoLeave
  deriving DecidableEq

structure ZdpCall where
  param : ℕ
  act : ZdpAct

/-- What the server reads of the other parts of the stack: the roles of the
build and of the device, `joined_pro`, the addresses, the used rows of the
neighbor table, the descriptors, what is on the stack, and the
transactions. -/
structure ZdpDevice where
  routerRole : Bool
  coordinatorRole : Bool
  deviceType : DeviceType
  joinedPro : Bool
  shortAddress : ℕ
  extendedAddress : List UInt8
  neighbors : List (List UInt8 × ℕ)
  baseNeighborUsed : UInt8
  descs : SimpleDescList
  stack : ℕ → UInt8
  serverMask : ℕ
  currentChannel : ℕ
  zdo : ZdoTransactions

namespace ZdpDevice

def isParent (device : ZdpDevice) : Bool :=
  device.deviceType = .coordinator ∨ device.deviceType = .router

end ZdpDevice

def zdoSendRespByShort (ind : ZdpInd) (status : UInt8) (addr : ℕ) : List ZdpCall :=
  [⟨ind.param, .sendResp ⟨ZdpCluster.resp ind.clusterId, status, ind.tsn, addr⟩⟩]

def zdoAnswer (ind : ZdpInd) (status : UInt8) : List ZdpCall :=
  zdoSendRespByShort ind status ind.srcAddr

/-- `ind->src_addr` when the response has been written to the buffer: the
indication begins at 134 and its address at 135, where the response may reach. -/
def ZdpInd.srcAddrUnder (ind : ZdpInd) (tail : Option UInt8 × Option UInt8) : ℕ :=
  256 * tail.1.elim (ind.srcAddr / 256) UInt8.toNat +
    tail.2.elim (ind.srcAddr % 256) UInt8.toNat

/-- `zdo_send_desc_resp`; the cluster is set for a known address only. -/
def zdoSendDescResp (device : ZdpDevice) (ind : ZdpInd) : List ZdpCall :=
  if device.shortAddress = ind.frame.word 1 then zdoAnswer ind ZdpStatus.success
  else
    let status :=
      if device.coordinatorRole then ZdpStatus.deviceNotFound
      else ZdpStatus.invRequesttype
    [⟨ind.param, .sendResp ⟨0, status, ind.tsn, ind.srcAddr⟩⟩]

namespace SimpleDesc

def numClusters (desc : SimpleDesc) : ℕ :=
  desc.appInputClusters.length + desc.appOutputClusters.length

/-- What `zb_copy_simple_desc` leaves from the last byte of its header on, at 83
of the buffer. -/
def clusterBytes (desc : SimpleDesc) : List UInt8 :=
  let bytes (cluster : ℕ) : List UInt8 :=
    [UInt8.ofNat cluster, UInt8.ofNat (cluster / 256)]
  desc.appInputClusters.flatMap bytes ++ [UInt8.ofNat desc.appOutputClusters.length] ++
    desc.appOutputClusters.flatMap bytes

def overSrcAddr (desc : SimpleDesc) : Option UInt8 × Option UInt8 :=
  (desc.clusterBytes[52]?, desc.clusterBytes[53]?)

end SimpleDesc

/-- The last one which the loop finds. -/
def ZdpDevice.srcDesc (device : ZdpDevice) (ep : UInt8) : Option SimpleDesc :=
  (device.descs.list.filter fun desc => desc.endpoint = ep).getLast?

def zdoSendSimpleDescResp (device : ZdpDevice) (ind : ZdpInd) : List ZdpCall :=
  let ep := ind.frame.byte 3
  if device.shortAddress = ind.frame.word 1 then
    -- the descriptor of the ZDO itself has 15 clusters
    if ep = 0 then zdoAnswer ind ZdpStatus.success
    else
      match device.srcDesc ep with
      | some desc =>
          if 84 + 2 * desc.numClusters ≤ ioBufSize then
            zdoSendRespByShort ind ZdpStatus.success (ind.srcAddrUnder desc.overSrcAddr)
          else
            -- the descriptor runs over the end of the buffer
            []
      | none => zdoAnswer ind ZdpStatus.invalidEp
  else if device.coordinatorRole then zdoAnswer ind ZdpStatus.deviceNotFound
  else zdoAnswer ind ZdpStatus.invRequesttype

def zdoExtendedResponse : UInt8 := 0x01

def unknownShortAddr : ℕ := 0xffff

def ZdpDevice.noAssocDev (device : ZdpDevice) (requestType startIndex : UInt8) : Bool :=
  requestType = zdoExtendedResponse ∧ device.isParent ∧
    device.baseNeighborUsed - startIndex = 0

/-- The search of `zdo_device_nwk_addr_res`, for a single device only. -/
def ZdpDevice.findNwkAddr
    (device : ZdpDevice) (requestType : UInt8) (ieeeAddr : List UInt8) : ℕ :=
  if requestType = 0 then
    if device.extendedAddress = ieeeAddr then device.shortAddress
    else
      match device.neighbors.find? fun row => row.1 = ieeeAddr with
      | some row => row.2
      | none => unknownShortAddr
  else unknownShortAddr

def zdoDeviceNwkAddrRes (device : ZdpDevice) (ind : ZdpInd) : List ZdpCall :=
  let requestType := ind.frame.byte 9
  let nwkAddr := device.findNwkAddr requestType
    ((List.range 8).map fun k => ind.frame.byte (1 + k))
  if nwkAddr = unknownShortAddr ∧ ind.unicast then zdoAnswer ind ZdpStatus.deviceNotFound
  else if zdoExtendedResponse < requestType then zdoAnswer ind ZdpStatus.invRequesttype
  else if device.noAssocDev requestType (ind.frame.byte 10) then [⟨ind.param, .freeBuf⟩]
  else zdoAnswer ind ZdpStatus.success

def zdoDeviceIeeeAddrRes (device : ZdpDevice) (ind : ZdpInd) : List ZdpCall :=
  let requestType := ind.frame.byte 3
  if device.shortAddress ≠ ind.frame.word 1 then
    if ind.unicast then zdoAnswer ind ZdpStatus.deviceNotFound
    else if ind.broadcast then []
    else zdoAnswer ind ZdpStatus.success
  else if zdoExtendedResponse < requestType then zdoAnswer ind ZdpStatus.invRequesttype
  else if device.noAssocDev requestType (ind.frame.byte 4) then [⟨ind.param, .freeBuf⟩]
  else zdoAnswer ind ZdpStatus.success

/-- `zdo_active_ep_res`; the second comparison is with the bytes as they were
received. -/
def zdoActiveEpRes (device : ZdpDevice) (ind : ZdpInd) : List ZdpCall :=
  zdoAnswer ind (if device.shortAddress ≠ ind.frame.word 1 ∧
        device.deviceType = .endDevice then
      ZdpStatus.invRequesttype
    else if device.shortAddress ≠ ind.rawWord 1 then ZdpStatus.deviceNotFound
    else ZdpStatus.success)

def zdoMatchDescResp (device : ZdpDevice) (ind : ZdpInd) : List ZdpCall :=
  zdoAnswer ind (match (zdoMatchDescRes device.shortAddress device.descs device.stack
        ind.frame).status with
    | .success => ZdpStatus.success
    | .noDescriptor => ZdpStatus.noDescriptor)

def zdoSystemServerDiscoveryRes (device : ZdpDevice) (ind : ZdpInd) : List ZdpCall :=
  if ind.frame.word 1 &&& device.serverMask ≠ 0 then zdoAnswer ind ZdpStatus.success
  else [⟨ind.param, .freeBuf⟩]

/-- The header sizes, of which `ZB_IO_BUF_SIZE` is divided by the sum, come to 2
as in `ReportingDevice.lqiHeaderSize`. -/
def ZdpDevice.lqiRecordsNum (device : ZdpDevice) (startIndex : UInt8) : ℕ :=
  ReportingDevice.lqiRecordsNum (ioBufSize / 2) device.baseNeighborUsed.toNat
    startIndex.toNat

/-- The sixth of six records begins at 120: the last byte of its `ext_addr` and
the first one of its `network_addr` lie over the address. -/
def ZdpDevice.lqiOverSrcAddr
    (device : ZdpDevice) (recordsNum : ℕ) : Option UInt8 × Option UInt8 :=
  let sixth := if recordsNum = 6 then device.neighbors[5]? else none
  (sixth.map fun row => row.1.getD 7 0, sixth.map fun row => UInt8.ofNat (row.2 / 256))

def zdoLqiResp (device : ZdpDevice) (ind : ZdpInd) : List ZdpCall :=
  if device.routerRole then
    let recordsNum := device.lqiRecordsNum (ind.frame.byte 1)
    if 4 + recordsNum * 22 ≤ ioBufSize then
      zdoSendRespByShort ind ZdpStatus.success
        (ind.srcAddrUnder (device.lqiOverSrcAddr recordsNum))
    else
      -- the records run over both ends of the buffer
      []
  else zdoAnswer ind ZdpStatus.notSupported

def zdoBindUnbindRes (ind : ZdpInd) : List ZdpCall :=
  zdoAnswer ind ZdpStatus.notSupported

def zdoMgmtPermitJoiningHandle (ind : ZdpInd) : List ZdpCall :=
  [⟨ind.param, .nlmePermitJoiningRequest⟩]

def zdoAfRespCalls (device : ZdpDevice) (ind : ZdpInd) : Option (List ZdpCall) :=
  (device.zdo.zdoAfResp ind.tsn).2.map fun ent => [⟨ind.param, .schedule ent.func⟩]

def zdoSystemServerDiscoveryResp (device : ZdpDevice) (ind : ZdpInd) : List ZdpCall :=
  if ind.tsn = device.zdo.systemServerDiscoveryTsn then
    [⟨ind.param, .schedule device.zdo.systemServerDiscoveryCb⟩]
  else [⟨ind.param, .freeBuf⟩]

structure ChannelSearch where
  newChannelNum : ℕ
  minEnergy : UInt8
  currentEnergy : UInt8
  index : ℕ

def ChannelSearch.look
    (search : ChannelSearch) (ind : ZdpInd) (current i : ℕ) : ChannelSearch :=
  -- `scanned_channels` is not converted
  if (65536 * ind.rawWord 2 + ind.rawWord 4).testBit i then
    let energy := ind.frame.byte search.index
    { newChannelNum := if energy < search.minEnergy then i
        else search.newChannelNum
      minEnergy := if energy < search.minEnergy then energy
        else search.minEnergy
      currentEnergy := if i = current then energy else search.currentEnergy
      index := search.index + 1 }
  else search

def ZdpInd.changesChannel (ind : ZdpInd) (current : ℕ) : Bool :=
  let search := (List.range 16).foldl
    (fun search k => search.look ind current (11 + k))
    (⟨0, 0xff, 0, 11⟩ : ChannelSearch)
  ind.frame.byte 1 = ZdpStatus.success ∧ ind.frame.byte 10 ≠ 0 ∧
    0x60 < search.currentEnergy ∧ search.newChannelNum ≠ 0 ∧
    search.minEnergy < 0x20

/-! ## The server -/

def zdoPendingLeaveSize : ℕ := 4

/-- `zb_leave_pending_list_t` -/
structure PendingLeave where
  used : Bool
  bufRef : ℕ
  tsn : UInt8
  srcAddr : ℕ

structure NwkUpdReq where
  scanCount : UInt8
  dstAddr : ℕ
  tsn : UInt8

/-- The requests in `bind_device_info` by their buffers, with the one the alarm
of `zb_zdo_end_device_bind_timer` is set for; `delayedScans` counts the
callbacks `zb_start_ed_scan` which wait for a buffer. -/
structure ZdpServer where
  pendingList : ℕ → PendingLeave
  pendingListSize : ℕ
  nwkUpdReq : NwkUpdReq
  zdoEdScan : Bool
  channelManagerEdScan : Bool
  sendWithAck : Bool
  channelChanged : Bool
  nwkManagerAddr : ℕ
  delayedScans : ℕ
  bindDev1 : Option ZdpInd
  bindDev2 : Option ZdpInd
  bindTimer : Option ZdpInd

namespace ZdpServer

/-! ### NWK update -/

def startEdScan (server : ZdpServer) (param : ℕ) : ZdpServer × List ZdpCall :=
  ({ server with
    nwkUpdReq := { server.nwkUpdReq with
      scanCount := server.nwkUpdReq.scanCount - 1 } },
    [⟨param, .nlmeEdScanRequest⟩])

def nwkUpdNotify (server : ZdpServer) (param : ℕ) (notify : UpdNotify) :
    ZdpServer × List ZdpCall :=
  let more := notify.status = ZdpStatus.success ∧ server.nwkUpdReq.scanCount ≠ 0
  ({ server with
    sendWithAck := false
    zdoEdScan := decide more
    delayedScans := if more then server.delayedScans + 1 else server.delayedScans },
    [⟨param, if server.sendWithAck then .sendReq ZdpCluster.mgmtNwkUpdateNotify
      else .sendResp ⟨ZdpCluster.mgmtNwkUpdateNotify, notify.status,
        notify.tsn, notify.dstAddr⟩⟩])

def broadcastLowPowerRouter : ℕ := 0xfffb

/-- The answer of `zb_zdo_mgmt_nwk_update_handler`, unless the request comes
from a broadcast address. -/
def nwkUpdateAnswer (server : ZdpServer) (ind : ZdpInd) (status : UInt8) :
    ZdpServer × List ZdpCall :=
  if ind.srcAddr < broadcastLowPowerRouter then
    server.nwkUpdNotify ind.param ⟨status, ind.tsn, ind.srcAddr⟩
  else (server, [])

def mgmtNwkUpdateHandler (server : ZdpServer) (ind : ZdpInd) :
    ZdpServer × List ZdpCall :=
  let scanDuration := ind.frame.byte 5
  let scanCount := ind.frame.byte 6
  if scanDuration = 0xfe then
    -- an alarm changes the channel
    (server, [])
  else if scanDuration = 0xff then ({ server with nwkManagerAddr := ind.frame.word 7 }, [])
  else if scanDuration ≤ 5 then
    if 5 < scanCount then server.nwkUpdateAnswer ind ZdpStatus.invRequesttype
    else if 0 < scanCount then
      { server with
        nwkUpdReq := ⟨scanCount, ind.srcAddr, ind.tsn⟩
        zdoEdScan := true }.startEdScan ind.param
    else server.nwkUpdateAnswer ind ZdpStatus.success
  else if ind.unicast then server.nwkUpdateAnswer ind ZdpStatus.invalidRequest
  else (server, [])

def nlmeEdScanConfirm (server : ZdpServer) (param : ℕ) (status : UInt8) :
    List ZdpCall :=
  if server.zdoEdScan then
    [⟨param, .nwkUpdNotify ⟨status, server.nwkUpdReq.tsn, server.nwkUpdReq.dstAddr⟩⟩]
  else if server.channelManagerEdScan then [⟨param, .channelCheckScanResult⟩]
  else []

/-- `zb_zdo_channel_check_scan_result`; `busy` is the current channel. -/
def channelCheckScanResult
    (server : ZdpServer) (param : ℕ) (busy : Bool) (status : UInt8) :
    ZdpServer × List ZdpCall :=
  let server := { server with channelManagerEdScan := false }
  if busy then
    let server := { server with
      zdoEdScan := true
      nwkUpdReq := ⟨0, server.nwkManagerAddr, 0⟩
      sendWithAck := true }
    (server, server.nlmeEdScanConfirm param status)
  else (server, [⟨param, .freeBuf⟩])

def checkFails (server : ZdpServer) : ZdpServer :=
  { server with
    nwkUpdReq := ⟨1, 0, 0⟩
    channelManagerEdScan := true
    delayedScans := server.delayedScans + 1 }

def zdoChangeChannel (server : ZdpServer) (device : ZdpDevice) (ind : ZdpInd) :
    ZdpServer × List ZdpCall :=
  if ¬ server.channelChanged ∧ ind.changesChannel device.currentChannel then
    ({ server with channelChanged := true },
      [⟨ind.param, .sendReq ZdpCluster.mgmtNwkUpdateReq⟩])
  else (server, [⟨ind.param, .freeBuf⟩])

/-! ### Leave -/

def findLeave (server : ZdpServer) (param : ℕ) : Option ℕ :=
  (List.range server.pendingListSize).find? fun i =>
    (server.pendingList i).used && (server.pendingList i).bufRef = param

def releaseLeave (server : ZdpServer) (i : ℕ) : ZdpServer :=
  { server with
    pendingList := Function.update server.pendingList i
      { server.pendingList i with used := false }
    pendingListSize :=
      if server.pendingListSize = i + 1 then i else server.pendingListSize }

def mgmtLeaveSrv (server : ZdpServer) (ind : ZdpInd) :
    ZdpServer × List ZdpCall :=
  match (List.range zdoPendingLeaveSize).find? fun i => !(server.pendingList i).used with
  | none =>
      let tsn :=
        if ind.frame.dataOffset = (ioBufSize - 1) / 2 then ZdpStatus.insufficientSpace
        else ind.tsn
      (server, [⟨ind.param, .sendResp
        ⟨ZdpCluster.resp ZdpCluster.mgmtLeaveReq, ZdpStatus.insufficientSpace,
          tsn, ind.srcAddr⟩⟩])
  | some i =>
      ({ server with
        pendingListSize := max server.pendingListSize (i + 1)
        pendingList := Function.update server.pendingList i
          ⟨true, ind.param, ind.tsn, ind.srcAddr⟩ },
        [⟨ind.param, .nlmeLeaveRequest⟩])

def tryMgmtLeaveComplete (server : ZdpServer) (param : ℕ) : ZdpServer :=
  match server.findLeave param with
  | some i => server.releaseLeave i
  | none => server

/-- The response to the request in the entry `i`, by `zdo_af_resp` if it is a
request of this device. -/
def mgmtLeaveRsp (server : ZdpServer) (device : ZdpDevice) (i param : ℕ) (status : UInt8) :
    ZdpServer × List ZdpCall :=
  let ent := server.pendingList i
  let resp : ZdpResp :=
    ⟨ZdpCluster.resp ZdpCluster.mgmtLeaveReq, status, ent.tsn, ent.srcAddr⟩
  if ent.srcAddr = device.shortAddress then
    if (device.zdo.zdoAfResp ent.tsn).2.isSome then
      (server.tryMgmtLeaveComplete param, [⟨param, .localResp resp⟩])
    else (server, [])
  else (server, [⟨param, .sendResp resp⟩])

def sendMgmtLeaveRsp
    (server : ZdpServer) (device : ZdpDevice) (i param : ℕ) (status : UInt8)
    (willLeave : Bool) : ZdpServer × List ZdpCall :=
  let (server, calls) := server.mgmtLeaveRsp device i param status
  (if status ≠ 0 ∨ ¬ willLeave then server.releaseLeave i else server, calls)

def nlmeLeaveConfirm (server : ZdpServer) (device : ZdpDevice) (param : ℕ) (status : UInt8)
    (willLeave : Bool) : ZdpServer × List ZdpCall :=
  match server.findLeave param with
  | some i => server.sendMgmtLeaveRsp device i param status willLeave
  | none => (server, [⟨param, if willLeave then .nwkDoLeave else .freeBuf⟩])

/-! ### End device bind -/

def endDeviceBindHandler (server : ZdpServer) (ind : ZdpInd) (room : Bool) :
    ZdpServer × List ZdpCall :=
  let both (status : UInt8) : List ZdpCall :=
    zdoAnswer ind status ++ server.bindDev1.toList.flatMap fun first =>
        zdoAnswer first status
  match (zdoEndDeviceBindHandler (server.bindDev1.map ZdpInd.frame)
      server.bindDev2.isSome ind.frame).1 with
  | .waiting =>
      ({ server with
        bindDev1 := some ind
        bindTimer := if room then some ind else server.bindTimer }, [])
  | .invalidEp => (server, zdoAnswer ind ZdpStatus.invalidEp)
  | .timeout => (server, zdoAnswer ind ZdpStatus.timeout)
  | .noMatch =>
      ({ server with bindDev1 := none, bindDev2 := none, bindTimer := none },
        both ZdpStatus.noMatch)
  | .success =>
      ({ server with bindDev2 := some ind, bindTimer := none }, both ZdpStatus.success)

def endDeviceBindTimer (server : ZdpServer) (ind : ZdpInd) :
    ZdpServer × List ZdpCall :=
  ({ server with bindDev1 := none, bindDev2 := none, bindTimer := none },
    zdoAnswer ind ZdpStatus.timeout)

/-! ### Indications -/

def zdoDataIndication
    (server : ZdpServer) (device : ZdpDevice) (ind : ZdpInd) (room : Bool) :
    ZdpServer × List ZdpCall :=
  let free : List ZdpCall := [⟨ind.param, .freeBuf⟩]
  let cluster := ind.clusterId
  if device.routerRole ∧ cluster = ZdpCluster.deviceAnnce ∧ ¬ device.joinedPro then
    -- `zdo_device_annce_srv` leaves the buffer alone
    (server, free)
  else if cluster = ZdpCluster.nodeDescReq ∧ cluster = ZdpCluster.powerDescReq then
    (server, zdoSendDescResp device ind)
  else if cluster = ZdpCluster.simpleDescReq then
    (server, zdoSendSimpleDescResp device ind)
  else if cluster = ZdpCluster.nwkAddrReq then (server, zdoDeviceNwkAddrRes device ind)
  else if cluster = ZdpCluster.ieeeAddrReq then (server, zdoDeviceIeeeAddrRes device ind)
  else if cluster = ZdpCluster.activeEpReq then (server, zdoActiveEpRes device ind)
  else if cluster = ZdpCluster.matchDescReq then (server, zdoMatchDescResp device ind)
  else if cluster = ZdpCluster.mgmtNwkUpdateReq then server.mgmtNwkUpdateHandler ind
  else if cluster = ZdpCluster.systemServerDiscoveryReq then
    (server, zdoSystemServerDiscoveryRes device ind)
  else if cluster = ZdpCluster.mgmtLqiReq then (server, zdoLqiResp device ind)
  else if cluster = ZdpCluster.mgmtLeaveReq then server.mgmtLeaveSrv ind
  else if cluster = ZdpCluster.bindReq then (server, zdoBindUnbindRes ind)
  else if cluster = ZdpCluster.unbindReq then (server, zdoBindUnbindRes ind)
  else if cluster = ZdpCluster.endDeviceBindReq then server.endDeviceBindHandler ind room
  else if cluster = ZdpCluster.mgmtPermitJoining then
    if device.routerRole then
      (server, if device.joinedPro then free else zdoMgmtPermitJoiningHandle ind)
    else (server, [])
  else if cluster ∈ ZdpCluster.afResps then (server, (zdoAfRespCalls device ind).getD free)
  else if cluster = ZdpCluster.systemServerDiscoveryResp then
    (server, zdoSystemServerDiscoveryResp device ind)
  else if cluster = ZdpCluster.mgmtNwkUpdateNotify then
    match zdoAfRespCalls device ind with
    | some calls => (server, calls)
    | none => server.zdoChangeChannel device ind
  else (server, free)

end ZdpServer

structure ZdpAsker where
  addr : ℕ
  tsn : UInt8
  deriving DecidableEq

structure ZdpOwed where
  param : ℕ
  asker : Option ZdpAsker
  deriving DecidableEq

inductive ZdpStage where
  | leaving
  | scanning
  | notifying (notify : UpdNotify)
  | checking
  deriving DecidableEq

def ZdpStage.isNotifying : ZdpStage → Bool
  | .notifying _ => true
  | _ => false

namespace ZdpAct

def queued : ZdpAct → Bool
  | .freeBuf => false
  | .nwkDoLeave => false
  | _ => true

def stage : ZdpAct → Option ZdpStage
  | .nlmeLeaveRequest => some .leaving
  | .nlmeEdScanRequest => some .scanning
  | .nwkUpdNotify notify => some (.notifying notify)
  | .channelCheckScanResult => some .checking
  | _ => none

def disposes (act : ZdpAct) : Bool :=
  act.stage.isNone && decide (act ≠ .schedule none)

def answers (act : ZdpAct) (asker : ZdpAsker) : Bool :=
  match act with
  | .sendResp resp => resp.dstAddr = asker.addr ∧ resp.tsn = asker.tsn
  | .localResp resp => resp.dstAddr = asker.addr ∧ resp.tsn = asker.tsn
  | _ => false

end ZdpAct

/-- A unicast request which has a response: the requests to set the channel or
the channel mask have none. -/
def ZdpInd.needsResp (ind : ZdpInd) : Bool :=
  ind.unicast ∧ ind.clusterId ∈ ZdpCluster.answered ∧
    ¬ (ind.clusterId = ZdpCluster.mgmtNwkUpdateReq ∧
      (ind.frame.byte 5 = 0xfe ∨ ind.frame.byte 5 = 0xff))

def ZdpInd.owed (ind : ZdpInd) : ZdpOwed :=
  ⟨ind.param, if ind.needsResp then some ⟨ind.srcAddr, ind.tsn⟩ else none⟩

def ZdpServer.waiting (server : ZdpServer) : List ZdpOwed :=
  if server.bindDev2.isSome then [] else server.bindDev1.toList.map ZdpInd.owed

/-- `room param` says whether the callback queue takes a callback with this
buffer.  `zdoCtx` is a write of another part of the stack to the union which
`nwk_upd_req` is in. -/
inductive ZdpServerEvent where
  | dataIndication (device : ZdpDevice) (ind : ZdpInd) (room : ℕ → Bool) (alarmRoom : Bool)
  | leaveConfirm (device : ZdpDevice) (param : ℕ) (status : UInt8)
      (willLeave : Bool) (room : ℕ → Bool)
  | leaveComplete (param : ℕ)
  | startEdScan (param : ℕ) (room : ℕ → Bool)
  | edScanConfirm (param : ℕ) (status : UInt8) (room : ℕ → Bool)
  | nwkUpdNotify (param : ℕ) (room : ℕ → Bool)
  | channelCheckScanResult (param : ℕ) (busy : Bool) (status : UInt8) (room : ℕ → Bool)
  | checkFails
  | zdoCtx (nwkUpdReq : NwkUpdReq)
  | channelChangeTimer
  | endDeviceBindTimer (room : ℕ → Bool)
  | endDeviceBindDone

def ZdpServerEvent.issued : ZdpServerEvent → Multiset ℕ
  | .dataIndication _ ind _ _ => {ind.param}
  | .startEdScan param _ => {param}
  | _ => 0

/-- `held` are the buffers in a procedure or with a scheduled callback of the
server, `unanswered` are the requests which ended without a response. -/
structure ZdpServerRun where
  server : ZdpServer
  held : List (ZdpOwed × ZdpStage)
  unanswered : List ZdpAsker

namespace ZdpServerRun

def bufs (run : ZdpServerRun) : Multiset ℕ :=
  ↑(run.held.map fun entry => entry.1.param) + ↑(run.server.waiting.map ZdpOwed.param)

def finish (run : ZdpServerRun) (server : ZdpServer) (ended : List ZdpOwed)
    (calls : List ZdpCall) (room : ℕ → Bool) : ZdpServerRun × Multiset ℕ :=
  let done := calls.filter fun call => !call.act.queued || room call.param
  let kept := ended.flatMap fun owed => done.filterMap fun call =>
    if call.param = owed.param then call.act.stage.map fun stage => (owed, stage) else none
  let lacking := ended.filter fun owed => !kept.any fun entry => entry.1 = owed
  ({ server
     held := run.held ++ kept
     unanswered := run.unanswered ++ (lacking.filterMap ZdpOwed.asker).filter
       fun asker => !done.any fun call => call.act.answers asker },
    ↑((done.filter fun call => call.act.disposes).map ZdpCall.param))

def take (run : ZdpServerRun) (param : ℕ) (isStage : ZdpStage → Bool) :
    Option (ZdpServerRun × ZdpOwed × ZdpStage) :=
  (run.held.find? fun entry =>
    entry.1.param = param && isStage entry.2).map fun entry =>
      ({ run with held := run.held.erase entry }, entry)

def step (run : ZdpServerRun) : ZdpServerEvent → Option (ZdpServerRun × Multiset ℕ)
  | .dataIndication device ind room alarmRoom =>
      let (server, calls) := run.server.zdoDataIndication device ind alarmRoom
      some (run.finish server
        ((ind.owed :: run.server.waiting).diff server.waiting) calls room)
  | .leaveConfirm device param status willLeave room =>
      (run.take param (· = .leaving)).map fun (run, owed, _) =>
        let (server, calls) := run.server.nlmeLeaveConfirm device param status willLeave
        run.finish server [owed] calls room
  | .leaveComplete param =>
      some ({ run with server := run.server.tryMgmtLeaveComplete param }, 0)
  | .startEdScan param room =>
      if 0 < run.server.delayedScans then
        let (server, calls) := { run.server with
          delayedScans := run.server.delayedScans - 1 }.startEdScan param
        some (run.finish server [⟨param, none⟩] calls room)
      else none
  | .edScanConfirm param status room =>
      (run.take param (· = .scanning)).map fun (run, owed, _) =>
        run.finish run.server [owed] (run.server.nlmeEdScanConfirm param status)
          room
  | .nwkUpdNotify param room =>
      match run.take param ZdpStage.isNotifying with
      | some (run, owed, .notifying notify) =>
          let (server, calls) := run.server.nwkUpdNotify param notify
          some (run.finish server [owed] calls room)
      | _ => none
  | .channelCheckScanResult param busy status room =>
      (run.take param (· = .checking)).map fun (run, owed, _) =>
        let (server, calls) := run.server.channelCheckScanResult param busy status
        run.finish server [owed] calls room
  | .checkFails => some ({ run with server := run.server.checkFails }, 0)
  | .zdoCtx nwkUpdReq => some ({ run with server := { run.server with nwkUpdReq } }, 0)
  | .channelChangeTimer =>
      some ({ run with server := { run.server with channelChanged := false } }, 0)
  | .endDeviceBindTimer room =>
      run.server.bindTimer.map fun ind =>
        let (server, calls) := run.server.endDeviceBindTimer ind
        run.finish server run.server.waiting calls room
  | .endDeviceBindDone =>
      if run.server.bindDev2.isSome then
        some ({ run with server := { run.server with
          bindDev1 := none
          bindDev2 := none } }, 0)
      else none

def start : ZdpServerRun where
  server :=
    { pendingList := fun _ => ⟨false, 0, 0, 0⟩
      pendingListSize := 0
      nwkUpdReq := ⟨0, 0, 0⟩
      zdoEdScan := false
      channelManagerEdScan := false
      sendWithAck := false
      channelChanged := false
      nwkManagerAddr := 0
      delayedScans := 0
      bindDev1 := none
      bindDev2 := none
      bindTimer := none }
  held := []
  unanswered := []

end ZdpServerRun

end Zboss
