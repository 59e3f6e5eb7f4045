import Zboss.LeaveRequests
import Zboss.NetworkKeys
import Zboss.RejoinProcedure
import Zboss.RouteCommandBuffers

/-!
# Received commands

The command branch of `nwk_frame_indication` with `zb_nwk_leave_handler`,
`zb_aps_in_command_handle` with the handlers of `apsme_secur.c`, and the two
indications in `zdo_secur.c`, with what each does with the buffer of the
command.  Functions some `none` where the source asserts or follows a
pointer to no entry.
-/

namespace Zboss

structure LeavePayload where
  request : Bool
  removeChildren : Bool
  rejoin : Bool

inductive ReceivedNwkCommand where
  | routeRequest (frame : MeshFrame) (cmd : NwkCmdRreq)
  | routeReply (frame : MeshFrame) (cmd : NwkCmdRrep)
  | networkStatus (status networkAddr : ℕ)
  | leave (srcAddr : ℕ) (payload : LeavePayload)
  | rejoinRequest (frame : RejoinFrame)
  | rejoinResponse (frame : RejoinResponseFrame)
  | networkReport (report : NwkReportCmd) (draws : List UInt16)
  | networkUpdate (upd : NwkUpdateCmd)
  | unknown (commandId : ℕ)

/-- `zb_transport_key_nwk_key_dsc_pkt_t`, of a standard network key or of
another type. -/
structure TransportKeyCmd where
  standardNetworkKey : Bool
  destAddress : IeeeAddr
  sourceAddress : IeeeAddr
  key : CcmKey
  seqNumber : UInt8

inductive UpdateDeviceStatus where
  | securedRejoin
  | unsecuredJoin
  | deviceLeft
  | unsecuredRejoin
  | reserved
  deriving DecidableEq

structure UpdateDeviceInd where
  srcAddress : Option IeeeAddr
  deviceAddress : IeeeAddr
  deviceShortAddress : ℕ
  status : UpdateDeviceStatus

inductive ReceivedApsCommand where
  | transportKey (cmd : TransportKeyCmd)
  | updateDevice (srcAddr : ℕ) (deviceAddress : IeeeAddr)
      (deviceShortAddress : ℕ) (status : UpdateDeviceStatus)
  | removeDevice (srcAddr : ℕ) (childAddress : IeeeAddr)
  | requestKey (srcAddr keyType : ℕ)
  | switchKey (srcAddr : ℕ) (keySeqNumber : UInt8)
  | unknown (commandId : ℕ)

inductive CommandTask where
  | nwkForward
  | nldeDataRequest
  | apsdeDataRequest
  | nlmeLeaveIndication
  | nlmeRouteDiscoveryConfirm
  | nlmeStatusIndication
  | sendNwkUpdate
  | mlmeRequest
  | rejoin (callback : RejoinCallback)
  | transportKeyIndication (ind : TransportKeyIndication)
  | updateDeviceIndication (ind : UpdateDeviceInd)
  | removeDeviceIndication (srcAddress : Option IeeeAddr) (childAddress : IeeeAddr)
  | requestKeyIndication (srcAddress : Option IeeeAddr) (keyType : ℕ)
  | switchKeyIndication (srcAddress : Option IeeeAddr) (keySeqNumber : UInt8)
  | transportKeyRequest (parentAddress : Option IeeeAddr)
      (destAddress : IeeeAddr) (key : Option (CcmKey × UInt8))
  | removeDevice (parentAddress : Option IeeeAddr) (childAddress : IeeeAddr)

inductive Disposal where
  | freed
  | passed (task : CommandTask)

/-- What the handlers use.  `mesh.zg` are the globals, and the state of the
network layer and the update identifier are those in `panid`; `procedure` is
the rest of the rejoin procedure, and `inBufRequests` counts the buffers which
`zb_nwk_leave_ind_prnt` waits for. -/
structure CommandDevice where
  role : StackRole
  deviceType : DeviceType
  mesh : MeshRouter
  nib : TreeNib
  securityLevel : ℕ
  rejoinReqTable : ℕ → ℕ
  rejoinReqTableCnt : ℕ
  panid : PanidDevice
  procedure : RejoinNwk
  inBufRequests : ℕ
  rejoinAfterLeave : Bool
  allowAuth : Bool

def MeshOutput.disposal : MeshOutput → Option Disposal
  | .sendRreq _ _ _ _ | .sendRrep _ _ _ => some (.passed .nwkForward)
  | .discoveryConfirm _ => some (.passed .nlmeRouteDiscoveryConfirm)
  | .freeBuf => some .freed
  | .forwardPending _ _ | .discoveryFailed | .scheduleExpiry => none

def PanidCall.disposal : PanidCall → Option Disposal
  | .freeBuf _ => some .freed
  | .callback .sendNwkUpdate _ => some (.passed .sendNwkUpdate)
  | .callback (.nwkForward _) _ => some (.passed .nwkForward)
  | .callback (.nlmeStatusIndication _) _ => some (.passed .nlmeStatusIndication)
  | .callback (.mlmeStartRequest _) _ | .callback .mlmeStartConfirm _ =>
      some (.passed .mlmeRequest)
  | .alarm (.sendNetworkReport _) => some (.passed .nwkForward)
  | .alarm .setPanid | .getOutBuf _ => none

namespace CommandDevice

def zg (device : CommandDevice) : Globals := device.mesh.zg

def setZg (device : CommandDevice) (zg : Globals) : CommandDevice :=
  { device with mesh := { device.mesh with zg := zg } }

def joinedPro (device : CommandDevice) : Bool := device.panid.joinedPro

def rejoinRouter (device : CommandDevice) : RejoinRouter where
  zg := device.zg
  nib := device.nib
  securityLevel := device.securityLevel
  rejoinReqTable := device.rejoinReqTable
  rejoinReqTableCnt := device.rejoinReqTableCnt

def setRejoinRouter (device : CommandDevice) (router : RejoinRouter) : CommandDevice :=
  { device.setZg router.zg with
    nib := router.nib
    rejoinReqTable := router.rejoinReqTable
    rejoinReqTableCnt := router.rejoinReqTableCnt }

def rejoinNwk (device : CommandDevice) : RejoinNwk :=
  { device.procedure with
    role := device.role
    state := device.panid.state
    updateId := device.panid.updateId
    extendedAddress := device.zg.extendedAddress
    callbacks := [] }

def setRejoinNwk (device : CommandDevice) (nwk : RejoinNwk) : CommandDevice :=
  let joined := device.panid.joined || decide (nwk.state ≠ device.panid.state)
  { device.setZg { device.zg with joined := joined } with
    procedure := nwk
    panid := { device.panid with state := nwk.state, joined := joined } }

/-- `zb_nwk_leave_handler` for a sender in the neighbor table. -/
def leaveFromNeighbor (device : CommandDevice) (nbt : NeighborTblEnt) (lp : LeavePayload) :
    CommandDevice × List Disposal :=
  if nbt.relationship ≠ .parent ∧ (lp.request ∨
        (device.role = .router ∧ device.deviceType = .endDevice)) then
    (device, [.freed])
  else if nbt.relationship = .parent then
    let device :=
      if lp.request then device
      else { device with inBufRequests := device.inBufRequests + 1 }
    if device.role = .router ∧ (lp.request ∨ lp.removeChildren) ∧
        device.deviceType ≠ .endDevice then
      ({ device with rejoinAfterLeave := lp.rejoin }, [.passed .nwkForward])
    else (device, [.passed .nlmeLeaveIndication])
  else (device, [.passed .nlmeLeaveIndication])

def zbNwkLeaveHandler (device : CommandDevice) (srcAddr : ℕ) (lp : LeavePayload) :
    Option (CommandDevice × List Disposal) := do
  let (addr, ret) ← zbAddressByShort device.zg.addr srcAddr false false
  let device := device.setZg { device.zg with addr := addr }
  match ret with
  | .error _ => some (device, [.freed])
  | .ok addrRef =>
      let n := device.zg.neighbor.addrToNeighbor addrRef
      if n = noNeighbor then
        if device.role = .router ∧ lp.request = false then
          some (device.setZg { device.zg with addr := zbAddressDelete addr addrRef },
              [.freed])
        else some (device, [.freed])
      else some (device.leaveFromNeighbor (device.zg.neighbor.baseNeighbor n) lp)

/-- The command branch of `nwk_frame_indication`. -/
def nwkCommandIndication (device : CommandDevice) (param : ℕ) :
    ReceivedNwkCommand → Option (CommandDevice × List Disposal)
  | .leave srcAddr lp => device.zbNwkLeaveHandler srcAddr lp
  | .routeRequest frame cmd =>
      if device.role = .router ∧ device.joinedPro = false then
        let (mesh, outputs) := zbNwkMeshRreqHandler device.mesh frame cmd
        some ({ device with mesh := mesh }, outputs.filterMap (·.disposal))
      else some (device, [.freed])
  | .routeReply frame cmd =>
      if device.role = .router ∧ device.joinedPro = false then
        let (mesh, outputs) := zbNwkMeshRrepHandler device.mesh frame cmd
        some ({ device with mesh := mesh }, outputs.filterMap (·.disposal))
      else some (device, [.freed])
  | .rejoinRequest frame =>
      if device.role = .router ∧ device.joinedPro = false then
        (zbNlmeRejoinRequest device.rejoinRouter frame).map fun (router, response) =>
            (device.setRejoinRouter router,
              [if response.isSome then .passed .nwkForward else .freed])
      else some (device, [.freed])
  | .networkReport report draws =>
      if device.role = .router then
        (nwkReportIndication draws device.panid param report).map fun (panid, calls) =>
            ({ device with panid := panid }, calls.filterMap (·.disposal))
      else some (device, [.freed])
  | .networkStatus _ _ =>
      if device.role = .router then some (device, [.passed .nlmeStatusIndication])
      else some (device, [.freed])
  | .rejoinResponse frame =>
      (device.rejoinNwk.nlmeRejoinResponse param frame).map fun (nwk, freed) =>
          (device.setRejoinNwk nwk, freed.map (fun _ => .freed) ++
              nwk.callbacks.map (fun callback => .passed (.rejoin callback.1)))
  | .networkUpdate upd =>
      let (panid, calls) := nwkUpdateIndication device.role device.panid param upd
      some ({ device with panid := panid }, calls.filterMap (·.disposal))
  | .unknown _ => some (device, [.freed])

def ieeeByShort (device : CommandDevice) (shortAddr : ℕ) :
    Option (CommandDevice × Option IeeeAddr) := do
  let (addr, ret) ← zbAddressByShort device.zg.addr shortAddr false false
  let device := device.setZg { device.zg with addr := addr }
  match ret with
  | .ok ref => some (device, some (zbIeeeAddrDecompress addr (addr.addrMap ref).ieeeAddr))
  | .error _ => some (device, none)

def passKeyToChild (device : CommandDevice) (destAddress : IeeeAddr) :
    Option (CommandDevice × List Disposal) := do
  let (zg, row) ← zbNwkNeighborGetByIeee device.zg destAddress
  let device := device.setZg zg
  match row with
  | none => some (device, [.freed])
  | some n =>
      let nbe := zg.neighbor.baseNeighbor n
      if nbe.relationship = .unauthenticatedChild ∨ nbe.relationship = .child then
        some (device.setZg
            { zg with
              neighbor := zg.neighbor.setRow n { nbe with relationship := .child } },
            [.passed .nldeDataRequest])
      else some (device, [.freed])

def zbApsInTransportKey (device : CommandDevice) (cmd : TransportKeyCmd) :
    Option (CommandDevice × List Disposal) :=
  if cmd.standardNetworkKey then
    if cmd.destAddress = device.zg.extendedAddress ∨ cmd.destAddress = .zero then
      some (device, [.passed (.transportKeyIndication
              { standardNetworkKey := true
                srcAddress := cmd.sourceAddress
                key := cmd.key
                keySeqNumber := cmd.seqNumber })])
    else
      match device.role with
      | .router => device.passKeyToChild cmd.destAddress
      | .endDevice => some (device, [])
  else some (device, [])

def zbApsInUpdateDevice (device : CommandDevice) (srcAddr : ℕ) (deviceAddress : IeeeAddr)
    (deviceShortAddress : ℕ) (status : UpdateDeviceStatus) :
    Option (CommandDevice × List Disposal) := do
  let (device, srcAddress) ← device.ieeeByShort srcAddr
  let (addr, _) ←
    zbAddressUpdate device.zg.addr deviceAddress deviceShortAddress false
  some (device.setZg { device.zg with addr := addr }, [.passed (.updateDeviceIndication
          ⟨srcAddress, deviceAddress, deviceShortAddress, status⟩)])

def zbApsInCommandHandle (device : CommandDevice) :
    ReceivedApsCommand → Option (CommandDevice × List Disposal)
  | .transportKey cmd =>
      if device.joinedPro then some (device, [])
      else device.zbApsInTransportKey cmd
  | .updateDevice srcAddr deviceAddress deviceShortAddress status =>
      match device.role with
      | .router =>
          if device.joinedPro then some (device, [])
          else
            device.zbApsInUpdateDevice srcAddr deviceAddress deviceShortAddress
              status
      | .endDevice => some (device, [.freed])
  | .removeDevice srcAddr childAddress =>
      match device.role with
      | .router =>
          if device.joinedPro then some (device, [])
          else
            (device.ieeeByShort srcAddr).map fun (device, srcAddress) =>
              (device, [.passed (.removeDeviceIndication srcAddress childAddress)])
      | .endDevice => some (device, [.freed])
  | .requestKey srcAddr keyType =>
      match device.role with
      | .router =>
          if device.joinedPro then some (device, [])
          else
            (device.ieeeByShort srcAddr).map fun (device, srcAddress) =>
              (device, [.passed (.requestKeyIndication srcAddress keyType)])
      | .endDevice => some (device, [.freed])
  | .switchKey srcAddr keySeqNumber =>
      match device.role with
      | .router => some (device, [.freed])
      | .endDevice =>
          (device.ieeeByShort srcAddr).map fun (device, srcAddress) =>
            (device, [.passed (.switchKeyIndication srcAddress keySeqNumber)])
  | .unknown _ => some (device, [.freed])

/-- `zb_apsme_transport_key_indication` -/
def zdoTransportKeyIndication (device : CommandDevice) (ind : TransportKeyIndication) :
    Option (CommandDevice × List Disposal) :=
  (zbApsmeTransportKeyIndication device.zg ind).map fun zg =>
    (device.setZg zg, [if ind.standardNetworkKey && !device.zg.authenticated then
        .passed .apsdeDataRequest
      else .freed])

def findLeft (zg : Globals) (ind : UpdateDeviceInd) :
    Option (Globals × Option ℕ) := do
  let (addr, ret) ← zbAddressByShort zg.addr ind.deviceShortAddress false false
  match ret with
  | .ok addrRef => some ({ zg with addr := addr }, some addrRef)
  | .error _ => do
      let (addr, ret) ← zbAddressByIeee addr ind.deviceAddress false false
      some ({ zg with addr := addr }, ret.toOption)

def keyForStatus (nib : Nib) : UpdateDeviceStatus → Option (CcmKey × UInt8)
  | .securedRejoin => some (emptyKey, 0)
  | .unsecuredJoin | .unsecuredRejoin =>
      some ((nib.securMaterialSet nib.activeSecurMaterialI).key, nib.activeKeySeqNumber)
  | .deviceLeft | .reserved => none

/-- `zb_apsme_update_device_indication` -/
def zdoUpdateDeviceIndication (device : CommandDevice) (ind : UpdateDeviceInd) :
    Option (CommandDevice × List Disposal) :=
  if ind.status = .deviceLeft then
    (findLeft device.zg ind).map fun (zg, found) =>
      match found with
      | some addrRef => (device.setZg (forgetDevice zg addrRef), [.freed])
      | none => (device.setZg zg, [])
  else
    some (device, [.passed (if device.allowAuth then
            .transportKeyRequest ind.srcAddress ind.deviceAddress
              (keyForStatus device.zg.nib ind.status)
          else .removeDevice ind.srcAddress ind.deviceAddress)])

end CommandDevice

end Zboss
