import Zboss.BindingTableRefinement
import Zboss.ZdpServer

/-!
# End device bind

Two requests for an end device bind start a chain of requests to bind or to
unbind: a first one to unbind tells whether the chain binds or unbinds, and
each response calls for the next request.  A device is given by its tables;
the coordinator, which has the procedure, is the device at 0.
-/

namespace Zboss

open Function

/-- `ZB_ZDO_PEER_DEVICE_NUM` -/
def BindDev.peer : BindDev → BindDev
  | .dev1 => .dev2
  | .dev2 => .dev1

namespace ZdpFrame

def bindingTarget (frame : ZdpFrame) : ℕ := frame.word 1

def srcEndp (frame : ZdpFrame) : UInt8 := frame.byte 11

def profileId (frame : ZdpFrame) : ℕ := frame.word 12

end ZdpFrame

/-- `zb_zdo_bind_device_info_s`; the request stands for its buffer. -/
structure BindDeviceInfo where
  endDeviceBindParam : Option ZdpInd
  bindingTarget : ℕ
  srcEndp : UInt8
  clusterList : ℕ → ℕ
  clusterNum : ℕ

structure EndDeviceBindCtx where
  bindDeviceInfo : BindDev → BindDeviceInfo
  currentDevice : BindDev

/-- `zb_zdo_bind_unbind_check_cb`, `zb_zdo_end_device_bind_cb` and
`zb_zdo_end_device_unbind_cb` -/
inductive BindCallback where
  | check
  | endDeviceBind
  | endDeviceUnbind

/-- What the procedure waits for: a buffer for `zb_zdo_send_check_bind_unbind`,
the arrival of a request at the device `dst` or of its response at the
coordinator, or a callback which is scheduled. -/
inductive BindJob where
  | outBuf
  | request (dst : ℕ) (req : ApsmeBindingReq) (bind : Bool) (cb : BindCallback)
  | response (status : BindStatus) (cb : BindCallback)
  | scheduled (cb : BindCallback)

inductive BindFate where
  | invalid (ind : ZdpInd)
  | busy (ind : ZdpInd)
  | expired (ind : ZdpInd)
  | pair (first second : ZdpInd)

structure BindOutcome where
  first : ZdpInd
  second : ZdpInd
  before : ℕ → BindingState
  after : ℕ → BindingState

/-- `before` are the tables when the last procedure began, `steps` are counted
from then on. -/
structure EndDeviceBindRun where
  ctx : EndDeviceBindCtx
  bindTimer : Option ZdpInd
  job : Option BindJob
  device : ℕ → BindingState
  responses : List ZdpResp
  received : List ZdpInd
  fates : List BindFate
  ended : List BindOutcome
  before : ℕ → BindingState
  steps : ℕ

/-- `room param` says whether the callback queue takes a callback with this
buffer.  `unset` is what a buffer holds in place of a long address.  `lost`
drops what the procedure waits for, `elsewhere` are changes by others. -/
inductive EndDeviceBindEvent where
  | request (ind : ZdpInd) (room : ℕ → Bool) (alarmRoom : Bool)
  | timer (room : ℕ → Bool)
  | outBuf (unset : IeeeAddr)
  | arrival
  | callback (unset : IeeeAddr)
  | lost
  | elsewhere (device : ℕ → BindingState)

def zbAddressIeeeByShort (g : AddrGlobals) (shortAddr : ℕ) :
    Option (AddrGlobals × Option IeeeAddr) := do
  let (g, ret) ← zbAddressByShort g shortAddr false false
  match ret with
  | .ok ref => some (g, some (zbIeeeAddrDecompress g (g.addrMap ref).ieeeAddr))
  | .error _ => some (g, none)

def BindAccess.storeIn (clusterList : ℕ → ℕ) : BindAccess → ℕ → ℕ
  | .store _ index cluster => update clusterList index cluster
  | .read _ _ => clusterList

namespace EndDeviceBindCtx

def setInfo (ctx : EndDeviceBindCtx) (device : BindDev)
    (info : BindDeviceInfo) : EndDeviceBindCtx :=
  { ctx with
    bindDeviceInfo := update ctx.bindDeviceInfo device info }

def forget (ctx : EndDeviceBindCtx) : EndDeviceBindCtx :=
  { ctx with
    bindDeviceInfo := fun device =>
      { ctx.bindDeviceInfo device with endDeviceBindParam := none } }

def checkClusterList (ctx : EndDeviceBindCtx) (device : BindDev)
    (list1 list2 : ClusterList) : EndDeviceBindCtx :=
  let info := ctx.bindDeviceInfo device
  let (clusterNum, accesses) := Zboss.checkClusterList device list1 list2
  ctx.setInfo device
    { info with
      clusterNum
      clusterList := accesses.foldl BindAccess.storeIn info.clusterList }

/-- Both calls of `check_cluster_list`, for requests with one profile. -/
def checkClusterLists (ctx : EndDeviceBindCtx) (first second : ZdpFrame) :
    EndDeviceBindCtx :=
  if first.profileId = second.profileId then
    (ctx.checkClusterList .dev1 (first.outClusterList .dev1)
      (second.inClusterList .dev2)).checkClusterList .dev2
        (first.inClusterList .dev1) (second.outClusterList .dev2)
  else ctx

def save (ctx : EndDeviceBindCtx) (first second : ZdpInd) :
    EndDeviceBindCtx :=
  let info1 := ctx.bindDeviceInfo .dev1
  let info2 := ctx.bindDeviceInfo .dev2
  (ctx.setInfo .dev1
    { info1 with
      bindingTarget := first.frame.bindingTarget
      srcEndp := first.frame.srcEndp }).setInfo .dev2
    { info2 with
      endDeviceBindParam := some second
      bindingTarget := second.frame.bindingTarget
      srcEndp := second.frame.srcEndp }

end EndDeviceBindCtx

namespace EndDeviceBindRun

def respond (run : EndDeviceBindRun) (inds : List ZdpInd) (status : UInt8)
    (room : ℕ → Bool) : EndDeviceBindRun :=
  { run with
    responses := run.responses ++ (inds.filter fun ind => room ind.param).map
      fun ind => ⟨ZdpCluster.resp ZdpCluster.endDeviceBindReq, status, ind.tsn,
        ind.srcAddr⟩ }

/-- The request which waits in `ZB_ZDO_BIND_DEV_1`. -/
def param1 (run : EndDeviceBindRun) : Option ZdpInd :=
  (run.ctx.bindDeviceInfo .dev1).endDeviceBindParam

def param2 (run : EndDeviceBindRun) : Option ZdpInd :=
  (run.ctx.bindDeviceInfo .dev2).endDeviceBindParam

def answerPair (run : EndDeviceBindRun) (first ind : ZdpInd) (room : ℕ → Bool) :
    Bool → EndDeviceBindRun
  | true =>
      { run with
        ctx := (run.ctx.checkClusterLists first.frame ind.frame).save first ind
        bindTimer := none
        job := some .outBuf
        fates := run.fates ++ [BindFate.pair first ind]
        before := run.device
        steps := 0 }.respond [ind, first] ZdpStatus.success room
  | false =>
      { run with
        ctx := (run.ctx.checkClusterLists first.frame ind.frame).forget
        bindTimer := none
        fates := run.fates ++ [BindFate.pair first ind] }.respond [ind, first]
          ZdpStatus.noMatch room

def zbZdoEndDeviceBindHandler (run : EndDeviceBindRun) (ind : ZdpInd)
    (room : ℕ → Bool) (alarmRoom : Bool) : EndDeviceBindRun :=
  let result := (zdoEndDeviceBindHandler (run.param1.map ZdpInd.frame)
    run.param2.isSome ind.frame).1
  let next := { run with received := run.received ++ [ind] }
  match result with
  | .invalidEp =>
      { next with fates := next.fates ++ [BindFate.invalid ind] }.respond [ind]
        ZdpStatus.invalidEp room
  | .waiting =>
      { next with
        ctx := next.ctx.setInfo .dev1
          { next.ctx.bindDeviceInfo .dev1 with
            endDeviceBindParam := some ind }
        bindTimer := if alarmRoom then some ind else next.bindTimer }
  | .timeout =>
      { next with fates := next.fates ++ [BindFate.busy ind] }.respond [ind]
        ZdpStatus.timeout room
  | .noMatch =>
      match run.param1 with
      | some first => next.answerPair first ind room false
      | none => next
  | .success =>
      match run.param1 with
      | some first => next.answerPair first ind room true
      | none => next

def zbZdoEndDeviceBindTimer (run : EndDeviceBindRun) (ind : ZdpInd)
    (room : ℕ → Bool) : EndDeviceBindRun :=
  { run with
    ctx := run.ctx.forget
    bindTimer := none
    fates := run.fates ++ [BindFate.expired ind] }.respond [ind] ZdpStatus.timeout room

def sendBindUnbindReq (run : EndDeviceBindRun) (targetDev : BindDev)
    (clusterId : ℕ) (cb : BindCallback) (bind : Bool) (unset : IeeeAddr) :
    Option EndDeviceBindRun := do
  let target := run.ctx.bindDeviceInfo targetDev
  let peer := run.ctx.bindDeviceInfo targetDev.peer
  let (addr, srcAddress) ←
    zbAddressIeeeByShort (run.device 0).addr target.bindingTarget
  let (addr, dstAddress) ← zbAddressIeeeByShort addr peer.bindingTarget
  let req : ApsmeBindingReq :=
    { srcAddr := srcAddress.getD unset
      srcEndpoint := target.srcEndp
      clusterid := .ofNat clusterId
      addrMode := apsAddrMode64EndpPresent
      dstAddrLong := dstAddress.getD unset
      dstAddrShort := 0
      dstEndpoint := peer.srcEndp }
  some { run with
    device := update run.device 0 { run.device 0 with addr }
    job := some (.request target.bindingTarget req bind cb) }

def zbZdoSendCheckBindUnbind (run : EndDeviceBindRun) (unset : IeeeAddr) :
    Option EndDeviceBindRun :=
  let currentDevice : BindDev :=
    if (run.ctx.bindDeviceInfo .dev1).clusterNum ≠ 0 then .dev1 else .dev2
  { run with ctx := { run.ctx with currentDevice } }.sendBindUnbindReq
    currentDevice ((run.ctx.bindDeviceInfo currentDevice).clusterList 0) .check
    false unset

def finish (run : EndDeviceBindRun) : EndDeviceBindRun :=
  { run with
    ctx := run.ctx.forget
    job := none
    ended := run.ended ++ run.param1.toList.flatMap fun first =>
      run.param2.toList.map fun second => ⟨first, second, run.before, run.device⟩ }

def sendBindUnbindWithCheck (run : EndDeviceBindRun) (bind : Bool)
    (cb : BindCallback) (unset : IeeeAddr) : Option EndDeviceBindRun :=
  let device := run.ctx.currentDevice
  let info := run.ctx.bindDeviceInfo device
  if info.clusterNum = 0 then
    match device with
    | .dev1 =>
        some { run with
          ctx := { run.ctx with currentDevice := .dev2 }
          job := some (.scheduled cb) }
    -- what `current_device` is behind `ZB_ZDO_BIND_DEV_2` is not read
    | .dev2 => some run.finish
  else
    (run.sendBindUnbindReq device (info.clusterList (info.clusterNum - 1)) cb
      bind unset).map fun run =>
        let ctx := run.ctx.setInfo device
          { info with clusterNum := info.clusterNum - 1 }
        { run with ctx }

def bindUnbindCb (run : EndDeviceBindRun) (status : BindStatus)
    (unset : IeeeAddr) : BindCallback → Option EndDeviceBindRun
  | .check =>
      if status = .invalidBinding then
        run.sendBindUnbindWithCheck true .endDeviceBind unset
      else run.sendBindUnbindWithCheck false .endDeviceUnbind unset
  | .endDeviceBind => run.sendBindUnbindWithCheck true .endDeviceBind unset
  | .endDeviceUnbind => run.sendBindUnbindWithCheck false .endDeviceUnbind unset

def zbZdoBindUnbindRes (run : EndDeviceBindRun) (dst : ℕ)
    (req : ApsmeBindingReq) (bind : Bool) (cb : BindCallback) :
    Option EndDeviceBindRun :=
  let call : BindingCall := if bind then .bind req else .unbind req
  (call.exec (run.device dst)).map fun (addr, binding, status) =>
    { run with
      device := update run.device dst ⟨addr, binding⟩
      job := some (.response status cb) }

def count (run : EndDeviceBindRun) : EndDeviceBindRun :=
  { run with steps := run.steps + 1 }

def step (run : EndDeviceBindRun) : EndDeviceBindEvent → Option EndDeviceBindRun
  | .request ind room alarmRoom => some (run.zbZdoEndDeviceBindHandler ind room alarmRoom)
  | .timer room => run.bindTimer.map fun ind => run.zbZdoEndDeviceBindTimer ind room
  | .outBuf unset =>
      match run.job with
      | some .outBuf => run.count.zbZdoSendCheckBindUnbind unset
      | _ => none
  | .arrival =>
      match run.job with
      | some (.request dst req bind cb) => run.count.zbZdoBindUnbindRes dst req bind cb
      | _ => none
  | .callback unset =>
      match run.job with
      | some (.response status cb) => run.count.bindUnbindCb status unset cb
      | some (.scheduled cb) => run.count.bindUnbindCb .ok unset cb
      | _ => none
  | .lost => run.job.map fun _ => { run with job := none }
  | .elsewhere device => some { run with device }

def start : EndDeviceBindRun where
  ctx :=
    { bindDeviceInfo := fun _ => ⟨none, 0, 0, fun _ => 0, 0⟩
      currentDevice := .dev1 }
  bindTimer := none
  job := none
  device := fun _ => ⟨.zeroed, .zeroed⟩
  responses := []
  received := []
  fates := []
  ended := []
  before := fun _ => ⟨.zeroed, .zeroed⟩
  steps := 0

end EndDeviceBindRun

end Zboss
