import Zboss.ZdpServer

/-!
# The shared context of the ZDO procedures

Energy scans for Mgmt_NWK_Update_req, the checks of the channel manager, network
discovery and the look-up of a short address keep their contexts in the union
`zdo_ctx`.  How its members overlap is left to a layout.  Callbacks which are
scheduled run in any order.
-/

namespace Zboss

/-- `nwk_upd_req` -/
structure NwkUpdReqCtx where
  scanChannels : UInt32
  scanDuration : UInt8
  scanCount : UInt8
  dstAddr : UInt16
  tsn : UInt8

/-- A null callback is 0. -/
structure GetShortAddrCtx where
  dstAddrRef : UInt8
  cb : UInt16
  param : UInt8

/-- What is scheduled when the response arrives. -/
def GetShortAddrCtx.calls (ctx : GetShortAddrCtx) : List (UInt16 × UInt8) :=
  if ctx.cb = 0 then [] else [(ctx.cb, ctx.param)]

/-- `zb_zdo_ctx_u` with `M` as its memory.  A member reads as it was written;
what the others read then is not said. -/
structure ZdoCtxLayout (M : Type) where
  nwkUpdReq : M → NwkUpdReqCtx
  setNwkUpdReq : M → NwkUpdReqCtx → M
  discCount : M → UInt8
  setDiscCount : M → UInt8 → M
  shortAddr : M → GetShortAddrCtx
  setShortAddr : M → GetShortAddrCtx → M
  nwkUpdReq_set : ∀ mem ctx, nwkUpdReq (setNwkUpdReq mem ctx) = ctx
  discCount_set : ∀ mem count, discCount (setDiscCount mem count) = count
  shortAddr_set : ∀ mem ctx, shortAddr (setShortAddr mem ctx) = ctx

structure NwkUpdateReq where
  srcAddr : UInt16
  unicast : Bool
  tsn : UInt8
  scanChannels : UInt32
  scanDuration : UInt8
  scanCount : UInt8
  nwkManagerAddr : UInt16

/-- `zb_zdo_mgmt_nwk_update_notify_param_t` -/
structure EdScanNotify where
  status : UInt8
  scannedChannels : UInt32
  tsn : UInt8
  dstAddr : UInt16

inductive ZdoProcedure where
  | scan (req : NwkUpdateReq)
  | check
  | discovery
  | lookUp (ctx : GetShortAddrCtx)
  | answer

/-- What a procedure waits for: a buffer for `zb_start_ed_scan`, the end of the
scan, `zb_zdo_nwk_upd_notify` or `zb_zdo_channel_check_scan_result` which is
scheduled, a discovery scan, a buffer for `zb_get_peer_short_addr`, or the
response. -/
inductive ZdoJob where
  | startEdScan
  | edScan (scanChannels : UInt32) (scanDuration : UInt8)
  | nwkUpdNotify (notify : EdScanNotify)
  | channelCheck
  | discoveryScan
  | getPeerShortAddr
  | shortAddrResp (dstAddrRef : UInt8)

structure ZdoThread where
  procedure : ZdoProcedure
  job : Option ZdoJob
  notified : List EdScanNotify
  called : List (UInt16 × UInt8)

/-- `owner` is the procedure which has begun last, `wrapped` tells that the scan
count was decremented at 0. -/
structure ZdoCtxRun (M : Type) where
  ctx : M
  zdoEdScan : Bool
  channelManagerEdScan : Bool
  sendWithAck : Bool
  checkFails : Bool
  nwkManagerAddr : UInt16
  threads : List ZdoThread
  owner : Option ℕ
  wrapped : Bool

/-- `reqTsn` is what `zdo_send_req` takes for a notification which is sent with an
acknowledgement. -/
inductive ZdoCtxEvent where
  | mgmtNwkUpdate (req : NwkUpdateReq) (reqTsn : UInt8)
  | startEdScan (i : ℕ)
  | edScanConfirm (i : ℕ) (status : UInt8) (unscannedChannels : UInt32)
  | nwkUpdNotify (i : ℕ) (reqTsn : UInt8)
  | checkFails (failing : Bool)
  | channelCheckTimer
  | channelCheckScanResult (i : ℕ) (busy : Bool) (status : UInt8)
      (unscannedChannels : UInt32)
  | networkDiscovery (nwkScanAttempts : UInt8)
  | discoveryConfirm (i : ℕ)
  | startGetPeerShortAddr (ctx : GetShortAddrCtx)
  | getPeerShortAddr (i : ℕ)
  | peerShortAddr (i : ℕ)

namespace ZdoCtxRun

variable {M : Type} (layout : ZdoCtxLayout M)

def begin (run : ZdoCtxRun M) (ctx : M) (procedure : ZdoProcedure)
    (job : ZdoJob) : ZdoCtxRun M :=
  { run with
    ctx
    threads := run.threads ++ [⟨procedure, some job, [], []⟩]
    owner := some run.threads.length }

def setThread (run : ZdoCtxRun M) (i : ℕ) (thread : ZdoThread) :
    ZdoCtxRun M :=
  { run with threads := run.threads.set i thread }

def zbStartEdScan (run : ZdoCtxRun M) (i : ℕ) (thread : ZdoThread) :
    ZdoCtxRun M :=
  let req := layout.nwkUpdReq run.ctx
  { run.setThread i { thread with
      job := some (.edScan req.scanChannels req.scanDuration) } with
    ctx := layout.setNwkUpdReq run.ctx { req with scanCount := req.scanCount - 1 }
    wrapped := run.wrapped || req.scanCount = 0 }

/-- What `zb_zdo_nwk_upd_notify` does besides sending: whether it goes on with
another scan. -/
def scansAgain (run : ZdoCtxRun M) (notify : EdScanNotify) : Bool :=
  notify.status = ZdpStatus.success ∧ (layout.nwkUpdReq run.ctx).scanCount ≠ 0

def zbZdoNwkUpdNotify (run : ZdoCtxRun M) (thread : ZdoThread) (notify : EdScanNotify)
    (reqTsn : UInt8) : ZdoCtxRun M × ZdoThread :=
  let more := run.scansAgain layout notify
  let sent := if run.sendWithAck then { notify with tsn := reqTsn } else notify
  ({ run with
      zdoEdScan := more
      sendWithAck := false },
    { thread with
      job := if more then some .startEdScan else none
      notified := thread.notified ++ [sent] })

/-- The answer of `zb_zdo_mgmt_nwk_update_handler`, unless the request comes
from a broadcast address. -/
def nwkUpdateAnswer (run : ZdoCtxRun M) (req : NwkUpdateReq)
    (reqTsn status : UInt8) : ZdoCtxRun M :=
  if req.srcAddr.toNat < ZdpServer.broadcastLowPowerRouter then
    let (next, thread) := run.zbZdoNwkUpdNotify layout ⟨.answer, none, [], []⟩
      ⟨status, 0, req.tsn, req.srcAddr⟩ reqTsn
    { next with threads := next.threads ++ [thread] }
  else run

def mgmtNwkUpdateHandler
    (run : ZdoCtxRun M) (req : NwkUpdateReq) (reqTsn : UInt8) : ZdoCtxRun M :=
  if req.scanDuration = 0xfe then run
  else if req.scanDuration = 0xff then { run with nwkManagerAddr := req.nwkManagerAddr }
  else if req.scanDuration ≤ 5 then
    if 5 < req.scanCount then
      run.nwkUpdateAnswer layout req reqTsn ZdpStatus.invRequesttype
    else if 0 < req.scanCount then
      -- the scan is started with the buffer of the request
      let begun := run.begin
        (layout.setNwkUpdReq run.ctx ⟨req.scanChannels, req.scanDuration,
          req.scanCount, req.srcAddr, req.tsn⟩)
        (.scan req) .startEdScan
      { begun with zdoEdScan := true }.zbStartEdScan layout
        run.threads.length ⟨.scan req, some .startEdScan, [], []⟩
    else run.nwkUpdateAnswer layout req reqTsn ZdpStatus.success
  else if req.unicast then run.nwkUpdateAnswer layout req reqTsn ZdpStatus.invalidRequest
  else run

def zbNlmeEdScanConfirm (run : ZdoCtxRun M) (thread : ZdoThread) (status : UInt8)
    (unscannedChannels : UInt32) : ZdoThread :=
  let req := layout.nwkUpdReq run.ctx
  if run.zdoEdScan then
    { thread with
      job := some (.nwkUpdNotify
        ⟨status, req.scanChannels &&& ~~~unscannedChannels, req.tsn, req.dstAddr⟩) }
  else if run.channelManagerEdScan then { thread with job := some .channelCheck }
  else { thread with job := none }

def zbZdoCheckFails (run : ZdoCtxRun M) (failing : Bool) : ZdoCtxRun M :=
  if failing ∧ ¬run.checkFails then
    let begun := run.begin (layout.setNwkUpdReq run.ctx ⟨0x4000, 3, 1, 0, 0⟩)
      .check .startEdScan
    { begun with
      checkFails := true
      channelManagerEdScan := true }
  else run

/-- `zb_zdo_channel_check_scan_result`; `busy` is the current channel. -/
def zbZdoChannelCheckScanResult
    (run : ZdoCtxRun M) (i : ℕ) (thread : ZdoThread) (busy : Bool)
    (status : UInt8) (unscannedChannels : UInt32) : ZdoCtxRun M :=
  if busy then
    let next := { run with
      channelManagerEdScan := false
      zdoEdScan := true
      ctx := layout.setNwkUpdReq run.ctx { layout.nwkUpdReq run.ctx with
        scanChannels := 0x07fff800
        scanCount := 0
        tsn := 0
        dstAddr := run.nwkManagerAddr }
      sendWithAck := true }
    next.setThread i (next.zbNlmeEdScanConfirm layout thread status unscannedChannels)
  else { run with channelManagerEdScan := false }.setThread i { thread with job := none }

/-- The end of a scan in `zb_mlme_scan_confirm` during a discovery. -/
def discoveryConfirm (run : ZdoCtxRun M) (i : ℕ) (thread : ZdoThread) :
    ZdoCtxRun M :=
  let discCount := layout.discCount run.ctx
  let left := if discCount ≠ 0 then discCount - 1 else discCount
  { run.setThread i { thread with
      job := if left ≠ 0 then some .discoveryScan else none } with
    ctx := if discCount ≠ 0 then layout.setDiscCount run.ctx left else run.ctx }

def getPeerShortAddrCb (run : ZdoCtxRun M) (thread : ZdoThread) : ZdoThread :=
  let ctx := layout.shortAddr run.ctx
  { thread with
    job := none
    called := thread.called ++ ctx.calls }

/-- A step of the thread `i`, if it waits for something which `next` takes. -/
def stepThread (run : ZdoCtxRun M) (i : ℕ)
    (next : ZdoThread → ZdoJob → Option (ZdoCtxRun M)) :
    Option (ZdoCtxRun M) := do
  let thread ← run.threads[i]?
  let job ← thread.job
  next thread job

def step (run : ZdoCtxRun M) : ZdoCtxEvent → Option (ZdoCtxRun M)
  | .mgmtNwkUpdate req reqTsn => some (run.mgmtNwkUpdateHandler layout req reqTsn)
  | .startEdScan i => run.stepThread i fun thread job =>
      match job with
      | .startEdScan => some (run.zbStartEdScan layout i thread)
      | _ => none
  | .edScanConfirm i status unscannedChannels =>
      run.stepThread i fun thread job =>
        match job with
        | .edScan _ _ => some (run.setThread i
            (run.zbNlmeEdScanConfirm layout thread status unscannedChannels))
        | _ => none
  | .nwkUpdNotify i reqTsn => run.stepThread i fun thread job =>
      match job with
      | .nwkUpdNotify notify =>
          let (next, thread) := run.zbZdoNwkUpdNotify layout thread notify reqTsn
          some (next.setThread i thread)
      | _ => none
  | .checkFails failing => some (run.zbZdoCheckFails layout failing)
  | .channelCheckTimer => some { run with checkFails := false }
  | .channelCheckScanResult i busy status unscannedChannels =>
      run.stepThread i fun thread job =>
        match job with
        | .channelCheck => some (run.zbZdoChannelCheckScanResult layout i thread
            busy status unscannedChannels)
        | _ => none
  | .networkDiscovery nwkScanAttempts =>
      some (run.begin (layout.setDiscCount run.ctx nwkScanAttempts)
        .discovery .discoveryScan)
  | .discoveryConfirm i => run.stepThread i fun thread job =>
      match job with
      | .discoveryScan => some (run.discoveryConfirm layout i thread)
      | _ => none
  | .startGetPeerShortAddr ctx =>
      some (run.begin (layout.setShortAddr run.ctx ctx) (.lookUp ctx) .getPeerShortAddr)
  | .getPeerShortAddr i => run.stepThread i fun thread job =>
      match job with
      | .getPeerShortAddr => some (run.setThread i { thread with
          job := some (.shortAddrResp (layout.shortAddr run.ctx).dstAddrRef) })
      | _ => none
  | .peerShortAddr i => run.stepThread i fun thread job =>
      match job with
      | .shortAddrResp _ => some (run.setThread i
          (run.getPeerShortAddrCb layout thread))
      | _ => none

def start (mem : M) : ZdoCtxRun M where
  ctx := mem
  zdoEdScan := false
  channelManagerEdScan := false
  sendWithAck := false
  checkFails := false
  nwkManagerAddr := 0
  threads := []
  owner := none
  wrapped := false

end ZdoCtxRun

end Zboss
