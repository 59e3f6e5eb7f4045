import Zboss.MacDataConfirms
import Zboss.ScanRequests

/-!
# Operations which share `pending_buf`

The scans, the data requests and the exchanges with polling children of one
coordinator, with the one pointer through which they know their buffers.
Steps which set `pending_buf` first are the handlers in `mac_scan.c`,
`mac_data.c`, `mac_cr_data.c` and `mac_cr_associate.c`; a step of a scan and
the end of an exchange rely on what they find there.
-/

namespace Zboss

open TransitionSystem

structure PendingCtx extends MacCtx, ScanCtx

namespace PendingCtx

def put (ctx : PendingCtx) (mac : MacCtx) (pendingBuf : Option ℕ) : PendingCtx where
  toMacCtx := mac
  toScanCtx := { ctx.toScanCtx with pendingBuf }

/-- `zb_handle_data_request_cmd_continue`, with the buffer of the poll in
`pending_buf`. -/
def handleDataRequestCmdContinue
    (ctx : PendingCtx) (index : ℕ) (frame : MacFrame) (radio : RadioStatus) :
    Option (PendingCtx × List MacOutput) :=
  match ctx.pendingBuf, frame with
  | some buf, frame => do
      let (mac, outputs) ←
        ctx.toMacCtx.handleDataRequestCmdContinue buf index frame radio
      return (ctx.put mac none, outputs)
  | none, .data => do
      let (checked, _) := ctx.toMacCtx.checkCmdTxStatus radio
      let pending ← checked.pendingDataQueue index
      return (ctx.put (checked.setSlot index none) none,
        [.dataConfirm pending.buf none pending.frame])
  -- the status is written through the null pointer
  | none, .command => none

/-- The transmitting half of `zb_mac_main_loop`. -/
def mainLoop (ctx : PendingCtx) (secured : Bool) (radio : RadioStatus) :
    Option (PendingCtx × List MacOutput) :=
  match ctx.txWaitCb with
  | some callback =>
      if ctx.txCnt then
        let idle := { ctx.toMacCtx with txCnt := false, txWaitCb := none }
        match callback with
        | .handleMcpsDataReqContinue param =>
            let (mac, outputs) := idle.handleMcpsDataReqContinue param radio
            some (ctx.put mac none, outputs)
        | .handleDataRequestCmdContinue _ index frame =>
            (ctx.put idle ctx.pendingBuf).handleDataRequestCmdContinue index frame radio
      else some (ctx, [])
  | none =>
      match ctx.macTxQ with
      | [] => some (ctx, [])
      | .handleMcpsDataReq param req :: rest => do
          let (mac, outputs) ← { ctx.toMacCtx with
            macTxQ := rest }.handleMcpsDataReq param req secured
          return (ctx.put mac (some param), outputs)
      | .acceptDataRequestCmd param source :: rest =>
          let (mac, outputs) := { ctx.toMacCtx with
            macTxQ := rest }.acceptDataRequestCmd param source secured
          -- the buffer is freed where no frame is found
          some (ctx.put mac (if mac.txWaitCb.isSome then some param else none),
            outputs)

def mlmeAssociateResponse
    (ctx : PendingCtx) (param : ℕ) (device : IeeeAddr) (joinedPro : Bool) :
    PendingCtx × List MacOutput :=
  if joinedPro then (ctx, [.freeBuf param .command])
  else
    let (mac, outputs) := { ctx.toMacCtx with
      macStatus := .success }.associateResponse param device
    (ctx.put mac (if outputs = [] then some param else none), outputs)

/-- What `zb_accept_ass_request_cmd` and `zb_handle_data_frame` do before they
pass their buffer on. -/
def setPendingBuf (ctx : PendingCtx) (param : ℕ) : PendingCtx :=
  ctx.put ctx.toMacCtx (some param)

end PendingCtx

/-- `acceptAssRequestCmd` and `handleDataFrame` are frames which are received,
`dataRequestCmd` is a poll. -/
inductive PendingBufEvent where
  | scan (event : ScanEvent)
  | mcpsDataRequest (param : ℕ) (req : McpsDataReq)
  | dataRequestCmd (param : ℕ) (source : MacAddr)
  | acceptAssRequestCmd (param : ℕ)
  | mlmeAssociateResponse (param : ℕ) (device : IeeeAddr) (joinedPro : Bool)
  | handleDataFrame (param : ℕ)
  | transmitted
  | mainLoop (secured : Bool) (radio : RadioStatus)
  | pendingDataTimeout (slot : ℕ)

namespace PendingCtx

def step (ctx : PendingCtx) : PendingBufEvent → Option PendingCtx
  | .scan event => do
      let (scan, _) ← ctx.toScanCtx.step event
      return { ctx with toScanCtx := scan }
  | .mcpsDataRequest param req =>
      some (ctx.put (ctx.toMacCtx.scheduleTxCb (.handleMcpsDataReq param req))
        ctx.pendingBuf)
  | .dataRequestCmd param source =>
      some (ctx.put (ctx.toMacCtx.scheduleTxCb (.acceptDataRequestCmd param source))
        ctx.pendingBuf)
  | .acceptAssRequestCmd param => some (ctx.setPendingBuf param)
  | .mlmeAssociateResponse param device joinedPro =>
      some (ctx.mlmeAssociateResponse param device joinedPro).1
  | .handleDataFrame param => some (ctx.setPendingBuf param)
  | .transmitted => some (ctx.put { ctx.toMacCtx with txCnt := true } ctx.pendingBuf)
  | .mainLoop secured radio => (ctx.mainLoop secured radio).map Prod.fst
  | .pendingDataTimeout slot => do
      let (mac, _) ← ctx.toMacCtx.pendingDataTimeout slot
      return ctx.put mac ctx.pendingBuf

def exchange (ctx : PendingCtx) : Option ℕ :=
  match ctx.txWaitCb with
  | some (.handleDataRequestCmdContinue param _ _) => some param
  | _ => none

end PendingCtx

def MacTxCall.param : MacTxCall → ℕ
  | .handleMcpsDataReq param _ => param
  | .acceptDataRequestCmd param _ => param

def PendingCtx.queued (ctx : PendingCtx) : List ℕ :=
  ctx.cbQ.filterMap ScanCall.request ++ ctx.macTxQ.map MacTxCall.param

/-- `scanning` is the buffer of the scan which was started last -/
structure PendingBufRun where
  ctx : PendingCtx
  scanning : ℕ
  touched : List (ℕ × Option ℕ)

namespace PendingBufRun

def waiting (run : PendingBufRun) : List ℕ :=
  List.replicate run.ctx.due run.scanning ++ run.ctx.exchange.toList

def held (run : PendingBufRun) : List ℕ :=
  run.ctx.queued ++ run.waiting

/-- What a step finds in `pending_buf` and frees, confirms or overwrites. -/
def touches (run : PendingBufRun) : PendingBufEvent → List (ℕ × Option ℕ)
  | .scan (.request param params _) =>
      if run.ctx.accepts params then [] else [(param, run.ctx.pendingBuf)]
  | .scan (.callback _) =>
      match run.ctx.cbQ with
      | .scanStep :: _ => [(run.scanning, run.ctx.pendingBuf)]
      | _ => []
  | .scan (.alarm _) => [(run.scanning, run.ctx.pendingBuf)]
  | .mainLoop _ _ =>
      if run.ctx.txCnt then
        run.ctx.exchange.toList.map fun param => (param, run.ctx.pendingBuf)
      else []
  | _ => []

def started (run : PendingBufRun) (event : PendingBufEvent) (next : PendingCtx) :
    Option ℕ :=
  match event, run.ctx.cbQ with
  | .scan (.callback _), .handleScanRequest param :: _ =>
      if run.ctx.due < next.due then some param else none
  | _, _ => none

def Arrives (run : PendingBufRun) : PendingBufEvent → Prop
  | .scan (.request param _ _) => param ∉ run.held
  | .mcpsDataRequest param _ => param ∉ run.held
  | .dataRequestCmd param _ => param ∉ run.held
  | .acceptAssRequestCmd param => param ∉ run.held
  | .mlmeAssociateResponse param _ _ => param ∉ run.held
  | .handleDataFrame param => param ∉ run.held
  | _ => True

instance (run : PendingBufRun) : (event : PendingBufEvent) → Decidable (run.Arrives event)
  | .scan (.request param _ _) => inferInstanceAs (Decidable (param ∉ run.held))
  | .scan (.callback _) => isTrue trivial
  | .scan (.alarm _) => isTrue trivial
  | .scan .beacon => isTrue trivial
  | .scan .realignment => isTrue trivial
  | .mcpsDataRequest param _ => inferInstanceAs (Decidable (param ∉ run.held))
  | .dataRequestCmd param _ => inferInstanceAs (Decidable (param ∉ run.held))
  | .acceptAssRequestCmd param => inferInstanceAs (Decidable (param ∉ run.held))
  | .mlmeAssociateResponse param _ _ => inferInstanceAs (Decidable (param ∉ run.held))
  | .handleDataFrame param => inferInstanceAs (Decidable (param ∉ run.held))
  | .transmitted => isTrue trivial
  | .mainLoop _ _ => isTrue trivial
  | .pendingDataTimeout _ => isTrue trivial

def step (run : PendingBufRun) (event : PendingBufEvent) : Option PendingBufRun :=
  if run.Arrives event then do
    let ctx ← run.ctx.step event
    return {
      ctx
      scanning := (run.started event ctx).getD run.scanning
      touched := run.touched ++ run.touches event }
  else none

/-- `pending_buf` belongs to one operation: it has the buffer of the only one
which waits, and each step has found its own buffer there. -/
structure Owned (run : PendingBufRun) : Prop where
  single : run.waiting.length ≤ 1
  pendingBuf : ∀ buf ∈ run.waiting, run.ctx.pendingBuf = some buf
  touched : ∀ touch ∈ run.touched, touch.2 = some touch.1

def Idle (run : PendingBufRun) : Prop :=
  run.ctx.running = false ∧ run.ctx.exchange = none

/-- A step which sets `pending_buf` finds no other operation, and a refused
request finds its own buffer there. -/
def Allows (run : PendingBufRun) : PendingBufEvent → Prop
  | .scan (.request param params _) =>
      if run.ctx.accepts params then run.Idle
      else run.ctx.pendingBuf = some param
  | .scan (.callback _) => ∀ call ∈ run.ctx.cbQ.head?, call ≠ .scanStep → run.Idle
  | .acceptAssRequestCmd _ => run.Idle
  | .mlmeAssociateResponse _ _ joinedPro => joinedPro = false → run.Idle
  | .handleDataFrame _ => run.Idle
  | .mainLoop _ _ =>
      match run.ctx.txWaitCb with
      | some (.handleDataRequestCmdContinue _ _ _) => True
      | some (.handleMcpsDataReqContinue _) =>
          run.ctx.txCnt = true → run.ctx.running = false
      | none => run.ctx.macTxQ ≠ [] → run.ctx.running = false
  | _ => True

def Meets (run : PendingBufRun) (event : PendingBufEvent) : Prop :=
  run.step event ≠ none → run.Allows event

end PendingBufRun

end Zboss
