import Zboss.AddressTranslation
import Zboss.SlotTable
import Zboss.TransitionSystem

/-!
# Data requests to the MAC layer

`zb_mcps_data_request` and its handlers in `mac_data.c`, the pending queue of
`mac_routines.c` and the data request commands of children in `mac_cr_data.c`,
on a coordinator. The callbacks of the queue `mac_tx_q` are called by
`zb_mac_main_loop` one at a time: while `tx_wait_cb` is set, a transmission is
in progress.
-/

namespace Zboss

/-- `ZB_MAC_PENDING_QUEUE_SIZE`, `ZB_IOBUF_POOL_SIZE / 4` -/
def macPendingQueueSize : ℕ := 16 / 4

def macQueueSize : ℕ := 4

def macMaxRequests : ℕ := 10

inductive MacStatus where
  | success
  | channelAccessFailure
  | noAck
  | invalidParameter
  | transactionExpired
  | transactionOverflow
  deriving DecidableEq

inductive MacAddr where
  | noAddr
  | short (address : ℕ)
  | long (address : IeeeAddr)
  deriving DecidableEq

inductive MacFrame where
  | data
  | command
  deriving DecidableEq

/-- What `zb_mcps_data_req_params_t` and the header of a buffer say -/
structure McpsDataReq where
  dstAddr : ℕ
  indirect : Bool
  encrypted : Bool

structure PendingData where
  buf : ℕ
  dstAddr : MacAddr
  frame : MacFrame
  encrypted : Bool
  deriving DecidableEq

/-- The comparison in `check_pending_data`. -/
def PendingData.isFor (pending : PendingData) (source : MacAddr) : Bool :=
  match source, pending.dstAddr with
  | .short address, .short dst => dst == address
  | .long address, .long dst => decide (dst = address)
  | _, _ => false

inductive MacTxCall where
  | handleMcpsDataReq (param : ℕ) (req : McpsDataReq)
  | acceptDataRequestCmd (param : ℕ) (source : MacAddr)

inductive TxWaitCb where
  | handleMcpsDataReqContinue (param : ℕ)
  | handleDataRequestCmdContinue (param index : ℕ) (frame : MacFrame)
  deriving DecidableEq

inductive MacOutput where
  | sendCommand (buf : ℕ)
  /-- `zb_mcps_data_confirm`; the status is left as it is where it is `none`. -/
  | dataConfirm (buf : ℕ) (status : Option MacStatus) (frame : MacFrame)
  | commStatusIndication (buf : ℕ) (status : MacStatus) (frame : MacFrame)
  | freeBuf (buf : ℕ) (frame : MacFrame)

structure RadioStatus where
  channelError : Bool
  channelBusyError : Bool

structure MacCtx where
  macTxQ : List MacTxCall
  pendingDataQueue : ℕ → Option PendingData
  out : List ℕ
  txWaitCb : Option TxWaitCb
  txCnt : Bool
  macStatus : MacStatus

namespace MacCtx

/-- `zb_schedule_tx_cb`; the callers ignore that the queue is full. -/
def scheduleTxCb (mac : MacCtx) (call : MacTxCall) : MacCtx :=
  if mac.macTxQ.length < macQueueSize then { mac with macTxQ := mac.macTxQ ++ [call] }
  else mac

def setSlot (mac : MacCtx) (i : ℕ) (pending : Option PendingData) : MacCtx :=
  { mac with
    pendingDataQueue := Function.update mac.pendingDataQueue i pending }

def freeSlot (mac : MacCtx) : Option ℕ :=
  (List.range macPendingQueueSize).find? fun i => (mac.pendingDataQueue i).isNone

/-- `zb_mac_put_data_to_pending_queue`, with `RET_PENDING` as `true` -/
def putDataToPendingQueue (mac : MacCtx) (pending : PendingData) :
    MacCtx × Bool :=
  match mac.freeSlot with
  | some i => (mac.setSlot i (some pending), true)
  | none => ({ mac with macStatus := .transactionOverflow }, false)

def putRequestToQueue (mac : MacCtx) (request : ℕ) : Option MacCtx :=
  if mac.out.length < macMaxRequests then some { mac with out := mac.out ++ [request] }
  else none

/-- What `zb_mcps_data_request_fill_hdr` does besides writing the header, with
`RET_OK` as `true` and `RET_PENDING` as `false`. -/
def mcpsDataRequestFillHdr (mac : MacCtx) (param : ℕ) (req : McpsDataReq) :
    Option (MacCtx × Bool) :=
  if req.indirect then
    match mac.putDataToPendingQueue ⟨param, .short req.dstAddr, .data, req.encrypted⟩ with
    | (next, true) => some (next, false)
    | (next, false) => do
        let queued ←
          { next with macStatus := .success }.putRequestToQueue param
        return (queued, false)
  else some (mac, true)

/-- `zb_mac_check_security` -/
def checkSecurity (encrypted secured : Bool) : Bool :=
  !encrypted || secured

def handleMcpsDataReq (mac : MacCtx) (param : ℕ) (req : McpsDataReq) (secured : Bool) :
    Option (MacCtx × List MacOutput) := do
  let (next, ok) ←
    { mac with macStatus := .success }.mcpsDataRequestFillHdr param req
  if ok ∧ checkSecurity req.encrypted secured then
    return ({ next with txWaitCb := some (.handleMcpsDataReqContinue param) },
      [.sendCommand param])
  else return (next, [])

def checkCmdTxStatus (mac : MacCtx) (radio : RadioStatus) : MacCtx × Bool :=
  if radio.channelError then
    ({ mac with
        macStatus := if radio.channelBusyError then .channelAccessFailure else .noAck },
      false)
  else (mac, true)

def handleMcpsDataReqContinue (mac : MacCtx) (param : ℕ) (radio : RadioStatus) :
    MacCtx × List MacOutput :=
  let (checked, ok) := mac.checkCmdTxStatus radio
  let status :=
    if ok = false ∧ checked.macStatus = .success then .invalidParameter
    else checked.macStatus
  ({ checked with macStatus := status }, [.dataConfirm param (some status) .data])

def checkPendingData (mac : MacCtx) (source : MacAddr) : Option ℕ :=
  (List.range macPendingQueueSize).find? fun i =>
    (mac.pendingDataQueue i).any (·.isFor source)

/-- `zb_accept_data_request_cmd`, which calls `zb_handle_data_request_cmd`.
The frame is sent if it can be secured, and its continuation waits in either
case. -/
def acceptDataRequestCmd (mac : MacCtx) (param : ℕ) (source : MacAddr) (secured : Bool) :
    MacCtx × List MacOutput :=
  let mac := { mac with macStatus := .success }
  match mac.checkPendingData source with
  | none => (mac, [.freeBuf param .command])
  | some i =>
      match mac.pendingDataQueue i with
      | none => (mac, [.freeBuf param .command])
      | some pending =>
          ({ mac with
              txWaitCb := some (.handleDataRequestCmdContinue param i pending.frame) },
            if checkSecurity pending.encrypted secured then [.sendCommand pending.buf]
            else [])

def handleDataRequestCmdContinue
    (mac : MacCtx) (param index : ℕ) (frame : MacFrame) (radio : RadioStatus) :
    Option (MacCtx × List MacOutput) := do
  let (checked, ok) := mac.checkCmdTxStatus radio
  let pending ← checked.pendingDataQueue index
  let cleared := checked.setSlot index none
  match frame with
  | .command =>
      let status :=
        if ok then .success
        else if checked.macStatus ≠ .success then checked.macStatus
        else .invalidParameter
      return (cleared, [.commStatusIndication param status .command,
          .freeBuf pending.buf pending.frame])
  | .data =>
      return (cleared, [.dataConfirm pending.buf none pending.frame,
          .freeBuf param .command])

def pendingDataTimeout (mac : MacCtx) (i : ℕ) :
    Option (MacCtx × List MacOutput) := do
  let pending ← mac.pendingDataQueue i
  return (mac.setSlot i none,
    [.commStatusIndication pending.buf .transactionExpired pending.frame])

/-- The end of `zb_handle_associate_response`: the response waits for the
device to ask for it. -/
def associateResponse (mac : MacCtx) (param : ℕ) (device : IeeeAddr) :
    MacCtx × List MacOutput :=
  match mac.putDataToPendingQueue ⟨param, .long device, .command, false⟩ with
  | (next, true) => (next, [])
  | (next, false) => (next, [.commStatusIndication param next.macStatus .command])

/-- The transmitting half of `zb_mac_main_loop`. -/
def mainLoop (mac : MacCtx) (secured : Bool) (radio : RadioStatus) :
    Option (MacCtx × List MacOutput) :=
  match mac.txWaitCb with
  | some callback =>
      if mac.txCnt then
        let idle := { mac with txCnt := false, txWaitCb := none }
        match callback with
        | .handleMcpsDataReqContinue param =>
            some (idle.handleMcpsDataReqContinue param radio)
        | .handleDataRequestCmdContinue param index frame =>
            idle.handleDataRequestCmdContinue param index frame radio
      else some (mac, [])
  | none =>
      match mac.macTxQ with
      | [] => some (mac, [])
      | .handleMcpsDataReq param req :: rest =>
          { mac with macTxQ := rest }.handleMcpsDataReq param req secured
      | .acceptDataRequestCmd param source :: rest =>
          some ({ mac with macTxQ := rest }.acceptDataRequestCmd param source
            secured)

end MacCtx

/-- What happens to the MAC layer.  `transmitted` is the interrupt of the
transceiver at the end of a transmission of any kind. -/
inductive MacEvent where
  | mcpsDataRequest (param : ℕ) (req : McpsDataReq)
  | dataRequestCmd (param : ℕ) (source : MacAddr)
  | associateResponse (param : ℕ) (device : IeeeAddr)
  | transmitted
  | mainLoop (secured : Bool) (radio : RadioStatus)
  | pendingDataTimeout (slot : ℕ)

def MacCtx.step (mac : MacCtx) : MacEvent → Option (MacCtx × List MacOutput)
  | .mcpsDataRequest param req =>
      some (mac.scheduleTxCb (.handleMcpsDataReq param req), [])
  | .dataRequestCmd param source =>
      some (mac.scheduleTxCb (.acceptDataRequestCmd param source), [])
  | .associateResponse param device => some (mac.associateResponse param device)
  | .transmitted => some ({ mac with txCnt := true }, [])
  | .mainLoop secured radio => mac.mainLoop secured radio
  | .pendingDataTimeout slot => mac.pendingDataTimeout slot

end Zboss
