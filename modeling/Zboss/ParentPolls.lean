import Zboss.MacReception

/-!
# Polls of the parent

`zb_handle_poll_request` and `zb_mac_indirect_data_timeout` in `mac.c` with
`zb_mac_get_indirect_data` in `mac_data.c`, and the part of
`zb_mac_parse_recv_data` which takes a frame for the answer of a poll.  The
timer of an association asks for indirect data in the same way.
-/

namespace Zboss

/-- `zb_callback_type_t` -/
inductive IndirectCbType where
  | assConfirm
  | pollRequest
  deriving DecidableEq

inductive IndirectAlarm where
  | assConfirm
  | pollRequest (poll : ℕ)

namespace IndirectAlarm

def cbType : IndirectAlarm → IndirectCbType
  | .assConfirm => .assConfirm
  | .pollRequest _ => .pollRequest

def poll : IndirectAlarm → Option ℕ
  | .assConfirm => none
  | .pollRequest poll => some poll

end IndirectAlarm

structure IndirectFrame extends MacRxFrame where
  dstAddrMode : MacAddrMode
  dstAddrLong : ℕ
  framePending : Bool

/-- The result of a data request command: whether it was sent and acknowledged,
the flag for pending data which the interrupt leaves, and whether the queues
take the alarm and the confirm. -/
structure IndirectOutcome where
  sent : Bool
  pendingData : Bool
  alarmRoom : Bool
  room : Bool

/-- `pollRequests` are the callbacks `zb_handle_poll_request` in `mac_tx_q`,
`delayed` counts the callbacks `indirect_data_callback_caller` which wait for a
buffer. -/
structure PollCtx extends MacRxCtx where
  macShortAddress : ℕ
  macExtendedAddress : ℕ
  pollRequests : List ℕ
  indirectDataRequest : Bool
  pollRequest : Bool
  pendingData : Bool
  bufRef : ℕ
  cbType : IndirectCbType
  delayed : ℕ
  alarms : List IndirectAlarm

namespace PollCtx

def checkFrameDstAddr (ctx : PollCtx) (frame : IndirectFrame) : Bool :=
  if frame.dstAddrMode = .short then decide (frame.dstAddrShort = ctx.macShortAddress)
  else decide (frame.dstAddrLong = ctx.macExtendedAddress)

/-- `zb_mac_get_indirect_data`, with `RET_OK` as `true`. -/
def macGetIndirectData
    (ctx : PollCtx) (alarm : IndirectAlarm) (outcome : IndirectOutcome) :
    PollCtx × Bool :=
  let ctx := { ctx with
    indirectDataRequest := true
    pendingData := outcome.pendingData }
  if outcome.sent then
    if ctx.pendingData then
      ({ ctx with
        bufRef := 0
        alarms := if outcome.alarmRoom then ctx.alarms ++ [alarm] else ctx.alarms },
        true)
    else (ctx, false)
  else ({ ctx with pendingData := false }, false)

/-- `zb_handle_poll_request`, called by `zb_mac_main_loop`. -/
def handlePollRequest (ctx : PollCtx) (outcome : IndirectOutcome) :
    Option (PollCtx × Multiset ℕ) :=
  match ctx.pollRequests with
  | [] => none
  | param :: rest =>
      let (ctx, found) := { ctx with
        pollRequests := rest }.macGetIndirectData (.pollRequest param) outcome
      if found then
        some ({ ctx with
          pollRequest := true
          bufRef := param
          pendingBuf := none }, 0)
      else some ({ ctx with pendingBuf := none }, MacRxCtx.indicate param outcome.room)

/-- `call_indirect_data_callback`, with the polls which are confirmed. -/
def callIndirectDataCallback
    (ctx : PollCtx) (cbType : IndirectCbType) (buf : ℕ) (room : Bool) :
    PollCtx × Multiset ℕ :=
  match cbType with
  | .assConfirm => ({ ctx with assRequest := false }, 0)
  | .pollRequest => ({ ctx with pollRequest := false }, MacRxCtx.indicate buf room)

/-- `zb_mac_indirect_data_timeout`, for the alarm which expires first. -/
def macIndirectDataTimeout (ctx : PollCtx) (room : Bool) :
    Option (PollCtx × Multiset ℕ) :=
  match ctx.alarms with
  | [] => none
  | alarm :: rest =>
      let ctx := { ctx with alarms := rest }
      if ctx.bufRef ≠ 0 then
        let (ctx, confirmed) := ctx.callIndirectDataCallback alarm.cbType ctx.bufRef room
        some ({ ctx with bufRef := 0 }, confirmed)
      else
        some ({ ctx with
          cbType := alarm.cbType
          delayed := if room then ctx.delayed + 1 else ctx.delayed }, 0)

/-- `indirect_data_callback_caller`, with the buffer it has waited for. -/
def indirectDataCallbackCaller (ctx : PollCtx) (param : ℕ) (room : Bool) :
    Option (PollCtx × Multiset ℕ) :=
  if 0 < ctx.delayed then
    some ({ ctx with
      delayed := ctx.delayed - 1 }.callIndirectDataCallback ctx.cbType param
        room)
  else none

def macRespTimeout (ctx : PollCtx) (outcome : IndirectOutcome) :
    Option (PollCtx × Multiset ℕ) :=
  match ctx.pendingBuf with
  | none => none
  | some buf =>
      let (ctx, found) := macGetIndirectData { ctx with assRequest := true }
        .assConfirm outcome
      if found then some ({ ctx with pendingBuf := none }, 0)
      else some (ctx.callIndirectDataCallback .assConfirm buf outcome.room)

def indirectData (ctx : PollCtx) (frame : IndirectFrame) (room : Bool) :
    PollCtx × Multiset ℕ :=
  -- one alarm is cancelled, whatever its argument
  let ctx := { ctx with
    alarms := ctx.alarms.tail
    indirectDataRequest := false
    pendingData := frame.framePending || ctx.pendingData }
  if ctx.pollRequest ∧ frame.frameType = .data ∧ ctx.bufRef ≠ 0 then
    ({ ctx with pollRequest := false }, MacRxCtx.indicate ctx.bufRef room)
  else (ctx, 0)

/-- `zb_mac_parse_recv_data`, with the polls which are confirmed; `room` is for
the callback which takes the frame. -/
def macParseRecvData (ctx : PollCtx) (param : ℕ) (frame : IndirectFrame)
    (room confirmRoom : Bool) : PollCtx × Multiset ℕ :=
  let received := { ctx with
    toMacRxCtx := (ctx.toMacRxCtx.macParseRecvData param frame.toMacRxFrame room).1 }
  if ctx.canAcceptFrame frame.toMacRxFrame ∧ ctx.indirectDataRequest ∧
      ctx.checkFrameDstAddr frame then
    received.indirectData frame confirmRoom
  else (received, 0)

end PollCtx

/-- `pollRequest` is a request to the parent, placed in `mac_tx_q`.  `interrupt`
reports whether the last acknowledgement has the pending bit.  `mac` is a step
of the MAC layer other than the reception of a frame. -/
inductive PollEvent where
  | pollRequest (param : ℕ) (room : Bool)
  | handlePollRequest (outcome : IndirectOutcome)
  | macParseRecvData (param : ℕ) (frame : IndirectFrame) (room confirmRoom : Bool)
  | macIndirectDataTimeout (room : Bool)
  | indirectDataCallbackCaller (param : ℕ) (room : Bool)
  | macRespTimeout (outcome : IndirectOutcome)
  | interrupt (pending : Bool)
  | mac (event : MacRxEvent)

def PollEvent.issued : PollEvent → Multiset ℕ
  | .pollRequest param _ => {param}
  | _ => 0

namespace PollCtx

def step (ctx : PollCtx) : PollEvent → Option (PollCtx × Multiset ℕ)
  | .pollRequest param room =>
      some ({ ctx with
        pollRequests :=
          if room then ctx.pollRequests ++ [param] else ctx.pollRequests }, 0)
  | .handlePollRequest outcome => ctx.handlePollRequest outcome
  | .macParseRecvData param frame room confirmRoom =>
      some (ctx.macParseRecvData param frame room confirmRoom)
  | .macIndirectDataTimeout room => ctx.macIndirectDataTimeout room
  | .indirectDataCallbackCaller param room => ctx.indirectDataCallbackCaller param room
  | .macRespTimeout outcome => ctx.macRespTimeout outcome
  | .interrupt pending =>
      some (if ctx.indirectDataRequest then
        { ctx with pendingData := pending } else ctx, 0)
  | .mac event =>
      if event.received = 0 then do
        let (mac, _) ← ctx.toMacRxCtx.step event
        return ({ ctx with toMacRxCtx := mac }, 0)
      else none

/-- The polls in `mac_tx_q`, and those which an alarm of their own waits for. -/
def unanswered (ctx : PollCtx) : Multiset ℕ :=
  ↑(ctx.pollRequests ++ ctx.alarms.filterMap IndirectAlarm.poll)

def start (mac : MacRxCtx) (shortAddress extendedAddress : ℕ) : PollCtx where
  toMacRxCtx := mac
  macShortAddress := shortAddress
  macExtendedAddress := extendedAddress
  pollRequests := []
  indirectDataRequest := false
  pollRequest := false
  pendingData := false
  bufRef := 0
  cbType := .assConfirm
  delayed := 0
  alarms := []

end PollCtx

end Zboss
