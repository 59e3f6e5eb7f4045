import Zboss.Ledger

/-!
# Received MAC frames

`zb_mac_parse_recv_data` and `zb_mlme_command_accept` in `mac.c`, with the
callbacks they hand the buffer of a frame to in `mac_data.c`, `mac_cr_data.c`
and `mac_cr_associate.c`.  A callback of the next higher layer owns the buffer
it is scheduled with.  `room` says whether the queue takes a callback; the
callers ignore it.
-/

namespace Zboss

inductive MacFrameType where
  | beacon
  | data
  | acknowledgment
  | command
  | reserved
  deriving DecidableEq

inductive MacCommandId where
  | associationRequest
  | associationResponse
  | disassociationNotification
  | dataRequest
  | panIdConflictNotification
  | orphanNotification
  | beaconRequest
  | coordinatorRealignment
  | gtsRequest
  | other (id : ℕ)
  deriving DecidableEq

/-- `zb_addr_mode_e` -/
inductive MacAddrMode where
  | noAddr
  | multicast
  | short
  | long
  deriving DecidableEq

structure MacRxFrame where
  frameType : MacFrameType
  security : Bool
  frameVersion : ℕ
  dstAddrShort : ℕ
  srcAddrMode : MacAddrMode
  command : MacCommandId

inductive MacRxCall where
  | handleDataFrame (param : ℕ)
  | mlmeAckAccept (param : ℕ)
  | mlmeCommandAccept (param : ℕ)
  | acceptAssRequestCmd (param : ℕ)

def MacRxCall.param : MacRxCall → ℕ
  | .handleDataFrame param => param
  | .mlmeAckAccept param => param
  | .mlmeCommandAccept param => param
  | .acceptAssRequestCmd param => param

/-- `edRole` is the build without `ZB_COORDINATOR_ROLE` and `ZB_ROUTER_ROLE`.
`polls` are the callbacks `zb_accept_data_request_cmd` in `mac_tx_q`, and
`exchange` is the buffer of the poll whose transmission is waited for. -/
structure MacRxCtx where
  edRole : Bool
  rxOnWhenIdle : Bool
  joinedPro : Bool
  assRequest : Bool
  mlmeScanInProgress : Bool
  frames : ℕ → MacRxFrame
  cbQ : List MacRxCall
  polls : List ℕ
  pendingBuf : Option ℕ
  exchange : Option ℕ

def macFrameIeee802154 : ℕ := 1

namespace MacRxCtx

def canAcceptFrame (ctx : MacRxCtx) (frame : MacRxFrame) : Bool :=
  if !ctx.rxOnWhenIdle ∧ frame.dstAddrShort = 0xffff then false
  else !(frame.security && decide (frame.frameVersion < macFrameIeee802154))

def schedule (ctx : MacRxCtx) (call : MacRxCall) (room : Bool) : MacRxCtx :=
  if room then { ctx with cbQ := ctx.cbQ ++ [call] } else ctx

def scheduleTxCb (ctx : MacRxCtx) (param : ℕ) (room : Bool) : MacRxCtx :=
  if room then { ctx with polls := ctx.polls ++ [param] } else ctx

def indicate (param : ℕ) (room : Bool) : Multiset ℕ :=
  if room then {param} else 0

def macParseRecvData (ctx : MacRxCtx) (param : ℕ) (frame : MacRxFrame) (room : Bool) :
    MacRxCtx × Multiset ℕ :=
  let ctx := { ctx with frames := Function.update ctx.frames param frame }
  if ctx.canAcceptFrame frame then
    match frame.frameType with
    | .data => (ctx.schedule (.handleDataFrame param) room, 0)
    | .beacon => (ctx, indicate param room)
    | .acknowledgment => (ctx.schedule (.mlmeAckAccept param) room, 0)
    | .command => (ctx.schedule (.mlmeCommandAccept param) room, 0)
    | .reserved => (ctx, 0)
  else (ctx, {param})

def mlmeCommandAccept (ctx : MacRxCtx) (param : ℕ) (room : Bool) :
    Option (MacRxCtx × Multiset ℕ) :=
  let frame := ctx.frames param
  if !ctx.edRole ∧ frame.command = .beaconRequest ∧ !ctx.joinedPro then some (ctx, {param})
  else if !ctx.edRole ∧ frame.command = .associationRequest then
    some (ctx.schedule (.acceptAssRequestCmd param) room, 0)
  else
    match frame.command with
    | .associationResponse =>
        if ctx.assRequest then some ({ ctx with assRequest := false }, indicate param room)
        else some (ctx, {param})
    | .dataRequest => some (if ctx.edRole then ctx else ctx.scheduleTxCb param room, 0)
    | .coordinatorRealignment =>
        if ctx.mlmeScanInProgress ∧ ctx.pendingBuf = none then none
        else some (ctx, 0)
    | .orphanNotification =>
        if frame.srcAddrMode = .long then some (ctx, indicate param room)
        else some (ctx, 0)
    | _ => some (ctx, 0)

def handleFrame (ctx : MacRxCtx) (param : ℕ) (room : Bool) :
    MacRxCtx × Multiset ℕ :=
  ({ ctx with pendingBuf := some param }, indicate param room)

def callback (ctx : MacRxCtx) (room : Bool) :
    Option (MacRxCtx × Multiset ℕ) :=
  match ctx.cbQ with
  | [] => none
  | call :: rest =>
      let ctx := { ctx with cbQ := rest }
      match call with
      | .handleDataFrame param => some (ctx.handleFrame param room)
      | .mlmeAckAccept param => some (ctx, {param})
      | .mlmeCommandAccept param => ctx.mlmeCommandAccept param room
      | .acceptAssRequestCmd param => some (ctx.handleFrame param room)

/-- `zb_accept_data_request_cmd`, called by `zb_mac_main_loop`.  `found` says
whether a frame is pending for the device. -/
def acceptDataRequestCmd (ctx : MacRxCtx) (found : Bool) :
    Option (MacRxCtx × Multiset ℕ) :=
  match ctx.exchange, ctx.polls with
  | none, param :: rest =>
      if found then
        some ({ ctx with
          polls := rest
          pendingBuf := some param
          exchange := some param }, 0)
      else some ({ ctx with polls := rest, pendingBuf := none }, {param})
  | _, _ => none

/-- `response` says whether the frame sent was an association response: then
`zb_mac_send_comm_status` schedules the indication with `pending_buf`. -/
def handleDataRequestCmdContinue (ctx : MacRxCtx) (response room : Bool) :
    Option (MacRxCtx × Multiset ℕ) :=
  match ctx.exchange with
  | none => none
  | some _ =>
      let idle := { ctx with pendingBuf := none, exchange := none }
      if response then ctx.pendingBuf.map fun buf => (idle, indicate buf room)
      else some (idle, ↑ctx.pendingBuf.toList)

end MacRxCtx

/-- What happens to received frames.  `setPendingBuf` is any other operation of
the MAC layer, `setFlags` what the other layers and commands do. -/
inductive MacRxEvent where
  | macParseRecvData (param : ℕ) (frame : MacRxFrame) (room : Bool)
  | callback (room : Bool)
  | acceptDataRequestCmd (found : Bool)
  | handleDataRequestCmdContinue (response room : Bool)
  | setPendingBuf (buf : Option ℕ)
  | setFlags (joinedPro assRequest mlmeScanInProgress : Bool)

def MacRxEvent.received : MacRxEvent → Multiset ℕ
  | .macParseRecvData param _ _ => {param}
  | _ => 0

namespace MacRxCtx

def step (ctx : MacRxCtx) : MacRxEvent → Option (MacRxCtx × Multiset ℕ)
  | .macParseRecvData param frame room => some (ctx.macParseRecvData param frame room)
  | .callback room => ctx.callback room
  | .acceptDataRequestCmd found => ctx.acceptDataRequestCmd found
  | .handleDataRequestCmdContinue response room =>
      ctx.handleDataRequestCmdContinue response room
  | .setPendingBuf buf => some ({ ctx with pendingBuf := buf }, 0)
  | .setFlags joinedPro assRequest mlmeScanInProgress =>
      some ({ ctx with joinedPro, assRequest, mlmeScanInProgress }, 0)

def held (ctx : MacRxCtx) : Multiset ℕ :=
  ↑(ctx.cbQ.map MacRxCall.param ++ ctx.polls ++ ctx.exchange.toList)

def start (edRole rxOnWhenIdle : Bool) : MacRxCtx where
  edRole := edRole
  rxOnWhenIdle := rxOnWhenIdle
  joinedPro := false
  assRequest := false
  mlmeScanInProgress := false
  frames := fun _ => ⟨.beacon, false, 0, 0, .noAddr, .other 0⟩
  cbQ := []
  polls := []
  pendingBuf := none
  exchange := none

end MacRxCtx

end Zboss
