import Zboss.MacDataRequests

/-!
# The transmit queue of the MAC layer

`mac_tx_q` with every callback which is placed in it, and the transmitting half
of `zb_mac_main_loop` in `mac.c`.  `tx_cnt` is cleared where a transmission is
started and set by the interrupt at its end; a continuation sets it once more
by `ZB_SKIP_TX_CHK`.
-/

namespace Zboss

inductive TransmitCall where
  | handleMcpsDataReq (param : ℕ)
  | acceptDataRequestCmd (param : ℕ)
  | handleBeaconReq
  | handlePollRequest (param : ℕ)
  | mlmeSendAssociationReqCmd (param : ℕ)
  | mlmeHandleOrphanResponse (param : ℕ)

/-- The values of `tx_wait_cb`, with `tx_wait_cb_arg` where it is set. -/
inductive TransmitWait where
  | handleMcpsDataReqContinue (param : ℕ)
  | handleDataRequestCmdContinue
  | mlmeSendAssociationReqContinue
  | mlmeHandleOrphanResponseContinue (param : ℕ)
  deriving DecidableEq

/-- What a callback finds: `ready` is a header filled with `RET_OK`, a pending
frame for the poll, or a device which answers beacon requests; `secured` is the
result of `zb_mac_check_security`. -/
structure TransmitOutcome where
  ready : Bool
  secured : Bool

/-- `transmitting` counts the transmissions whose interrupt is to come. -/
structure TransmitCtx where
  macTxQ : List TransmitCall
  txWaitCb : Option TransmitWait
  txCnt : Bool
  transmitting : ℕ

namespace TransmitCtx

def sendCommand (ctx : TransmitCtx) : TransmitCtx :=
  { ctx with txCnt := false, transmitting := ctx.transmitting + 1 }

def interrupt (ctx : TransmitCtx) : TransmitCtx :=
  { ctx with txCnt := true, transmitting := ctx.transmitting - 1 }

/-- `zb_schedule_tx_cb`, with `RET_OK` as `true`. -/
def scheduleTxCb (ctx : TransmitCtx) (call : TransmitCall) :
    TransmitCtx × Bool :=
  if ctx.macTxQ.length < macQueueSize then
    ({ ctx with macTxQ := ctx.macTxQ ++ [call] }, true)
  else (ctx, false)

/-- A callback from `mac_tx_q`, with whether it starts a transmission. -/
def call (ctx : TransmitCtx) (outcome : TransmitOutcome) :
    TransmitCall → TransmitCtx × Bool
  | .handleMcpsDataReq param =>
      if outcome.ready ∧ outcome.secured then
        ({ ctx.sendCommand with
          txWaitCb := some (.handleMcpsDataReqContinue param) }, true)
      else (ctx, false)
  | .acceptDataRequestCmd _ =>
      -- the continuation is installed for every frame which is found
      if outcome.ready then
        ({ (if outcome.secured then ctx.sendCommand else ctx) with
          txWaitCb := some .handleDataRequestCmdContinue }, outcome.secured)
      else (ctx, false)
  | .handleBeaconReq => if outcome.ready then (ctx.sendCommand, true) else (ctx, false)
  -- waits for the end of its transmission
  | .handlePollRequest _ => (ctx.sendCommand.interrupt, true)
  | .mlmeSendAssociationReqCmd _ =>
      ({ ctx.sendCommand with
        txWaitCb := some .mlmeSendAssociationReqContinue }, true)
  | .mlmeHandleOrphanResponse param =>
      ({ ctx.sendCommand with
        txWaitCb := some (.mlmeHandleOrphanResponseContinue param) }, true)

/-- A continuation and what `zb_mac_main_loop` does around it: it clears
`tx_cnt`, which the continuation sets, and `tx_wait_cb`. -/
def continuation (ctx : TransmitCtx) : TransmitCtx :=
  { ctx with txCnt := true, txWaitCb := none }

end TransmitCtx

inductive TransmitStep where
  | callback (call : TransmitCall) (installed : Option TransmitWait)
  | continuation (wait : TransmitWait)

namespace TransmitCtx

/-- The transmitting half of `zb_mac_main_loop`, with what it calls and whether
that starts a transmission. -/
def mainLoop (ctx : TransmitCtx) (outcome : TransmitOutcome) :
    TransmitCtx × Option TransmitStep × Bool :=
  match ctx.txWaitCb with
  | some wait =>
      if ctx.txCnt then (ctx.continuation, some (.continuation wait), false)
      else (ctx, none, false)
  | none =>
      match ctx.macTxQ with
      | [] => (ctx, none, false)
      | call :: rest =>
          let (next, sent) := { ctx with macTxQ := rest }.call outcome call
          (next, some (.callback call next.txWaitCb), sent)

end TransmitCtx

/-- `synchronous` is a transmission outside of the queue, during a scan, a
realignment or an association, which waits for its own end. -/
inductive TransmitEvent where
  | scheduleTxCb (call : TransmitCall)
  | interrupt
  | synchronous
  | mainLoop (outcome : TransmitOutcome)

/-- The queue with the callbacks placed in it, what the main loop has called,
and whether the callback which was called last has started a transmission. -/
structure TransmitRun where
  ctx : TransmitCtx
  scheduled : List TransmitCall
  trace : List TransmitStep
  sent : Bool

namespace TransmitRun

def step (run : TransmitRun) : TransmitEvent → Option TransmitRun
  | .scheduleTxCb call =>
      let (ctx, placed) := run.ctx.scheduleTxCb call
      some { run with
        ctx
        scheduled := if placed then run.scheduled ++ [call] else run.scheduled }
  | .interrupt =>
      if 0 < run.ctx.transmitting then some { run with ctx := run.ctx.interrupt }
      else none
  | .synchronous => some { run with ctx := run.ctx.sendCommand.interrupt }
  | .mainLoop outcome =>
      match run.ctx.mainLoop outcome with
      | (ctx, some step, sent) =>
          some { run with
            ctx
            trace := run.trace ++ [step]
            sent := if step matches .callback _ _ then sent else run.sent }
      | (ctx, none, _) => some { run with ctx }

def start : TransmitRun := ⟨⟨[], none, false, 0⟩, [], [], false⟩

end TransmitRun

end Zboss
