import Zboss.ZdpServer

/-!
# Data confirms and leave confirms

`zb_apsde_data_confirm` and `zb_nlme_leave_confirm` in `zdo_app.c`, with the
requests which lead to them.  What a confirm is for is found out from the
number of its buffer: by the references in the ZDO handle, where 0 means none,
and by the list of pending leaves.  The build is that of a coordinator with
security.
-/

namespace Zboss

/-- `(zb_uint8_t)RET_NO_ACK` -/
def retNoAck : UInt8 := 0xbe

structure ConfirmNode where
  server : ZdpServer
  devAnnce : ℕ
  keySw : ℕ
  started : Bool
  leaveAfterMgmtLeaveRspConf : Bool

inductive ConfirmCall where
  | startupComplete (param : ℕ)
  | nwkKeySwitch
  | dataAcknowledged (param : ℕ)
  | freeBuf (param : ℕ)
  | doLeave (param : ℕ)
  | doLeaveLocal
  | sendLeaveResp (param : ℕ)
  | localLeaveResp (param : ℕ)
  | neighborDelete
  deriving DecidableEq

namespace ConfirmCall

def queued : ConfirmCall → Bool
  | startupComplete _ => true
  | dataAcknowledged _ => true
  | _ => false

def disposes (param : ℕ) : ConfirmCall → Bool
  | startupComplete other => other = param
  | dataAcknowledged other => other = param
  | freeBuf other => other = param
  | doLeave other => other = param
  | localLeaveResp other => other = param
  | _ => false

def leaves : ConfirmCall → Bool
  | doLeave _ => true
  | doLeaveLocal => true
  | _ => false

end ConfirmCall

namespace ConfirmNode

def zbNwkDoLeave (node : ConfirmNode) : ConfirmNode :=
  { node with
    leaveAfterMgmtLeaveRspConf := false
    started := false
    server := { node.server with pendingListSize := 0 } }

def zdoTryMgmtLeaveComplete (node : ConfirmNode) (shortAddress param : ℕ) :
    Option (ConfirmNode × ConfirmCall) :=
  match node.server.findLeave param with
  | none => none
  | some i =>
      let released := { node with server := node.server.releaseLeave i }
      if (node.server.pendingList i).srcAddr = shortAddress then
        some (released, .doLeaveLocal)
      else some (released.zbNwkDoLeave, .doLeave param)

def zbApsdeDataConfirm (node : ConfirmNode) (shortAddress param : ℕ) (status : UInt8)
    (room : Bool) : ConfirmNode × List ConfirmCall :=
  let (next, calls) :=
    if node.devAnnce = param then
      ({ node with devAnnce := 0, started := true },
        if node.started then [] else [.startupComplete param])
    else if node.keySw = param then ({ node with keySw := 0 }, [.nwkKeySwitch])
    else
      match (if node.leaveAfterMgmtLeaveRspConf then
          node.zdoTryMgmtLeaveComplete shortAddress param
        else none) with
      | some (next, call) => (next, [call])
      | none =>
          (node, [if status = 0 ∨ status = retNoAck then .dataAcknowledged param
            else .freeBuf param])
  (next, calls.filter fun call => !call.queued || room)

def zdoTrySendMgmtLeaveRsp
    (node : ConfirmNode) (device : ZdpDevice) (i param : ℕ) (status : UInt8)
    (willLeave : Bool) : ConfirmNode × List ConfirmCall :=
  let (server, calls) := node.server.sendMgmtLeaveRsp device i param status willLeave
  ({ node with server }, calls.flatMap fun call =>
      match call.act with
      | .localResp _ => [.localLeaveResp param, .doLeaveLocal]
      | .sendResp _ => [.sendLeaveResp param]
      | _ => [])

def zbNlmeLeaveConfirm
    (node : ConfirmNode) (device : ZdpDevice) (param : ℕ) (status : UInt8)
    (own : Bool) : ConfirmNode × List ConfirmCall :=
  let willLeave := decide (status = 0) && own
  match node.server.findLeave param with
  | some i =>
      let (next, calls) := node.zdoTrySendMgmtLeaveRsp device i param status willLeave
      ({ next with leaveAfterMgmtLeaveRspConf := willLeave }, calls)
  | none =>
      if willLeave then (node.zbNwkDoLeave, [.doLeave param])
      else (node, [.neighborDelete, .freeBuf param])

def zdoMgmtLeaveCli (node : ConfirmNode) (shortAddress param : ℕ) (tsn : UInt8) :
    ConfirmNode × Option ℕ :=
  match (List.range zdoPendingLeaveSize).find? fun i =>
      !(node.server.pendingList i).used with
  | none => (node, none)
  | some i =>
      ({ node with
        server := { node.server with
          pendingListSize := max node.server.pendingListSize (i + 1)
          pendingList := Function.update node.server.pendingList i
            ⟨true, param, tsn, shortAddress⟩ } }, some i)

end ConfirmNode

inductive RequestPurpose where
  | announcement
  | keySwitch
  | leaveResponse (entry : ℕ)
  | other
  deriving DecidableEq

inductive BufPhase where
  | free
  | leaving (entry : Option ℕ) (own : Bool)
  | sent (purpose : RequestPurpose)
  | lost
  deriving DecidableEq

/-- `annce` and `switch` are the buffers of the last announcement and the last
key switch, until they are confirmed. -/
structure ConfirmRun where
  node : ConfirmNode
  phase : ℕ → BufPhase
  annce : Option ℕ
  switch : Option ℕ
  localLeaves : ℕ

inductive ConfirmEvent where
  | sendDeviceAnnce (param : ℕ)
  | sendNwkKeySwitch (param : ℕ)
  | dataRequest (param : ℕ)
  | mgmtLeaveSrv (ind : ZdpInd)
  | mgmtLeaveCli (shortAddress param : ℕ) (tsn : UInt8) (own : Bool)
  | nlmeLeaveRequest (param : ℕ) (own : Bool)
  | nlmeLeaveConfirm (device : ZdpDevice) (param : ℕ) (status : UInt8) (known : Bool)
  | apsdeDataConfirm (shortAddress param : ℕ) (status : UInt8) (room : Bool)
  | doLeaveLocal

def ZdpInd.ownLeave (ind : ZdpInd) : Bool :=
  (List.range 8).all fun k => ind.frame.byte (1 + k) = 0

namespace ConfirmRun

def setPhase (run : ConfirmRun) (param : ℕ) (phase : BufPhase) : ConfirmRun :=
  { run with phase := Function.update run.phase param phase }

def leftIn (param : ℕ) (calls : List ConfirmCall) : BufPhase :=
  if calls.any (ConfirmCall.disposes param) then .free else .lost

def afterLeaveConfirm (entry : Option ℕ) (willLeave : Bool) (param : ℕ)
    (calls : List ConfirmCall) : BufPhase :=
  if .sendLeaveResp param ∈ calls then
    match entry with
    | some i => .sent (if willLeave then .leaveResponse i else .other)
    | none => .sent .other
  else leftIn param calls

def confirmed (ref : Option ℕ) (param : ℕ) : Option ℕ :=
  if ref = some param then none else ref

def step (run : ConfirmRun) : ConfirmEvent → Option ConfirmRun
  | .sendDeviceAnnce param =>
      if run.phase param = .free then
        some { run.setPhase param (.sent .announcement) with
          node := { run.node with devAnnce := param }
          annce := some param }
      else none
  | .sendNwkKeySwitch param =>
      if run.phase param = .free then
        some { run.setPhase param (.sent .keySwitch) with
          node := { run.node with keySw := param }
          switch := some param }
      else none
  | .dataRequest param =>
      if run.phase param = .free then some (run.setPhase param (.sent .other))
      else none
  | .mgmtLeaveSrv ind =>
      if run.phase ind.param = .free then
        let (server, calls) := run.node.server.mgmtLeaveSrv ind
        let entry := (List.range zdoPendingLeaveSize).find? fun i =>
          !(run.node.server.pendingList i).used
        some { run.setPhase ind.param
            (if calls.any fun call => call.act = .nlmeLeaveRequest then
              .leaving entry ind.ownLeave else .sent .other) with
          node := { run.node with server } }
      else none
  | .mgmtLeaveCli shortAddress param tsn own =>
      if run.phase param = .free then
        let (node, entry) := run.node.zdoMgmtLeaveCli shortAddress param tsn
        some { run.setPhase param
            (if entry.isSome then .leaving entry own else .free) with node }
      else none
  | .nlmeLeaveRequest param own =>
      if run.phase param = .free then some (run.setPhase param (.leaving none own))
      else none
  | .nlmeLeaveConfirm device param status _ =>
      match run.phase param with
      | .leaving entry own =>
          let (node, calls) := run.node.zbNlmeLeaveConfirm device param status own
          some { run.setPhase param
              (afterLeaveConfirm entry (decide (status = 0) && own) param calls) with
            node
            localLeaves := run.localLeaves + calls.count .doLeaveLocal }
      | _ => none
  | .apsdeDataConfirm shortAddress param status room =>
      match run.phase param with
      | .sent _ =>
          let (node, calls) := run.node.zbApsdeDataConfirm shortAddress param status room
          some { run.setPhase param (leftIn param calls) with
            node
            annce := confirmed run.annce param
            switch := confirmed run.switch param
            localLeaves := run.localLeaves + calls.count .doLeaveLocal }
      | _ => none
  | .doLeaveLocal =>
      if 0 < run.localLeaves then
        some { run with
          node := run.node.zbNwkDoLeave
          localLeaves := run.localLeaves - 1 }
      else none

def start (server : ZdpServer) : ConfirmRun where
  node :=
    { server
      devAnnce := 0
      keySw := 0
      started := false
      leaveAfterMgmtLeaveRspConf := false }
  phase := fun _ => .free
  annce := none
  switch := none
  localLeaves := 0

end ConfirmRun

end Zboss
