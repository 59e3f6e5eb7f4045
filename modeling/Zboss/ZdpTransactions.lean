import Zboss.AddressTranslation

/-!
# ZDP transactions

The table of callbacks in `zdo_common.c` and the three ways to `zdo_af_resp`:
responses and notifications in `zdo_rx.c`, packets which were not acknowledged
in `af_rx.c`, and the end of a local leave in `zdo_nwk_manage_srv.c`.
-/

namespace Zboss

def zdoTranTableSize : ℕ := 16

/-- `zdo_cb_hash_ent_t`.  `request` is the request which registered the
callback; the code does not keep it. -/
structure ZdoCbEnt where
  func : Option ℕ
  tsn : UInt8
  respCounter : UInt8
  request : ℕ
  deriving DecidableEq

structure ZdoTransactions where
  tsn : UInt8
  zdoCb : ℕ → ZdoCbEnt
  systemServerDiscoveryCb : Option ℕ
  systemServerDiscoveryTsn : UInt8

def tsnHash (tsn : UInt8) : ℕ :=
  (hashFuncStep 5381 tsn.toUInt32 &&& 0x7FFFFFFF).toNat % zdoTranTableSize

namespace ZdoTransactions

def search (ctx : ZdoTransactions) (tsn : UInt8) (accept : ZdoCbEnt → Bool) :
    Option ℕ :=
  CyclicProbe.probe (fun i => accept (ctx.zdoCb i)) zdoTranTableSize
    zdoTranTableSize (tsnHash tsn)

def setEnt (ctx : ZdoTransactions) (i : ℕ) (ent : ZdoCbEnt) :
    ZdoTransactions :=
  { ctx with zdoCb := Function.update ctx.zdoCb i ent }

def registerZdoCb (ctx : ZdoTransactions) (tsn : UInt8) (cb : Option ℕ)
    (respCounter : UInt8) (request : ℕ) : ZdoTransactions :=
  match cb with
  | none => ctx
  | some cb =>
      match ctx.search tsn fun ent => ent.func.isNone with
      | some i => ctx.setEnt i ⟨some cb, tsn, respCounter, request⟩
      | none => ctx

def zdoAfResp (ctx : ZdoTransactions) (tsn : UInt8) :
    ZdoTransactions × Option ZdoCbEnt :=
  match ctx.search tsn fun ent => ent.tsn == tsn && ent.func.isSome with
  | some i =>
      let ent := ctx.zdoCb i
      let left := ent.respCounter - 1
      (ctx.setEnt i { ent with
        func := if left = 0 then none else ent.func
        respCounter := left }, some ent)
  | none => (ctx, none)

end ZdoTransactions

structure ZdpRequest where
  tsn : UInt8
  cb : Option ℕ
  respCounter : UInt8
  cmdNoResp : Bool
  arrived : ℕ

/-- What is sent and what is passed to `zdo_af_resp`.  `origin` is the request
which a packet answers, or which it is itself; a packet of the application, a
response of this device and a notification nobody asked for have none. -/
inductive ZdpEvent where
  | sendReq (cb : Option ℕ) (respCounter : UInt8) (cmdNoResp : Bool)
  | sendDeviceAnnce
  | systemServerDiscoveryReq (cb : Option ℕ)
  | mgmtLeaveCli (cb : Option ℕ) (full room : Bool)
  | response (tsn : UInt8) (origin : Option ℕ) (room : Bool)
  | systemServerDiscoveryResp (tsn : UInt8) (room : Bool)
  | dataAcknowledged (tsn : UInt8) (origin : Option ℕ) (noAck room : Bool)

/-- `scheduled` has the entries whose callbacks were scheduled, each with the
origin of the packet it was scheduled for. -/
structure ZdpRun where
  ctx : ZdoTransactions
  requests : List ZdpRequest
  scheduled : List (ZdoCbEnt × Option ℕ)
  nulls : ℕ

namespace ZdpRun

def sendReq (run : ZdpRun) (cb : Option ℕ) (respCounter : UInt8) (cmdNoResp : Bool) :
    ZdpRun :=
  let tsn := run.ctx.tsn + 1
  { run with
    ctx := { run.ctx with tsn }.registerZdoCb tsn cb respCounter run.requests.length
    requests := run.requests ++ [⟨tsn, cb, respCounter, cmdNoResp, 0⟩] }

def schedule (run : ZdpRun) (cb : Option ℕ) (room : Bool) : ZdpRun :=
  if room ∧ cb = none then { run with nulls := run.nulls + 1 } else run

def afResp (run : ZdpRun) (tsn : UInt8) (origin : Option ℕ) (room : Bool) :
    ZdpRun :=
  let (ctx, found) := run.ctx.zdoAfResp tsn
  { run with
    ctx
    requests :=
      match origin with
      | some request => run.requests.modify request fun req =>
          { req with arrived := req.arrived + 1 }
      | none => run.requests
    scheduled := run.scheduled ++
      if room then found.toList.map fun ent => (ent, origin) else [] }

def genuine (run : ZdpRun) (tsn : UInt8) (origin : Option ℕ) : Bool :=
  origin.all fun request => run.requests[request]?.any fun req => req.tsn == tsn

def cmdNoResp (run : ZdpRun) (origin : Option ℕ) : Bool :=
  origin.any fun request => run.requests[request]?.any ZdpRequest.cmdNoResp

def step (run : ZdpRun) : ZdpEvent → Option ZdpRun
  | .sendReq cb respCounter cmdNoResp => some (run.sendReq cb respCounter cmdNoResp)
  | .sendDeviceAnnce => some { run with ctx := { run.ctx with tsn := run.ctx.tsn + 1 } }
  | .systemServerDiscoveryReq cb =>
      let next := run.sendReq none 1 false
      some { next with
        ctx := { next.ctx with
          systemServerDiscoveryCb := cb
          systemServerDiscoveryTsn := next.ctx.tsn } }
  | .mgmtLeaveCli cb full room =>
      -- a full list of pending leaves answers at once
      some (if full then run.schedule cb room else run.sendReq cb 1 false)
  | .response tsn origin room =>
      if run.genuine tsn origin then some (run.afResp tsn origin room) else none
  | .systemServerDiscoveryResp tsn room =>
      some (if tsn = run.ctx.systemServerDiscoveryTsn then
        run.schedule run.ctx.systemServerDiscoveryCb room else run)
  | .dataAcknowledged tsn origin noAck room =>
      if run.genuine tsn origin then
        some (if noAck ∨ run.cmdNoResp origin then run.afResp tsn origin room else run)
      else none

def start : ZdpRun where
  ctx :=
    { tsn := 0
      zdoCb := fun _ => ⟨none, 0, 0, 0⟩
      systemServerDiscoveryCb := none
      systemServerDiscoveryTsn := 0 }
  requests := []
  scheduled := []
  nulls := 0

end ZdpRun

end Zboss
