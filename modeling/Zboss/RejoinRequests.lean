import Zboss.NeighborTable
import Zboss.TreeNetwork

/-!
# Rejoin requests

`zb_nlme_rejoin_request` and `zb_nlme_rejoin_resp_sent` in `nwk_cr_join.c`, with
`zb_nwk_accept_child` on the address table and the neighbor table.  Functions
return `none` where the source asserts, or where it reads the row of a neighbor
which it has not found.
-/

namespace Zboss

def nwkRejoinRequestTableSize : ℕ := 3

structure RejoinCapability extends MacCapability where
  rxOnWhenIdle : Bool

structure RejoinFrame where
  sourceIeee : Option IeeeAddr
  srcAddr : ℕ
  security : Bool
  capability : RejoinCapability
  lqi : UInt8

/-- The response to a request, whose confirm goes to
`zb_nlme_rejoin_resp_sent` if the request has been granted. -/
structure RejoinResponse where
  dstAddr : ℕ
  dstIeee : IeeeAddr
  security : Bool
  networkAddr : ℕ
  granted : Bool

structure JoinIndication where
  networkAddress : ℕ
  extendedAddress : IeeeAddr
  isRouter : Bool
  rxOnWhenIdle : Bool
  secureRejoin : Bool

structure RejoinRouter where
  zg : Globals
  nib : TreeNib
  securityLevel : ℕ
  rejoinReqTable : ℕ → ℕ
  rejoinReqTableCnt : ℕ

def zbNwkNeighborGetByIeee (zg : Globals) (longAddr : IeeeAddr) :
    Option (Globals × Option ℕ) := do
  let (addr, ret) ← zbAddressByIeee zg.addr longAddr false false
  let zg := { zg with addr := addr }
  match ret with
  | .ok ref =>
      let (zg, ret) ← zbNwkNeighborGet zg ref false
      some (zg, ret.toOption)
  | .error _ => some (zg, none)

def RejoinCapability.SameAs
    (capability : RejoinCapability) (ent : NeighborTblEnt) : Prop :=
  (ent.deviceType = .router ↔ capability.isRouter = true) ∧
    capability.rxOnWhenIdle = ent.rxOnWhenIdle

instance (capability : RejoinCapability) (ent : NeighborTblEnt) :
    Decidable (capability.SameAs ent) :=
  inferInstanceAs (Decidable (_ ∧ _))

def knownChild (zg : Globals) (deviceAddress : IeeeAddr) (capability : RejoinCapability) :
    Option (Globals × Option ℕ) := do
  let (zg, row) ← zbNwkNeighborGetByIeee zg deviceAddress
  match row with
  | some n =>
      let ent := zg.neighbor.baseNeighbor n
      if capability.SameAs ent then some (zg, some n)
      else some ((zbNwkNeighborDelete zg ent.addrRef).1, none)
  | none => some (zg, none)

def registerChild (zg : Globals) (deviceAddress : IeeeAddr) (address : ℕ) :
    Option (Globals × Option ℕ) := do
  let (addr, ret) ← zbAddressUpdate zg.addr deviceAddress address true
  let zg := { zg with addr := addr }
  match ret with
  | .ok ieeeRef => do
      let (zg, ret) ← zbNwkNeighborGet zg ieeeRef true
      match ret with
      | .ok n => some (zg, some n)
      | .error _ => do
          let addr ← zbAddressUnlock zg.addr ieeeRef
          some ({ zg with addr := addr }, none)
  | .error _ => some (zg, none)

namespace RejoinRouter

def childRow (router : RejoinRouter) (ent : NeighborTblEnt)
    (capability : RejoinCapability) (lqi : UInt8) : NeighborTblEnt :=
  { ent with
    deviceType := if capability.isRouter then .router else .endDevice
    rxOnWhenIdle := capability.rxOnWhenIdle
    relationship := if router.securityLevel ≠ 0 then .unauthenticatedChild else .child
    depth := router.nib.depth + if router.nib.depth < router.nib.maxDepth then 1 else 0
    permitJoining := if capability.isRouter then ent.permitJoining else 0
    lqi := lqi }

def setChildRow (router : RejoinRouter) (n : ℕ) (capability : RejoinCapability)
    (lqi : UInt8) : RejoinRouter :=
  let nt := router.zg.neighbor
  { router with
    zg :=
      { router.zg with
        neighbor := nt.setRow n (router.childRow (nt.baseNeighbor n) capability lqi) } }

/-- `zb_nwk_accept_child`; the counters are those of `zbNwkAcceptChild`. -/
def acceptChild (router : RejoinRouter) (deviceAddress : IeeeAddr)
    (capability : RejoinCapability) (lqi : UInt8) :
    Option (RejoinRouter × Option ℕ) := do
  let (zg, known) ← knownChild router.zg deviceAddress capability
  let count (known : Option ℕ) (registered : Bool) : TreeNib :=
    (zbNwkAcceptChild router.nib known capability.toMacCapability registered).1
  match known with
  | some n =>
      let address := (zg.addr.addrMap (zg.neighbor.baseNeighbor n).addrRef).addr
      let router := { router with zg := zg, nib := count (some address) true }
      some (router.setChildRow n capability lqi, some address)
  | none =>
      match (router.nib.admitChild capability.toMacCapability).2 with
      | some address => do
          let (zg, row) ← registerChild zg deviceAddress address
          let router := { router with zg := zg, nib := count none row.isSome }
          match row with
          | some n => some (router.setChildRow n capability lqi, some address)
          | none => some (router, none)
      | none => some ({ router with zg := zg, nib := count none false }, none)

end RejoinRouter

def zbNlmeRejoinRequest (router : RejoinRouter) (frame : RejoinFrame) :
    Option (RejoinRouter × Option RejoinResponse) :=
  match frame.sourceIeee with
  | some deviceAddress =>
      if router.rejoinReqTableCnt < nwkRejoinRequestTableSize then do
        let (router, address) ←
          router.acceptChild deviceAddress frame.capability frame.lqi
        let response : RejoinResponse :=
          { dstAddr := frame.srcAddr
            dstIeee := deviceAddress
            security := frame.security
            networkAddr := address.getD 0xFFFF
            granted := address.isSome }
        match address with
        | some address =>
            some
              ({ router with
                  rejoinReqTable :=
                    Function.update router.rejoinReqTable router.rejoinReqTableCnt address
                  rejoinReqTableCnt := router.rejoinReqTableCnt + 1 },
                some response)
        | none => some (router, some response)
      else some (router, none)
  | none => some (router, none)

def zbNlmeRejoinRespSent (router : RejoinRouter) (security : Bool) :
    Option (RejoinRouter × JoinIndication) := do
  if router.rejoinReqTableCnt ≠ 0 then
    let (addr, ret) ←
      zbAddressByShort router.zg.addr
        (router.rejoinReqTable (router.rejoinReqTableCnt - 1)) false false
    match ret with
    | .ok addrRef =>
        let zg := { router.zg with addr := addr }
        let n := zg.neighbor.addrToNeighbor addrRef
        let nent := zg.neighbor.baseNeighbor n
        if n ≠ noNeighbor then
          some
            ({ router with
                zg := zg
                rejoinReqTableCnt := router.rejoinReqTableCnt - 1 },
              { networkAddress := (addr.addrMap addrRef).addr
                extendedAddress :=
                  zbIeeeAddrDecompress addr (addr.addrMap addrRef).ieeeAddr
                isRouter := nent.deviceType = .router
                rxOnWhenIdle := nent.rxOnWhenIdle
                secureRejoin := !security })
        else none
    | .error _ => none
  else none

structure RejoinRun where
  router : RejoinRouter
  outstanding : List (RejoinFrame × RejoinResponse)

inductive RejoinEvent where
  | request (frame : RejoinFrame)
  | confirm

namespace RejoinRun

def Enabled (run : RejoinRun) : RejoinEvent → Prop
  | .request frame => ∀ other ∈ run.outstanding, other.1.sourceIeee ≠ frame.sourceIeee
  | .confirm => run.outstanding ≠ []

instance (run : RejoinRun) (event : RejoinEvent) :
    Decidable (run.Enabled event) :=
  match event with
  | .request frame =>
      inferInstanceAs (Decidable
          (∀ other ∈ run.outstanding, other.1.sourceIeee ≠ frame.sourceIeee))
  | .confirm => inferInstanceAs (Decidable (run.outstanding ≠ []))

def step (run : RejoinRun) (event : RejoinEvent) : Option RejoinRun :=
  if run.Enabled event then
    match event with
    | .request frame => do
        let (router, response) ← zbNlmeRejoinRequest run.router frame
        let sent := response.toList.filter RejoinResponse.granted
        some
          { router := router
            outstanding := run.outstanding ++ sent.map (frame, ·) }
    | .confirm =>
        match run.outstanding with
        | (_, response) :: rest => do
            let (router, _) ←
              zbNlmeRejoinRespSent run.router response.security
            some { router := router, outstanding := rest }
        | [] => none
  else none

def ConfirmRight (run : RejoinRun) : RejoinEvent → Prop
  | .request _ => True
  | .confirm =>
      ∀ frame response rest, run.outstanding = (frame, response) :: rest →
        ∃ router indication, zbNlmeRejoinRespSent run.router response.security =
              some (router, indication) ∧
            some indication.extendedAddress = frame.sourceIeee ∧
            indication.networkAddress = response.networkAddr ∧
            indication.isRouter = frame.capability.isRouter ∧
            indication.rxOnWhenIdle = frame.capability.rxOnWhenIdle ∧
            indication.secureRejoin = !frame.security

end RejoinRun

end Zboss
