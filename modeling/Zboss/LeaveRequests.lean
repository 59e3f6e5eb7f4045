import Zboss.RejoinRequests

/-!
# Children which leave

`zb_nlme_leave_request` in `nwk_nlme.c` on a coordinator or router, the confirm
and the indication in `zdo_app.c` which take a child out of the tables, and
`zb_nwk_forget_device`.  Functions return `none` where the source asserts or
follows a null pointer.
-/

namespace Zboss

structure LeaveRequest where
  deviceAddress : IeeeAddr
  removeChildren : Bool
  rejoin : Bool

inductive LeaveStatus where
  | success
  | invalidRequest
  | unknownDevice

/-- A LEAVE command to a child (`request` is set) or about the device itself. -/
structure LeaveCommand where
  dstAddr : ℕ
  dstIeee : Option IeeeAddr
  rejoin : Bool
  removeChildren : Bool
  request : Bool

inductive LeaveCall where
  | nwkForward (command : LeaveCommand)
  | nlmeLeaveConfirm (status : LeaveStatus) (deviceAddress : IeeeAddr)

structure ParentRouter where
  router : RejoinRouter
  deviceType : DeviceType

namespace ParentRouter

def setZg (parent : ParentRouter) (zg : Globals) : ParentRouter :=
  { parent with router := { parent.router with zg := zg } }

def setNib (parent : ParentRouter) (nib : TreeNib) : ParentRouter :=
  { parent with router := { parent.router with nib := nib } }

end ParentRouter

/-- The last address which was assigned to an end device,
`ZB_NWK_ED_ADDRESS_ASSIGN()-1`. -/
def TreeNib.IsLastEdAddress (nib : TreeNib) (address : ℕ) : Prop :=
  address + 1 = nib.edAddressSum

instance (nib : TreeNib) (address : ℕ) :
    Decidable (nib.IsLastEdAddress address) :=
  inferInstanceAs (Decidable (_ = _))

/-- The number of end devices after `ed_child_num--`, a number of 8 bits. -/
def TreeNib.dropEdChild (nib : TreeNib) : TreeNib :=
  { nib with edChildNum := (nib.edChildNum + 255) % 256 }

def leaveCommand (zg : Globals) (n : ℕ) (r : LeaveRequest) : LeaveCommand :=
  let ent := zg.neighbor.baseNeighbor n
  { dstAddr := (zg.addr.addrMap ent.addrRef).addr
    dstIeee := some (zbIeeeAddrDecompress zg.addr (zg.addr.addrMap ent.addrRef).ieeeAddr)
    rejoin := r.rejoin
    removeChildren := r.removeChildren
    request := true }

def zbNlmeLeaveRequest (parent : ParentRouter) (r : LeaveRequest) :
    Option (ParentRouter × LeaveCall) :=
  let refuse (parent : ParentRouter) (status : LeaveStatus) :=
    some (parent, LeaveCall.nlmeLeaveConfirm status r.deviceAddress)
  if parent.router.zg.joined then
    if r.deviceAddress ≠ .zero ∧
        (parent.deviceType = .coordinator ∨ parent.deviceType = .router) then do
      let (zg, row) ← zbNwkNeighborGetByIeee parent.router.zg r.deviceAddress
      let parent := parent.setZg zg
      match row with
      | none => refuse parent .unknownDevice
      | some n =>
          match (zg.neighbor.baseNeighbor n).relationship with
          | .unauthenticatedChild => refuse parent .success
          | .child =>
              let command := leaveCommand zg n r
              let nib := parent.router.nib
              let nib :=
                if nib.IsLastEdAddress command.dstAddr then nib.dropEdChild
                else nib
              some (parent.setNib nib, .nwkForward command)
          | _ => refuse parent .unknownDevice
    else none
  else refuse parent .invalidRequest

/-- `zb_nwk_do_leave`, as far as the tables are concerned.  Without `rejoin` the
network address becomes 0xFFFF. -/
def zbNwkDoLeave (parent : ParentRouter) (rejoin : Bool) : ParentRouter :=
  let router := parent.router
  let zg := { router.zg with joined := false }
  let router := { router with zg := zg, rejoinReqTableCnt := 0 }
  if rejoin then { parent with router := router }
  else
    { parent with
      router :=
        { router with
          zg := forgetOwnAddress zg router.nib.macShortAddress
          nib := { router.nib with macShortAddress := 0xFFFF } } }

/-- `mgmtRsp` tells whether the leave was asked for by a management request,
whose response is sent first; `rejoin` is `rejoin_after_leave`. -/
def zbNlmeLeaveConfirm (parent : ParentRouter) (mgmtRsp success rejoin : Bool)
    (deviceAddress : IeeeAddr) : Option ParentRouter :=
  if mgmtRsp then some parent
  else if success ∧ deviceAddress = .zero then some (zbNwkDoLeave parent rejoin)
  else do
    let (zg, row) ← zbNwkNeighborGetByIeee parent.router.zg deviceAddress
    match row with
    | some n =>
        some (parent.setZg (zbNwkNeighborDelete zg (zg.neighbor.baseNeighbor n).addrRef).1)
    | none => none

def zbNlmeLeaveIndication
    (parent : ParentRouter) (deviceAddress : IeeeAddr) (rejoin : Bool) :
    Option ParentRouter :=
  if deviceAddress = .zero then some (zbNwkDoLeave parent rejoin)
  else do
    let (zg, row) ← zbNwkNeighborGetByIeee parent.router.zg deviceAddress
    match row with
    | some n => some (parent.setZg (forgetDevice zg (zg.neighbor.baseNeighbor n).addrRef))
    | none => some (parent.setZg zg)

/-- `doLeave` is the leave after the management response. -/
inductive ParentEvent where
  | accept (deviceAddress : IeeeAddr) (capability : RejoinCapability) (lqi : UInt8)
  | leaveRequest (r : LeaveRequest)
  | leaveConfirm (mgmtRsp success rejoin : Bool) (deviceAddress : IeeeAddr)
  | leaveIndication (deviceAddress : IeeeAddr) (rejoin : Bool)
  | doLeave (rejoin : Bool)
  | forget (addrRef : ℕ)

namespace ParentRouter

def step (parent : ParentRouter) : ParentEvent → Option ParentRouter
  | .accept deviceAddress capability lqi =>
      (parent.router.acceptChild deviceAddress capability lqi).map
        fun accepted => { parent with router := accepted.1 }
  | .leaveRequest r => (zbNlmeLeaveRequest parent r).map Prod.fst
  | .leaveConfirm mgmtRsp success rejoin deviceAddress =>
      zbNlmeLeaveConfirm parent mgmtRsp success rejoin deviceAddress
  | .leaveIndication deviceAddress rejoin =>
      zbNlmeLeaveIndication parent deviceAddress rejoin
  | .doLeave rejoin => some (zbNwkDoLeave parent rejoin)
  | .forget addrRef => some (parent.setZg (forgetDevice parent.router.zg addrRef))

end ParentRouter

end Zboss
