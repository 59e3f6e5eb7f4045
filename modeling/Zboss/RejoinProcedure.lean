import Zboss.NwkFrame
import Zboss.PanidConflict

/-!
# The rejoin procedure

`zb_nlme_rejoin` in `nwk_join.c` and the handlers which continue it: of the
scan, of the confirms of the requests sent (`zb_mcps_data_confirm`), of the
responses and of their timeout, and of polls (`zb_mlme_poll_confirm`).  The
tables of addresses and neighbors, which the handlers write, are left out: the
address which `zb_nlme_rejoin_scan_confirm` finds there is an argument.
Functions return `none` where the source asserts or follows a pointer to no
entry.
-/

namespace Zboss

/-- The part of `zb_ext_neighbor_tbl_ent_t` which matters for the choice of a
parent; `longAddr` is zero if it is not known. -/
structure ParentCandidate where
  shortAddr : ℕ
  longAddr : IeeeAddr
  panidRef : ℕ
  lqi : UInt8
  updateId : UInt8
  depth : ℕ
  stackProfile : ℕ
  permitJoining : Bool
  routerCapacity : Bool
  endDeviceCapacity : Bool
  potentialParent : Bool
  deriving DecidableEq

/-- `zb_nlme_join_request_t`; `isRouter` is the device type in the capability
information. -/
structure RejoinJoinRequest where
  extendedPanId : ExtPanId
  isRouter : Bool

/-- A rejoin response.  The long addresses are the fields of `zb_nwk_hdr_t`,
whether or not the frame has them. -/
structure RejoinResponseFrame where
  networkAddr : ℕ
  success : Bool
  sourceIeee : Bool
  destinationIeee : Bool
  dstIeeeAddr : IeeeAddr
  srcIeeeAddr : IeeeAddr

inductive RejoinCallback where
  | mlmeScanRequest
  | nwkForward
  | handlePollRequest
  | nlmeRejoinScanConfirm
  | nlmeJoinConfirm
  | nldeDataConfirm
  | nlmeSyncConfirm
  deriving DecidableEq

instance lawful_callbacks : LawfulBEq (RejoinCallback × ℕ) := inferInstance

/-- The fields of `ZG->nwk.handle` with `tmp.rejoin`, the extended neighbor
table in use, the callbacks with buffers and the alarms of
`zb_nlme_rejoin_response_timeout` with theirs. -/
structure RejoinNwk where
  role : StackRole
  state : NlmeState
  candidates : List ParentCandidate
  panidRef : ExtPanId → Option ℕ
  extendedPanId : ExtPanId
  isRouter : Bool
  parent : Option ℕ
  updateId : UInt8
  rxOnWhenIdle : Bool
  extendedAddress : IeeeAddr
  callbacks : List (RejoinCallback × ℕ)
  alarms : List ℕ

/-- `ZB_NWK_UPDATE_ID1_GE_ID2` -/
def nwkUpdateIdGe (id1 id2 : UInt8) : Bool :=
  decide ((id1.toNat : ℤ) - id2.toNat < 127)

/-- The conditions of `nwk_choose_parent` on an entry. -/
def ParentCandidate.isSuitable
    (ne : ParentCandidate) (role : StackRole) (panidRef : ℕ) (isRouter : Bool)
    (updateId : UInt8) : Bool :=
  ne.panidRef == panidRef && ne.potentialParent && ne.permitJoining && (match role with
      | .router =>
          if isRouter && ne.stackProfile == 1 then ne.routerCapacity
          else ne.endDeviceCapacity
      | .endDevice => ne.endDeviceCapacity) &&
    decide (3 ≤ ne.lqi.toNat / (256 / 8)) && nwkUpdateIdGe ne.updateId updateId

/-- The check of a response in `zb_nlme_rejoin_response`. -/
def RejoinResponseFrame.isCorrect
    (frame : RejoinResponseFrame) (extendedAddress parentAddr : IeeeAddr) :
    Bool :=
  frame.success && !nwkIsAddressBroadcast frame.networkAddr && frame.sourceIeee &&
    (!frame.destinationIeee || decide (frame.dstIeeeAddr = extendedAddress)) &&
    (decide (parentAddr = .zero) || decide (frame.srcIeeeAddr = parentAddr))

namespace RejoinNwk

def schedule (nwk : RejoinNwk) (callback : RejoinCallback) (param : ℕ) :
    RejoinNwk :=
  { nwk with callbacks := nwk.callbacks ++ [(callback, param)] }

def take (nwk : RejoinNwk) (callback : RejoinCallback) (param : ℕ) :
    Option RejoinNwk :=
  if (callback, param) ∈ nwk.callbacks then
    some { nwk with callbacks := nwk.callbacks.erase (callback, param) }
  else none

def setCandidate (nwk : RejoinNwk) (i : ℕ) (ne : ParentCandidate) : RejoinNwk :=
  { nwk with candidates := nwk.candidates.set i ne }

def chooseStep (nwk : RejoinNwk) (panidRef : ℕ) (ret : Option (ParentCandidate × ℕ))
    (ne : ParentCandidate × ℕ) : Option (ParentCandidate × ℕ) :=
  if ne.1.isSuitable nwk.role panidRef nwk.isRouter nwk.updateId then
    match ret with
    | some best =>
        if ne.1.depth ≥ best.1.depth ∨ best.1.lqi > ne.1.lqi then ret
        else some ne
    | none => some ne
  else ret

/-- `nwk_choose_parent`.  The build of a router looks at the stack profile of
the parent even if there is none. -/
def nwkChooseParent (nwk : RejoinNwk) (panidRef : ℕ) :
    Option (Option (ParentCandidate × ℕ)) :=
  match nwk.candidates.zipIdx.foldl (nwk.chooseStep panidRef) none, nwk.role with
  | some best, _ => some (some best)
  | none, .endDevice => some none
  | none, .router => none

def nlmeRejoin (nwk : RejoinNwk) (param : ℕ) (request : RejoinJoinRequest) :
    RejoinNwk :=
  if nwk.state = .idle then
    { nwk with
      state := .rejoin
      extendedPanId := request.extendedPanId
      isRouter := request.isRouter }.schedule .mlmeScanRequest param
  else nwk.schedule .nlmeJoinConfirm param

def rejoinFailed (nwk : RejoinNwk) (param : ℕ) : RejoinNwk :=
  { nwk with state := .idle, candidates := [] }.schedule .nlmeJoinConfirm param

def nlmeRejoinScanConfirm (nwk : RejoinNwk) (param : ℕ) (known : Option IeeeAddr) :
    Option RejoinNwk :=
  match nwk.panidRef nwk.extendedPanId with
  | none => some (nwk.rejoinFailed param)
  | some panidRef => do
      let bestParent ← nwk.nwkChooseParent panidRef
      match bestParent with
      | none => return nwk.rejoinFailed param
      | some (ne, i) =>
          let longAddr := if ne.longAddr = .zero then known.getD .zero else ne.longAddr
          return { nwk.setCandidate i { ne with longAddr := longAddr } with
            parent := some i }.schedule .nwkForward param

def removeParentFromPotentialParents (nwk : RejoinNwk) : Option RejoinNwk :=
  match nwk.parent with
  | none => some nwk
  | some i => do
      let parent ← nwk.candidates[i]?
      return nwk.setCandidate i { parent with potentialParent := false }

def nlmeRejoinResponseTimeout (nwk : RejoinNwk) (param : ℕ) :
    Option RejoinNwk := do
  if nwk.parent.isSome ∧ ¬ nwk.rxOnWhenIdle then
    return nwk.schedule .handlePollRequest param
  else if nwk.parent.isSome then
    let next ← nwk.removeParentFromPotentialParents
    return next.schedule .nlmeRejoinScanConfirm param
  else return nwk

/-- `ZB_SCHEDULE_ALARM_CANCEL` with `ZB_ALARM_ANY_PARAM`, which cancels the
first alarm. -/
def cancelTimeout (nwk : RejoinNwk) : RejoinNwk :=
  { nwk with alarms := nwk.alarms.tail }

def nlmeRejoinResponse (nwk : RejoinNwk) (param : ℕ) (frame : RejoinResponseFrame) :
    Option (RejoinNwk × List ℕ) :=
  if nwk.state = .rejoin then do
    let i ← nwk.parent
    let parent ← nwk.candidates[i]?
    if frame.isCorrect nwk.extendedAddress parent.longAddr then
      return ((({ nwk with state := .idle, candidates := [] }).schedule
        .nlmeJoinConfirm param).cancelTimeout, [])
    else
      return (((nwk.setCandidate i { parent with potentialParent := false }).schedule
          .nlmeRejoinScanConfirm param).cancelTimeout, [])
  else some (nwk, [param])

/-- `zb_mcps_data_confirm` for a frame with the handle
`ZB_NWK_INTERNAL_REJOIN_CMD_HANDLE`. -/
def mcpsDataConfirm (nwk : RejoinNwk) (param : ℕ) : RejoinNwk :=
  if nwk.state = .rejoin then
    { nwk.cancelTimeout with alarms := nwk.cancelTimeout.alarms ++ [param] }
  else nwk.schedule .nldeDataConfirm param

def mlmePollConfirm (nwk : RejoinNwk) (param : ℕ) (success : Bool) :
    Option RejoinNwk :=
  if nwk.state = .rejoin then
    if success then some nwk
    else do
      let next ← nwk.removeParentFromPotentialParents
      return next.schedule .nlmeRejoinScanConfirm param
  else some (nwk.schedule .nlmeSyncConfirm param)

end RejoinNwk

/-- What may happen.  `call` is the call of a scheduled callback, `poll` a poll
which the device makes for another reason, `undelivered` the release of a
request by the network layer, `beacons` what the tables become by beacons and
`other` what other procedures leave behind while no rejoin is under way. -/
inductive RejoinProcedureEvent where
  | rejoin (param : ℕ) (request : RejoinJoinRequest)
  | beacons (candidates : List ParentCandidate) (panidRef : ExtPanId → Option ℕ)
  | scanConfirm (param : ℕ) (known : Option IeeeAddr)
  | call (callback : RejoinCallback) (param : ℕ) (known : Option IeeeAddr)
  | undelivered (param : ℕ)
  | dataConfirm (param : ℕ)
  | rejoinResponse (param : ℕ) (frame : RejoinResponseFrame)
  | responseTimeout (param : ℕ)
  | poll (param : ℕ)
  | pollConfirm (param : ℕ) (success : Bool)
  | other (state : NlmeState) (parent : Option ℕ) (updateId : UInt8)

/-- A step with the buffers which leave: they are freed, or handed to the upper
layer. -/
def RejoinNwk.step (nwk : RejoinNwk) : RejoinProcedureEvent → Option (RejoinNwk × List ℕ)
  | .rejoin param request => some (nwk.nlmeRejoin param request, [])
  | .beacons candidates panidRef =>
      if nwk.candidates.length ≤ candidates.length then
        some ({ nwk with candidates := candidates, panidRef := panidRef }, [])
      else none
  | .scanConfirm param known => do
      let taken ← nwk.take .mlmeScanRequest param
      if taken.state = .rejoin then
        let next ← taken.nlmeRejoinScanConfirm param known
        return (next, [])
      else none
  | .call .nlmeRejoinScanConfirm param known => do
      let taken ← nwk.take .nlmeRejoinScanConfirm param
      let next ← taken.nlmeRejoinScanConfirm param known
      return (next, [])
  | .call .nlmeJoinConfirm param _ => do
      let taken ← nwk.take .nlmeJoinConfirm param
      return (taken, [param])
  | .call .nldeDataConfirm param _ => do
      let taken ← nwk.take .nldeDataConfirm param
      return (taken, [param])
  | .call .nlmeSyncConfirm param _ => do
      let taken ← nwk.take .nlmeSyncConfirm param
      return (taken, [param])
  | .call _ _ _ => none
  | .undelivered param => do
      let taken ← nwk.take .nwkForward param
      return (taken, [param])
  | .dataConfirm param => do
      let taken ← nwk.take .nwkForward param
      return (taken.mcpsDataConfirm param, [])
  | .rejoinResponse param frame => nwk.nlmeRejoinResponse param frame
  | .responseTimeout param => do
      if param ∈ nwk.alarms then
        let next ← { nwk with
          alarms := nwk.alarms.erase param }.nlmeRejoinResponseTimeout param
        return (next, [])
      else none
  | .poll param => some (nwk.schedule .handlePollRequest param, [])
  | .pollConfirm param success => do
      let taken ← nwk.take .handlePollRequest param
      let next ← taken.mlmePollConfirm param success
      return (next, [])
  | .other state parent updateId =>
      if nwk.state ≠ .rejoin ∧ state ≠ .rejoin then
        some ({ nwk with
          state := state
          parent := parent
          updateId := updateId }, [])
      else none

end Zboss
