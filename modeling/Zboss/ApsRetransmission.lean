import Zboss.BufferPool
import Zboss.NwkFrame

/-!
# Retransmissions of the APS layer

The table of packets which wait for an APS acknowledgement in `aps_main.c`, with
the functions which fill, read and empty it. Buffers are known by their
references, and of a buffer only the frame control field of its APS header is
present.
-/

namespace Zboss

def nApsRetransEntries : ℕ := 10

def nApsMaxFrameEntries : ℕ := 3

/-- `(zb_uint16_t)-1` -/
def noRetransAddr : ℕ := 0xFFFF

/-- `(zb_uint8_t)-1` -/
def noRetransBuf : ℕ := 0xFF

/-- `zb_aps_retrans_ent_state_e` -/
inductive RetransState where
  | free
  | sentMacNotConfirmed
  | sentMacNotConfirmedApsAcked
  | sentMacConfirmed
  deriving DecidableEq

structure ApsRetransEnt where
  addr : ℕ
  clusterid : ℕ
  apsCounter : UInt8
  srcEndpoint : ℕ
  dstEndpoint : ℕ
  buf : ℕ
  apsRetries : ℕ
  nwkInsecure : Bool
  state : RetransState

inductive ApsFrameType where
  | data
  | command
  | ack
  deriving DecidableEq

inductive ApsDeliveryMode where
  | unicast
  | broadcast
  | group
  deriving DecidableEq

structure ApsFc where
  frameType : ApsFrameType
  deliveryMode : ApsDeliveryMode
  ackFormat : Bool
  security : Bool
  ackRequest : Bool

structure ApsGlobals where
  hash : ℕ → ApsRetransEnt
  apsCounter : UInt8
  fc : ℕ → ApsFc
  ackAlarms : Multiset ℕ

/-- What the switch over the address mode gives. -/
inductive ApsDst where
  | noBoundDevice
  | unknownPeer
  | group
  | address (mode : ApsDeliveryMode) (addr dstEndpoint : ℕ)

/-- `zb_apsde_data_req_t`, after the switch over its address mode. -/
structure ApsdeDataReq where
  dst : ApsDst
  srcEndpoint : ℕ
  clusterid : ℕ
  optAckTx : Bool

/-- The fields of `zb_aps_hdr_t` which are compared for an acknowledgement. -/
structure ApsAckHdr where
  srcAddr : ℕ
  ackFormat : Bool
  clusterid : ℕ
  srcEndpoint : ℕ
  dstEndpoint : ℕ
  apsCounter : UInt8

inductive ApsStatus where
  | ok
  | tableFull
  | noAck
  deriving DecidableEq

inductive ApsOutput where
  | nldeDataRequest (buf : ℕ) (addr : Option ℕ) (security : Bool)
  | dataConfirm (buf : ℕ) (status : Option ApsStatus)
  | getPeerShortAddr (buf : ℕ)
  | freeBuf (buf : ℕ)
  deriving DecidableEq

namespace ApsGlobals

def setEnt (g : ApsGlobals) (i : ℕ) (ent : ApsRetransEnt) : ApsGlobals :=
  { g with hash := Function.update g.hash i ent }

def freeEnt (g : ApsGlobals) : Option ℕ :=
  (List.range nApsRetransEntries).find? fun i => (g.hash i).state = .free

/-- `ZB_SCHEDULE_ALARM(zb_aps_ack_timer_cb, i, ZB_N_APS_ACK_WAIT_DURATION)` -/
def startAlarm (g : ApsGlobals) (accepted : Bool) (i : ℕ) : ApsGlobals :=
  if accepted then { g with ackAlarms := i ::ₘ g.ackAlarms } else g

def setFc (g : ApsGlobals) (buf : ℕ) (fc : ApsFc) : ApsGlobals :=
  { g with fc := Function.update g.fc buf fc }

end ApsGlobals

def zbApsInit (apsCounter : UInt8) : ApsGlobals where
  hash _ :=
    { addr := noRetransAddr
      clusterid := 0
      apsCounter := 0
      srcEndpoint := 0
      dstEndpoint := 0
      buf := noRetransBuf
      apsRetries := 0
      nwkInsecure := false
      state := .free }
  apsCounter := apsCounter
  fc _ := ⟨.data, .unicast, false, false, false⟩
  ackAlarms := 0

/-- The security of the APS layer is not compiled, so that the options for it are
not looked at. -/
def apsDataHdrFillDatareq (g : ApsGlobals) (fc : ApsFc) (apsdu : ℕ) : ApsGlobals :=
  { g.setFc apsdu fc with apsCounter := g.apsCounter + 1 }

def savedEnt (g : ApsGlobals) (old : ApsRetransEnt) (param : ℕ) (req : ApsdeDataReq) :
    ApsRetransEnt :=
  { addr :=
      match req.dst with
      | .address _ addr _ => addr
      | _ => old.addr
    clusterid := req.clusterid
    apsCounter := g.apsCounter - 1
    srcEndpoint := req.srcEndpoint
    dstEndpoint :=
      match req.dst with
      | .address _ _ dstEndpoint => dstEndpoint
      | _ => old.dstEndpoint
    buf := param
    apsRetries := nApsMaxFrameEntries
    nwkInsecure := false
    state := .sentMacNotConfirmed }

def saveAckData (g : ApsGlobals) (param : ℕ) (req : ApsdeDataReq) :
    ApsGlobals × ApsStatus × Option ℕ :=
  let found := g.freeEnt
  let g :=
    match found with
    | some i => g.setEnt i (savedEnt g (g.hash i) param req)
    | none => g
  -- the number of the entry at which the loop has stopped
  let i := found.getD nApsRetransEntries
  (g, if i = nApsRetransEntries - 1 then .tableFull else .ok, found)

/-- `ZB_NWK_BROADCAST_ALL_DEVICES` and the other three addresses which are
tested for. -/
def apsDeliveryMode (addr : ℕ) : ApsDeliveryMode :=
  if addr = 0xFFFF ∨ addr = 0xFFFD ∨ addr = 0xFFFC ∨ addr = 0xFFFB then .broadcast
  else .unicast

def apsdeAckRequest
    (g : ApsGlobals) (param : ℕ) (req : ApsdeDataReq) (mode : ApsDeliveryMode)
    (addr : ℕ) (alarmAccepted : Bool) : ApsGlobals × List ApsOutput :=
  let g := apsDataHdrFillDatareq g ⟨.data, mode, false, false, true⟩ param
  match saveAckData g param req with
  | (g, .ok, ref) =>
      (g.startAlarm alarmAccepted (ref.getD 0), [.nldeDataRequest param (some addr) true])
  | (g, status, _) => (g, [.dataConfirm param (some status)])

def zbApsdeDataRequest
    (g : ApsGlobals) (param : ℕ) (req : ApsdeDataReq) (alarmAccepted : Bool) :
    ApsGlobals × List ApsOutput :=
  match req.dst with
  | .noBoundDevice => (g, [.dataConfirm param none])
  | .unknownPeer => (g, [.getPeerShortAddr param])
  | .group =>
      -- groups are not acknowledged, whatever was asked for
      (apsDataHdrFillDatareq g ⟨.data, .group, false, false, false⟩ param,
        [.nldeDataRequest param none true])
  | .address mode addr _ =>
      if req.optAckTx then apsdeAckRequest g param req mode addr alarmAccepted
      else
        (apsDataHdrFillDatareq g ⟨.data, mode, false, false, false⟩ param,
          [.nldeDataRequest param (some addr) true])

/-- `APS_CMD_TRANSPORT_KEY` -/
def apsCmdTransportKey : UInt8 := 5

/-- With `ZB_DISABLE_APS_ACK_REQ` no acknowledgement is asked for key transport. -/
def apsCommandNeedAck (destAddr : ℕ) (command : UInt8) : Bool :=
  !nwkIsAddressBroadcast destAddr && command ≠ apsCmdTransportKey

/-- The entry which `zb_aps_send_command` writes; it keeps the other fields. -/
def commandEnt (g : ApsGlobals) (old : ApsRetransEnt) (param destAddr : ℕ)
    (secure : Bool) : ApsRetransEnt :=
  { old with
    addr := destAddr
    apsCounter := g.apsCounter
    buf := param
    nwkInsecure := !secure
    apsRetries := nApsMaxFrameEntries
    state := .sentMacNotConfirmed }

def zbApsSendCommand (g : ApsGlobals) (param destAddr : ℕ) (command : UInt8)
    (secure alarmAccepted : Bool) : ApsGlobals × List ApsOutput :=
  let needAck := apsCommandNeedAck destAddr command
  let g' :=
    if needAck then
      match g.freeEnt with
      | some i =>
          (g.setEnt i (commandEnt g (g.hash i) param destAddr secure)).startAlarm
              alarmAccepted i
      | none => g
    else g
  let fc : ApsFc := ⟨.command, .unicast, true, false, needAck⟩
  ({ g'.setFc param fc with apsCounter := g.apsCounter + 1 },
    [.nldeDataRequest param (some destAddr) secure])

def doneWithThisAck (g : ApsGlobals) (i : ℕ) (ackFormat : Bool) (status : ApsStatus) :
    ApsGlobals × List ApsOutput :=
  let ent := g.hash i
  ({ g.setEnt i { ent with state := .free, addr := noRetransAddr, buf := noRetransBuf }
      with ackAlarms := g.ackAlarms.erase i },
    [if ackFormat then .freeBuf ent.buf
      else .dataConfirm ent.buf (some status)])

def ApsGlobals.entOfBuf (g : ApsGlobals) (buf : ℕ) : Option ℕ :=
  (List.range nApsRetransEntries).find? fun i => (g.hash i).buf = buf

def zbNldeDataConfirm (g : ApsGlobals) (param : ℕ) :
    Option (ApsGlobals × List ApsOutput) :=
  let fc := g.fc param
  if fc.frameType = .ack then some (g, [.freeBuf param])
  else if ¬ fc.ackRequest then some (g, [.dataConfirm param none])
  else
    match g.entOfBuf param with
    | some i =>
        match (g.hash i).state with
        | .sentMacNotConfirmedApsAcked => some (doneWithThisAck g i fc.ackFormat .ok)
        | .sentMacNotConfirmed =>
            some (g.setEnt i { g.hash i with state := .sentMacConfirmed }, [])
        | _ => none
    | none => some (g, [.freeBuf param])

def ApsAckHdr.matches (hdr : ApsAckHdr) (ent : ApsRetransEnt) : Bool :=
  ent.addr = hdr.srcAddr && ent.apsCounter = hdr.apsCounter && (hdr.ackFormat ||
      (ent.clusterid = hdr.clusterid && ent.srcEndpoint = hdr.dstEndpoint &&
        ent.dstEndpoint = hdr.srcEndpoint))

def ApsGlobals.entOfAck (g : ApsGlobals) (hdr : ApsAckHdr) : Option ℕ :=
  (List.range nApsRetransEntries).find? fun i => hdr.matches (g.hash i)

def apsAckFrameHandle (g : ApsGlobals) (hdr : ApsAckHdr) :
    ApsGlobals × List ApsOutput :=
  match g.entOfAck hdr with
  | some i =>
      if (g.hash i).state = .sentMacNotConfirmed then
        (g.setEnt i { g.hash i with state := .sentMacNotConfirmedApsAcked }, [])
      else doneWithThisAck g i hdr.ackFormat .ok
  | none => (g, [])

def zbApsAckTimerCb (g : ApsGlobals) (i : ℕ) (alarmAccepted : Bool) :
    ApsGlobals × List ApsOutput :=
  let ent := g.hash i
  let fc := g.fc ent.buf
  let retries := ent.apsRetries - 1
  let g := g.setEnt i { ent with apsRetries := retries }
  if retries = 0 ∧ ent.state = .sentMacConfirmed then
    doneWithThisAck g i fc.ackFormat .noAck
  else
    let g := g.startAlarm alarmAccepted i
    if ent.state = .sentMacConfirmed then
      (g.setEnt i { g.hash i with state := .sentMacNotConfirmed },
        [.nldeDataRequest ent.buf (some ent.addr) !(ent.nwkInsecure || fc.security)])
    else (g, [])

inductive ApsEvent where
  | dataRequest (param : ℕ) (req : ApsdeDataReq) (alarmAccepted : Bool)
  | sendCommand (param destAddr : ℕ) (command : UInt8) (secure alarmAccepted : Bool)
  | nldeConfirm (param : ℕ)
  | ackFrame (hdr : ApsAckHdr)
  | ackTimer (i : ℕ) (alarmAccepted : Bool)

def ApsEvent.exec (g : ApsGlobals) : ApsEvent → Option (ApsGlobals × List ApsOutput)
  | .dataRequest param req alarmAccepted =>
      if param < iobufPoolSize then some (zbApsdeDataRequest g param req alarmAccepted)
      else none
  | .sendCommand param destAddr command secure alarmAccepted =>
      if param < iobufPoolSize then
        some (zbApsSendCommand g param destAddr command secure alarmAccepted)
      else none
  | .nldeConfirm param => zbNldeDataConfirm g param
  | .ackFrame hdr => some (apsAckFrameHandle g hdr)
  | .ackTimer i alarmAccepted =>
      if i ∈ g.ackAlarms then
        some (zbApsAckTimerCb { g with ackAlarms := g.ackAlarms.erase i } i
            alarmAccepted)
      else none

def ApsEvent.apply (g : ApsGlobals) (event : ApsEvent) : Option ApsGlobals :=
  (event.exec g).map Prod.fst

namespace ApsGlobals

theorem freeEnt_eq_some {g : ApsGlobals} {i : ℕ} (hfree : g.freeEnt = some i) :
    i < nApsRetransEntries ∧ (g.hash i).state = .free := by
  unfold freeEnt at hfree
  rw [List.find?_range_eq_some] at hfree
  obtain ⟨hstate, hmem, -⟩ := hfree
  exact ⟨List.mem_range.mp hmem, of_decide_eq_true hstate⟩

theorem freeEnt_eq_none {g : ApsGlobals} {i : ℕ} (hfull : g.freeEnt = none)
    (hi : i < nApsRetransEntries) : (g.hash i).state ≠ .free := by
  unfold freeEnt at hfull
  rw [List.find?_range_eq_none] at hfull
  simpa using hfull i hi

theorem entOfBuf_eq_some {g : ApsGlobals} {buf i : ℕ} (hent : g.entOfBuf buf = some i) :
    i < nApsRetransEntries ∧ (g.hash i).buf = buf := by
  unfold entOfBuf at hent
  rw [List.find?_range_eq_some] at hent
  obtain ⟨hbuf, hmem, -⟩ := hent
  exact ⟨List.mem_range.mp hmem, of_decide_eq_true hbuf⟩

theorem entOfBuf_eq_none {g : ApsGlobals} {buf i : ℕ}
    (hent : g.entOfBuf buf = none) (hi : i < nApsRetransEntries) :
    (g.hash i).buf ≠ buf := by
  unfold entOfBuf at hent
  rw [List.find?_range_eq_none] at hent
  simpa using hent i hi

theorem entOfAck_eq_some {g : ApsGlobals} {hdr : ApsAckHdr} {i : ℕ}
    (hent : g.entOfAck hdr = some i) :
    i < nApsRetransEntries ∧ hdr.matches (g.hash i) := by
  unfold entOfAck at hent
  rw [List.find?_range_eq_some] at hent
  obtain ⟨hmatch, hmem, -⟩ := hent
  exact ⟨List.mem_range.mp hmem, hmatch⟩

end ApsGlobals

end Zboss
