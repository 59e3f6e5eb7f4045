import Zboss.ApsRetransmission
import Zboss.BindingTable
import Zboss.FrontReaders

/-!
# Headers of APS frames

The three functions of `aps_main.c` which write an APS header, the function which
parses it and the size by which it is cut off.  The frame control field is a byte
here; its bits are those of `ApsFc`.  Both asserts and accesses behind the end of
a packet give `none`, and scheduled callbacks are left out.
-/

namespace Zboss

/-- `zb_aps_frame_type_e` -/
def ApsFrameType.code : ApsFrameType → UInt8
  | .data => 0
  | .command => 1
  | .ack => 2

/-- `zb_aps_frame_delivery_mode_e` -/
def ApsDeliveryMode.code : ApsDeliveryMode → UInt8
  | .unicast => 0
  | .broadcast => 2
  | .group => 3

def apsFcGetFrameType (fc : UInt8) : UInt8 := fc &&& 3

def apsFcSetFrameType (fc t : UInt8) : UInt8 := fc ||| t

def apsFcGetDeliveryMode (fc : UInt8) : UInt8 := (fc >>> 2) &&& 3

def apsFcSetDeliveryMode (fc m : UInt8) : UInt8 := fc ||| (m <<< 2)

def apsFcGetAckFormat (fc : UInt8) : UInt8 := (fc >>> 4) &&& 1

def apsFcSetAckFormat (fc f : UInt8) : UInt8 := fc ||| (f <<< 4)

def apsFcSetAckRequest (fc f : UInt8) : UInt8 := fc ||| (f <<< 6)

def apsFcSetCommand (fc needAck : UInt8) : UInt8 :=
  fc ||| (ApsFrameType.command.code ||| (needAck <<< 6) ||| ((1 : UInt8) <<< 4))

def apsHdrSize (fc : UInt8) : ℕ :=
  2 + if apsFcGetFrameType fc = ApsFrameType.command.code then 0
    else
      1 + (if apsFcGetDeliveryMode fc = ApsDeliveryMode.group.code then 1
          else 0) + 2 + 2 + 1

/-- Auxiliary headers are not counted: the security of the APS layer is not
compiled. -/
def zbApsFullHdrSize (pkt : List UInt8) : Option ℕ :=
  pkt.head?.map apsHdrSize

/-- `ZB_APS_HDR_CUT`, which asserts that there are so many bytes. -/
def apsHdrCut (packet : List UInt8) : Option (List UInt8) := do
  let size ← zbApsFullHdrSize packet
  if size ≤ packet.length then some (packet.drop size) else none

structure ApsHdr where
  fc : UInt8
  srcAddr : UInt16
  dstAddr : UInt16
  groupAddr : UInt16
  dstEndpoint : UInt8
  srcEndpoint : UInt8
  clusterid : UInt16
  profileid : UInt16
  apsCounter : UInt8

structure NwkAddrs where
  srcAddr : UInt16
  dstAddr : UInt16

def zbGetNextLetoh16 : FrontReader UInt8 UInt16 := fun ptr =>
  (getNextLetoh16 ptr).map fun read => (UInt16.ofNat read.1, read.2)

def zbPutNextHtole16 (val : UInt16) : List UInt8 := htole16 val.toNat

def parseDstEndpoint (apsHdr : ApsHdr) : FrontReader UInt8 ApsHdr :=
  if apsFcGetDeliveryMode apsHdr.fc ≠ ApsDeliveryMode.group.code then do
    let dstEndpoint ← FrontReader.next
    pure { apsHdr with dstEndpoint := dstEndpoint }
  else do
    let groupAddr ← zbGetNextLetoh16
    pure { apsHdr with groupAddr := groupAddr }

def parseClusterid (apsHdr : ApsHdr) : FrontReader UInt8 ApsHdr := do
  let clusterid ← zbGetNextLetoh16
  let profileid ← zbGetNextLetoh16
  let srcEndpoint ← FrontReader.next
  pure
    { apsHdr with
      clusterid := clusterid
      profileid := profileid
      srcEndpoint := srcEndpoint }

def parseAddressing (apsHdr : ApsHdr) : FrontReader UInt8 ApsHdr :=
  if apsFcGetAckFormat apsHdr.fc = 0 then parseDstEndpoint apsHdr >>= parseClusterid
  else pure apsHdr

def parseApsCounter (apsHdr : ApsHdr) : FrontReader UInt8 ApsHdr := do
  let apsCounter ← FrontReader.next
  pure { apsHdr with apsCounter := apsCounter }

/-- What the parser sets before it looks at the fields behind `fc`. -/
def startApsHdr (nwkHdr : Option NwkAddrs) (apsHdr : ApsHdr) (fc : UInt8) :
    ApsHdr :=
  { apsHdr with
    srcAddr := (nwkHdr.map NwkAddrs.srcAddr).getD 0
    dstAddr := (nwkHdr.map NwkAddrs.dstAddr).getD 0
    srcEndpoint := 0xFF
    fc := fc }

/-- `zb_aps_hdr_parse` into `apsHdr`, whose other fields stay -/
def zbApsHdrParse (nwkHdr : Option NwkAddrs) (apsHdr : ApsHdr)
    (packet : List UInt8) : Option ApsHdr :=
  match packet with
  | [] => none
  | fc :: apshdr =>
      ((parseAddressing (startApsHdr nwkHdr apsHdr fc) >>= parseApsCounter)
        apshdr).map Prod.fst

def apsAddrMode16EndpPresent : UInt8 := 2

/-- `zb_apsde_data_req_t`, when the binding table and the address table have been
asked. -/
structure ApsdeHdrReq where
  addrMode : UInt8
  addrShort : UInt16
  dstEndpoint : UInt8
  clusterid : UInt16
  profileid : UInt16
  srcEndpoint : UInt8
  optAckTx : Bool

def ApsdeHdrReq.deliveryMode (req : ApsdeHdrReq) : ApsDeliveryMode :=
  if req.addrMode = apsAddrMode16GroupEndpNotPresent then .group
  else if req.addrMode = apsAddrMode16EndpPresent then apsDeliveryMode req.addrShort.toNat
  else .unicast

def ApsdeHdrReq.apsdeDataReq (req : ApsdeHdrReq) : ApsdeDataReq where
  dst :=
    if req.deliveryMode = .group then .group
    else .address req.deliveryMode req.addrShort.toNat req.dstEndpoint.toNat
  srcEndpoint := req.srcEndpoint.toNat
  clusterid := req.clusterid.toNat
  optAckTx := req.optAckTx

def ApsdeHdrReq.ackTx (req : ApsdeHdrReq) : Bool :=
  req.optAckTx && req.addrMode ≠ apsAddrMode16GroupEndpNotPresent

def ApsdeHdrReq.fc (req : ApsdeHdrReq) : UInt8 :=
  let fc := apsFcSetDeliveryMode 0 req.deliveryMode.code
  let fc := apsFcSetAckFormat fc 0
  if req.ackTx then apsFcSetAckRequest fc 1 else fc

/-- `aps_data_hdr_fill_datareq`, which asserts that there is no command. -/
def ApsdeHdrReq.apsDataHdrFillDatareq (req : ApsdeHdrReq) (apsCounter fc : UInt8) :
    Option (List UInt8) :=
  let isGroup := apsFcGetDeliveryMode fc = ApsDeliveryMode.group.code
  if apsFcGetAckFormat fc ≠ 0 then none
  else
    some (fc :: ((if isGroup then zbPutNextHtole16 req.addrShort
            else [req.dstEndpoint]) ++
          (zbPutNextHtole16 req.clusterid ++
            (zbPutNextHtole16 req.profileid ++ [req.srcEndpoint, apsCounter]))))

/-- The header which `zb_apsde_data_request` writes. -/
def ApsdeHdrReq.hdr (req : ApsdeHdrReq) (apsCounter : UInt8) : Option (List UInt8) :=
  req.apsDataHdrFillDatareq apsCounter req.fc

/-- The header which `zb_aps_send_command` writes. -/
def apsCommandHdr (apsCounter : UInt8) (destAddr : UInt16) (command : UInt8) :
    List UInt8 :=
  [apsFcSetCommand 0 (apsCommandNeedAck destAddr.toNat command).toUInt8, apsCounter]

/-- The packet which `aps_ack_send_handle` makes for a received frame. -/
def apsAckSendHandle (apsHdr : ApsHdr) : List UInt8 :=
  let isCommand := apsFcGetFrameType apsHdr.fc = ApsFrameType.command.code
  let fc := apsFcSetFrameType 0 ApsFrameType.ack.code
  let fc := apsFcSetAckFormat fc (if isCommand then 1 else 0)
  let addressing :=
    if apsFcGetAckFormat fc = 0 then
      [apsHdr.srcEndpoint] ++ (zbPutNextHtole16 apsHdr.clusterid ++
          (zbPutNextHtole16 apsHdr.profileid ++ [apsHdr.dstEndpoint]))
    else []
  fc :: (addressing ++ [apsHdr.apsCounter])

end Zboss
