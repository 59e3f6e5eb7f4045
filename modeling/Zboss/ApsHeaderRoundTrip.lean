import Zboss.ApsHeader

/-!
# What is read back from an APS header

A header tells a frame control field, an addressing part if its acknowledgement
format is 0, and a counter.  The writers write these fields, and the parser reads
them from the bytes; the size of the header is told from the frame type instead of
the acknowledgement format.
-/

namespace Zboss

open Option List ApsDeliveryMode FrontReader

def ApsFc.byte (fc : ApsFc) : UInt8 :=
  fc.frameType.code ||| (fc.deliveryMode.code <<< 2) |||
    (fc.ackFormat.toUInt8 <<< 4) ||| (fc.security.toUInt8 <<< 5) |||
      (fc.ackRequest.toUInt8 <<< 6)

inductive ApsHdrDst where
  | endpoint (dstEndpoint : UInt8)
  | group (groupAddr : UInt16)

structure ApsAddressing where
  dst : ApsHdrDst
  clusterid : UInt16
  profileid : UInt16
  srcEndpoint : UInt8

def ApsHdrDst.Fits : ApsHdrDst → ApsDeliveryMode → Prop
  | endpoint _, mode => mode ≠ .group
  | group _, mode => mode = .group

structure ApsHdrFields where
  fc : ApsFc
  addressing : Option ApsAddressing
  apsCounter : UInt8
  format : fc.ackFormat = addressing.isNone
  delivery : ∀ addr ∈ addressing, addr.dst.Fits fc.deliveryMode

def ApsHdrDst.bytes : ApsHdrDst → List UInt8
  | endpoint dstEndpoint => [dstEndpoint]
  | group groupAddr => zbPutNextHtole16 groupAddr

def ApsAddressing.bytes (addr : ApsAddressing) : List UInt8 :=
  addr.dst.bytes ++ (zbPutNextHtole16 addr.clusterid ++
      (zbPutNextHtole16 addr.profileid ++ [addr.srcEndpoint]))

def ApsHdrFields.bytes (fields : ApsHdrFields) : List UInt8 :=
  fields.fc.byte :: ((fields.addressing.map ApsAddressing.bytes).getD [] ++
      [fields.apsCounter])

def ApsHdr.Names (apsHdr : ApsHdr) : ApsHdrDst → Prop
  | .endpoint dstEndpoint => apsHdr.dstEndpoint = dstEndpoint
  | .group groupAddr => apsHdr.groupAddr = groupAddr

structure ApsHdr.Tells (apsHdr : ApsHdr) (fields : ApsHdrFields) : Prop where
  fc : apsHdr.fc = fields.fc.byte
  apsCounter : apsHdr.apsCounter = fields.apsCounter
  dst : ∀ addr ∈ fields.addressing, apsHdr.Names addr.dst
  clusterid : ∀ addr ∈ fields.addressing, apsHdr.clusterid = addr.clusterid
  profileid : ∀ addr ∈ fields.addressing, apsHdr.profileid = addr.profileid
  srcEndpoint : ∀ addr ∈ fields.addressing, apsHdr.srcEndpoint = addr.srcEndpoint

/-! ## The writers -/

inductive ApsHdrWriter where
  | dataRequest (req : ApsdeHdrReq)
  | ack (apsHdr : ApsHdr)
  | command (destAddr : UInt16) (commandId : UInt8)

namespace ApsHdrWriter

def write (apsCounter : UInt8) : ApsHdrWriter → Option (List UInt8)
  | dataRequest req => req.hdr apsCounter
  | ack apsHdr => some (apsAckSendHandle apsHdr)
  | command destAddr commandId => some (apsCommandHdr apsCounter destAddr commandId)

/-- What follows the header: an acknowledgement has nothing else, and a command
begins with its identifier. -/
def payload (body : List UInt8) : ApsHdrWriter → List UInt8
  | dataRequest _ => body
  | ack _ => []
  | command _ commandId => commandId :: body

def AcksCommand : ApsHdrWriter → Prop
  | ack apsHdr => apsFcGetFrameType apsHdr.fc = ApsFrameType.command.code
  | dataRequest _ | command _ _ => False

end ApsHdrWriter

def ApsdeHdrReq.fields (req : ApsdeHdrReq) (apsCounter : UInt8) : ApsHdrFields where
  fc := ⟨.data, req.deliveryMode, false, false, req.ackTx⟩
  addressing :=
    some
      { dst :=
          if req.deliveryMode = .group then .group req.addrShort
          else .endpoint req.dstEndpoint
        clusterid := req.clusterid
        profileid := req.profileid
        srcEndpoint := req.srcEndpoint }
  apsCounter := apsCounter
  format := rfl
  delivery := by
    intro addr haddr
    rw [← some.inj haddr]
    split
    · assumption
    · assumption

/-- An acknowledgement goes back from the destination endpoint to the source
endpoint, with the counter of the frame. -/
def ApsHdr.ackFields (apsHdr : ApsHdr) : ApsHdrFields :=
  if apsFcGetFrameType apsHdr.fc = ApsFrameType.command.code then
    { fc := ⟨.ack, .unicast, true, false, false⟩
      addressing := none
      apsCounter := apsHdr.apsCounter
      format := rfl
      delivery := by simp }
  else
    { fc := ⟨.ack, .unicast, false, false, false⟩
      addressing :=
        some
          { dst := .endpoint apsHdr.srcEndpoint
            clusterid := apsHdr.clusterid
            profileid := apsHdr.profileid
            srcEndpoint := apsHdr.dstEndpoint }
      apsCounter := apsHdr.apsCounter
      format := rfl
      delivery := by
        intro addr haddr
        rw [← some.inj haddr]
        exact noConfusion }

def commandFields (apsCounter : UInt8) (destAddr : UInt16) (command : UInt8) :
    ApsHdrFields where
  fc := ⟨.command, .unicast, true, false, apsCommandNeedAck destAddr.toNat command⟩
  addressing := none
  apsCounter := apsCounter
  format := rfl
  delivery := by simp

def ApsHdrWriter.fields (apsCounter : UInt8) : ApsHdrWriter → ApsHdrFields
  | dataRequest req => req.fields apsCounter
  | ack apsHdr => apsHdr.ackFields
  | command destAddr commandId => commandFields apsCounter destAddr commandId

/-- What is written before the payload is read back as these fields, whatever the
parsed header has held before; the header has the size which its frame control
field tells, and only the payload is left when it is cut off. -/
structure HeaderRoundTrips (written : List UInt8) (fields : ApsHdrFields)
    (payload : List UInt8) : Prop where
  parsed : ∀ (nwkHdr : Option NwkAddrs) (old : ApsHdr), ∃ apsHdr,
    zbApsHdrParse nwkHdr old (written ++ payload) = some apsHdr ∧ apsHdr.Tells fields
  size : apsHdrSize fields.fc.byte = written.length
  cut : apsHdrCut (written ++ payload) = some payload

def CounterLast (fc : UInt8) : Prop :=
  ∀ (nwkHdr : Option NwkAddrs) (old : ApsHdr) (apshdr : List UInt8),
    (zbApsHdrParse nwkHdr old (fc :: apshdr)).map ApsHdr.apsCounter =
      (fc :: apshdr)[apsHdrSize fc - 1]?

def LayoutsAgree (fc : UInt8) : Prop :=
  apsFcGetFrameType fc = ApsFrameType.command.code ↔ apsFcGetAckFormat fc = 1

section Bits

variable (fc : ApsFc)

theorem apsFcGetFrameType_byte : apsFcGetFrameType fc.byte = fc.frameType.code := by
  rcases fc with ⟨type, mode, format, security, request⟩
  cases type <;> cases mode <;> cases format <;> cases security <;> cases request <;> rfl

theorem apsFcGetDeliveryMode_byte :
    apsFcGetDeliveryMode fc.byte = fc.deliveryMode.code := by
  rcases fc with ⟨type, mode, format, security, request⟩
  cases type <;> cases mode <;> cases format <;> cases security <;> cases request <;> rfl

theorem apsFcGetAckFormat_byte : apsFcGetAckFormat fc.byte = fc.ackFormat.toUInt8 := by
  rcases fc with ⟨type, mode, format, security, request⟩
  cases type <;> cases mode <;> cases format <;> cases security <;> cases request <;> rfl

end Bits

theorem ApsFrameType.code_eq_command {type : ApsFrameType} :
    type.code = ApsFrameType.command.code ↔ type = .command := by
  cases type <;> decide

theorem ApsDeliveryMode.code_eq_group {mode : ApsDeliveryMode} :
    mode.code = group.code ↔ mode = .group := by
  cases mode <;> decide

theorem toUInt8_eq_zero {bit : Bool} : bit.toUInt8 = 0 ↔ bit = false := by
  cases bit <;> decide

theorem apsFcGetAckFormat_eq_one_iff (fc : UInt8) :
    apsFcGetAckFormat fc = 1 ↔ apsFcGetAckFormat fc ≠ 0 := by
  have hbit : (apsFcGetAckFormat fc).toNat < 2 := by
    rw [apsFcGetAckFormat, UInt8.toNat_and, UInt8.toNat_one, Nat.and_one_is_mod]
    exact Nat.mod_lt _ Nat.two_pos
  rw [Ne, ← UInt8.toNat_inj, ← UInt8.toNat_inj, UInt8.toNat_one, UInt8.toNat_zero]
  omega

theorem ApsdeHdrReq.fc_eq_byte (req : ApsdeHdrReq) :
    req.fc = ApsFc.byte ⟨.data, req.deliveryMode, false, false, req.ackTx⟩ := by
  unfold ApsdeHdrReq.fc
  cases req.deliveryMode <;> cases req.ackTx <;> rfl

theorem apsFcSetCommand_eq_byte (needAck : Bool) : apsFcSetCommand 0 needAck.toUInt8 =
      ApsFc.byte ⟨.command, .unicast, true, false, needAck⟩ := by
  cases needAck <;> rfl

theorem ApsdeHdrReq.hdr_eq_bytes (req : ApsdeHdrReq) (apsCounter : UInt8) :
    req.hdr apsCounter = some (req.fields apsCounter).bytes := by
  have hformat : apsFcGetAckFormat req.fc = 0 := by
    rw [req.fc_eq_byte, apsFcGetAckFormat_byte]
    rfl
  have hgroup : apsFcGetDeliveryMode req.fc = group.code ↔ req.deliveryMode = .group := by
    rw [req.fc_eq_byte, apsFcGetDeliveryMode_byte]
    exact code_eq_group
  rw [hdr, apsDataHdrFillDatareq, if_neg (not_not.mpr hformat), ApsHdrFields.bytes,
    fields, ← req.fc_eq_byte]
  simp only [hgroup]
  split <;> simp [ApsAddressing.bytes, ApsHdrDst.bytes]

theorem apsAckSendHandle_eq_bytes (apsHdr : ApsHdr) :
    apsAckSendHandle apsHdr = apsHdr.ackFields.bytes := by
  unfold ApsHdr.ackFields
  split
  · rename_i hcommand
    have hfc : apsFcSetAckFormat (apsFcSetFrameType 0 ApsFrameType.ack.code)
        1 = ApsFc.byte ⟨.ack, .unicast, true, false, false⟩ := rfl
    simp only [apsAckSendHandle, if_pos hcommand, hfc, apsFcGetAckFormat_byte]
    rfl
  · rename_i hcommand
    have hfc : apsFcSetAckFormat (apsFcSetFrameType 0 ApsFrameType.ack.code)
        0 = ApsFc.byte ⟨.ack, .unicast, false, false, false⟩ := rfl
    simp only [apsAckSendHandle, if_neg hcommand, hfc, apsFcGetAckFormat_byte]
    simp [toUInt8_eq_zero, ApsHdrFields.bytes, ApsAddressing.bytes, ApsHdrDst.bytes]

theorem letoh16_of_lt {val : ℕ} (hval : val < 65536) :
    letoh16 (UInt8.ofNat val) (UInt8.ofNat (val / 256)) = val := by
  rw [letoh16, UInt8.toNat_ofNat', UInt8.toNat_ofNat']
  omega

theorem takes_zbGetNextLetoh16 (val : UInt16) :
    zbGetNextLetoh16.Takes (zbPutNextHtole16 val) val := by
  intro rest
  have hval : letoh16 (UInt8.ofNat val.toNat)
      (UInt8.ofNat (val.toNat / 256)) = val.toNat :=
    letoh16_of_lt val.toNat_lt
  rw [zbGetNextLetoh16, zbPutNextHtole16, htole16]
  simp only [cons_append, nil_append, getNextLetoh16, hval, map_some, UInt16.ofNat_toNat]

theorem consumes_zbGetNextLetoh16 : zbGetNextLetoh16.Consumes 2 := by
  intro cells
  match cells with
  | [] => rfl
  | [_] => rfl
  | _ :: _ :: _ => simp [zbGetNextLetoh16, getNextLetoh16]

def ApsHdr.setDst (apsHdr : ApsHdr) : ApsHdrDst → ApsHdr
  | .endpoint dstEndpoint => { apsHdr with dstEndpoint := dstEndpoint }
  | .group groupAddr => { apsHdr with groupAddr := groupAddr }

def ApsHdr.setAddressing (apsHdr : ApsHdr) : Option ApsAddressing → ApsHdr
  | none => apsHdr
  | some addr =>
      { apsHdr.setDst addr.dst with
        clusterid := addr.clusterid
        profileid := addr.profileid
        srcEndpoint := addr.srcEndpoint }

section Parse

variable {apsHdr : ApsHdr} {fields : ApsHdrFields}

theorem takes_parseDstEndpoint {fc : ApsFc} {dst : ApsHdrDst}
    (hfc : apsHdr.fc = fc.byte) (hfits : dst.Fits fc.deliveryMode) :
    (parseDstEndpoint apsHdr).Takes dst.bytes (apsHdr.setDst dst) := by
  have hmode : apsFcGetDeliveryMode apsHdr.fc = group.code ↔ fc.deliveryMode = .group := by
    rw [hfc, apsFcGetDeliveryMode_byte]
    exact code_eq_group
  unfold parseDstEndpoint
  cases dst with
  | endpoint dstEndpoint =>
    rw [if_pos (mt hmode.mp hfits)]
    exact (takes_next dstEndpoint).bind_pure _
  | group groupAddr =>
    rw [if_neg (not_not.mpr (hmode.mpr hfits))]
    exact (takes_zbGetNextLetoh16 groupAddr).bind_pure _

theorem takes_parseClusterid (apsHdr : ApsHdr) (clusterid profileid : UInt16)
    (srcEndpoint : UInt8) :
    (parseClusterid apsHdr).Takes (zbPutNextHtole16 clusterid ++
        (zbPutNextHtole16 profileid ++ [srcEndpoint]))
      { apsHdr with
        clusterid := clusterid
        profileid := profileid
        srcEndpoint := srcEndpoint } :=
  (takes_zbGetNextLetoh16 clusterid).bind ((takes_zbGetNextLetoh16 profileid).bind
      ((takes_next srcEndpoint).bind_pure _))

theorem takes_parseAddressing (apsHdr : ApsHdr) (hfc : apsHdr.fc = fields.fc.byte) :
    (parseAddressing apsHdr).Takes ((fields.addressing.map ApsAddressing.bytes).getD [])
      (apsHdr.setAddressing fields.addressing) := by
  have hformat : apsFcGetAckFormat apsHdr.fc = 0 ↔ fields.addressing.isNone = false := by
    rw [hfc, apsFcGetAckFormat_byte, toUInt8_eq_zero, fields.format]
  unfold parseAddressing
  cases haddr : fields.addressing with
  | none =>
    rw [haddr] at hformat
    rw [if_neg (by simp [hformat])]
    exact takes_pure apsHdr
  | some addr =>
    rw [haddr] at hformat
    rw [if_pos (by simp [hformat])]
    exact (takes_parseDstEndpoint hfc (fields.delivery addr haddr)).bind
      (takes_parseClusterid _ _ _ _)

theorem takes_parseApsCounter (apsHdr : ApsHdr) (apsCounter : UInt8) :
    (parseApsCounter apsHdr).Takes [apsCounter] { apsHdr with apsCounter := apsCounter } :=
  (takes_next apsCounter).bind_pure _

theorem zbApsHdrParse_bytes (nwkHdr : Option NwkAddrs) (old : ApsHdr)
    (fields : ApsHdrFields) (rest : List UInt8) :
    zbApsHdrParse nwkHdr old (fields.bytes ++ rest) = some
        { (startApsHdr nwkHdr old fields.fc.byte).setAddressing fields.addressing with
          apsCounter := fields.apsCounter } := by
  have hread := (takes_parseAddressing (startApsHdr nwkHdr old fields.fc.byte) rfl).bind
      (takes_parseApsCounter _ fields.apsCounter) rest
  exact congrArg (Option.map Prod.fst) hread

theorem startApsHdr_fc (nwkHdr : Option NwkAddrs) (old : ApsHdr)
    (fc : UInt8) : (startApsHdr nwkHdr old fc).fc = fc := rfl

theorem names_setAddressing (apsHdr : ApsHdr) (addr : ApsAddressing) :
    (apsHdr.setAddressing (some addr)).Names addr.dst := by
  rw [ApsHdr.setAddressing]
  cases addr.dst <;> rfl

theorem setAddressing_fc (addressing : Option ApsAddressing) :
    (apsHdr.setAddressing addressing).fc = apsHdr.fc := by
  cases addressing with
  | none => rfl
  | some addr =>
    rw [ApsHdr.setAddressing]
    cases addr.dst <;> rfl

theorem tells_setAddressing (hfc : apsHdr.fc = fields.fc.byte) : ApsHdr.Tells
      { apsHdr.setAddressing fields.addressing with
        apsCounter := fields.apsCounter } fields where
  fc := (setAddressing_fc fields.addressing).trans hfc
  apsCounter := rfl
  dst addr haddr := by
    have hnames := names_setAddressing apsHdr addr
    rw [haddr]
    cases hdst : addr.dst with
    | endpoint dstEndpoint => exact (hdst ▸ hnames :)
    | group groupAddr => exact (hdst ▸ hnames :)
  clusterid addr haddr := by rw [haddr]; rfl
  profileid addr haddr := by rw [haddr]; rfl
  srcEndpoint addr haddr := by rw [haddr]; rfl

end Parse

section Size

variable {fields : ApsHdrFields}

theorem length_zbPutNextHtole16 (val : UInt16) : (zbPutNextHtole16 val).length = 2 := rfl

theorem length_apsHdrDst_bytes {dst : ApsHdrDst} {mode : ApsDeliveryMode}
    (hfits : dst.Fits mode) :
    dst.bytes.length = 1 + if mode = .group then 1 else 0 := by
  cases dst with
  | endpoint dstEndpoint =>
    rw [if_neg hfits]
    rfl
  | group groupAddr =>
    have hmode : mode = .group := hfits
    rw [if_pos hmode]
    rfl

theorem length_bytes_of_addressing {addr : ApsAddressing}
    (haddr : fields.addressing = some addr) :
    fields.bytes.length =
      2 + (1 + (if fields.fc.deliveryMode = .group then 1 else 0) + 2 + 2 + 1) := by
  have hdst := length_apsHdrDst_bytes (fields.delivery addr haddr)
  rw [ApsHdrFields.bytes, haddr]
  simp only [map_some, getD_some, ApsAddressing.bytes,
    length_cons, length_append, length_zbPutNextHtole16, hdst,
    length_nil]
  omega

theorem apsHdrSize_byte (fc : ApsFc) : apsHdrSize fc.byte = 2 +
        if fc.frameType = .command then 0
        else 1 + (if fc.deliveryMode = .group then 1 else 0) + 2 + 2 + 1 := by
  simp only [apsHdrSize, apsFcGetFrameType_byte, apsFcGetDeliveryMode_byte,
    ApsFrameType.code_eq_command, code_eq_group]

theorem apsHdrSize_eq_length_iff : apsHdrSize fields.fc.byte = fields.bytes.length ↔
      (fields.fc.frameType = .command ↔ fields.fc.ackFormat = true) := by
  rw [apsHdrSize_byte, fields.format]
  cases haddr : fields.addressing with
  | none =>
    have hlength : fields.bytes.length = 2 := by
      rw [ApsHdrFields.bytes, haddr]
      rfl
    rw [hlength]
    split
    · simp_all
    · simp_all
  | some addr =>
    rw [length_bytes_of_addressing haddr]
    split
    · simp_all
    · simp_all

theorem apsHdrCut_bytes (hsize : apsHdrSize fields.fc.byte = fields.bytes.length)
    (payload : List UInt8) : apsHdrCut (fields.bytes ++ payload) = some payload := by
  have hhead : zbApsFullHdrSize (fields.bytes ++ payload) =
      some fields.bytes.length := by
    rw [← hsize]
    rfl
  rw [apsHdrCut, hhead, bind_eq_bind, bind_some, if_pos (by simp), drop_left]

theorem roundTrips_iff_ackFormat (fields : ApsHdrFields) (payload : List UInt8) :
    HeaderRoundTrips fields.bytes fields payload ↔
      (fields.fc.frameType = .command ↔ fields.fc.ackFormat = true) := by
  rw [← apsHdrSize_eq_length_iff]
  constructor
  · intro htrip
    exact htrip.size
  · intro hsize
    refine ⟨?_, hsize, apsHdrCut_bytes hsize payload⟩
    intro nwkHdr old
    exact ⟨_, zbApsHdrParse_bytes nwkHdr old fields _,
      tells_setAddressing (startApsHdr_fc nwkHdr old _)⟩

end Size

namespace ApsHdrWriter

theorem write_eq_bytes (writer : ApsHdrWriter) (apsCounter : UInt8) :
    writer.write apsCounter = some (writer.fields apsCounter).bytes := by
  cases writer with
  | dataRequest req => exact req.hdr_eq_bytes apsCounter
  | ack apsHdr => exact congrArg some (apsAckSendHandle_eq_bytes apsHdr)
  | command destAddr commandId =>
    rw [write, apsCommandHdr, apsFcSetCommand_eq_byte]
    rfl

theorem fields_agree_iff (writer : ApsHdrWriter) (apsCounter : UInt8) :
    ((writer.fields apsCounter).fc.frameType = .command ↔
      (writer.fields apsCounter).fc.ackFormat = true) ↔ ¬ writer.AcksCommand := by
  cases writer with
  | dataRequest req => simp [fields, ApsdeHdrReq.fields, AcksCommand]
  | ack apsHdr =>
    rw [fields, ApsHdr.ackFields, AcksCommand]
    split <;> simp_all
  | command destAddr commandId => simp [fields, commandFields, AcksCommand]

end ApsHdrWriter

def addressingSize (fc : UInt8) : ℕ :=
  if apsFcGetAckFormat fc = 0 then
    (if apsFcGetDeliveryMode fc ≠ group.code then 1 else 2) + (2 + (2 + 1))
  else 0

theorem consumes_parseDstEndpoint (apsHdr : ApsHdr) : (parseDstEndpoint apsHdr).Consumes
      (if apsFcGetDeliveryMode apsHdr.fc ≠ group.code then 1
        else 2) :=
  (consumes_next.bind_pure _).ite (consumes_zbGetNextLetoh16.bind_pure _)

theorem consumes_parseClusterid (apsHdr : ApsHdr) :
    (parseClusterid apsHdr).Consumes (2 + (2 + 1)) :=
  consumes_zbGetNextLetoh16.bind fun _ =>
    consumes_zbGetNextLetoh16.bind fun _ => consumes_next.bind_pure _

theorem consumes_parseAddressing (apsHdr : ApsHdr) :
    (parseAddressing apsHdr).Consumes (addressingSize apsHdr.fc) :=
  ((consumes_parseDstEndpoint apsHdr).bind consumes_parseClusterid).ite
    (consumes_pure apsHdr)

theorem zbApsHdrParse_apsCounter (nwkHdr : Option NwkAddrs) (old : ApsHdr)
    (fc : UInt8) (apshdr : List UInt8) :
    (zbApsHdrParse nwkHdr old (fc :: apshdr)).map ApsHdr.apsCounter =
      (fc :: apshdr)[addressingSize fc + 1]? := by
  have hnext := (consumes_parseAddressing
    (startApsHdr nwkHdr old fc)).next_after (f := parseApsCounter)
      (g := fun read => read.1.apsCounter) (h := id) (by
        intro val cells
        cases cells <;> rfl) apshdr
  rw [getElem?_cons_succ]
  rw [Option.map_id] at hnext
  rw [zbApsHdrParse, Option.map_map]
  exact hnext

theorem apsHdrSize_eq_iff (fc : UInt8) :
    apsHdrSize fc = addressingSize fc + 2 ↔ LayoutsAgree fc := by
  rw [LayoutsAgree, apsFcGetAckFormat_eq_one_iff, apsHdrSize, addressingSize]
  by_cases htype : apsFcGetFrameType fc = ApsFrameType.command.code
  · by_cases hformat : apsFcGetAckFormat fc = 0
    · simp [htype, hformat]
    · simp [htype, hformat]
  · by_cases hformat : apsFcGetAckFormat fc = 0
    · simp [htype, hformat]
      split <;> simp_all
    · simp [htype, hformat]

theorem eq_of_getElem?_eq {m n : ℕ}
    (hcells : ∀ cells : List UInt8, cells[m]? = cells[n]?) : m = n := by
  apply Nat.le_antisymm
  · have hm := hcells (replicate m 0)
    rw [getElem?_eq_none (by simp)] at hm
    simpa using getElem?_eq_none_iff.mp hm.symm
  · have hn := hcells (replicate n 0)
    rw [getElem?_eq_none (i := n) (by simp)] at hn
    simpa using getElem?_eq_none_iff.mp hn

theorem counterLast_iff (fc : UInt8) : CounterLast fc ↔ LayoutsAgree fc := by
  have hsize : 2 ≤ apsHdrSize fc := Nat.le_add_right 2 _
  have hlast : apsHdrSize fc - 1 = apsHdrSize fc - 2 + 1 := by omega
  rw [← apsHdrSize_eq_iff, CounterLast, hlast]
  constructor
  · intro hcounter
    have hcells : ∀ cells : List UInt8,
        cells[addressingSize fc]? = cells[apsHdrSize fc - 2]? := by
      intro cells
      have hread := hcounter none ⟨0, 0, 0, 0, 0, 0, 0, 0, 0⟩ cells
      rwa [zbApsHdrParse_apsCounter, getElem?_cons_succ, getElem?_cons_succ] at hread
    have heq := eq_of_getElem?_eq hcells
    omega
  · intro heq nwkHdr old apshdr
    rw [zbApsHdrParse_apsCounter, heq, Nat.add_sub_cancel]

/-- A header makes the round trip exactly if it is not the header of an
acknowledgement of a command, and the counter is at the end of a header exactly if
frame type and acknowledgement format tell the same. -/
theorem apsHdr_roundTrips_iff
    (writer : ApsHdrWriter) (apsCounter : UInt8) (body : List UInt8) (fc : UInt8) :
    (∃ written, writer.write apsCounter = some written ∧
        (HeaderRoundTrips written (writer.fields apsCounter) (writer.payload body) ↔
          ¬ writer.AcksCommand)) ∧
      (CounterLast fc ↔ LayoutsAgree fc) := by
  refine ⟨⟨_, writer.write_eq_bytes apsCounter, ?_⟩, counterLast_iff fc⟩
  rw [roundTrips_iff_ackFormat]
  exact writer.fields_agree_iff apsCounter

def receivedCommand : ApsHdr := ⟨0x51, 1, 0, 0, 0, 0xFF, 0, 0, 7⟩

/-- Two bytes are written, and eight are counted. -/
theorem not_roundTrips_ackOfCommand : apsAckSendHandle receivedCommand = [0x12, 7] ∧
      ¬ ((∀ (writer : ApsHdrWriter) (apsCounter : UInt8) (body written : List UInt8),
        writer.write apsCounter = some written →
          HeaderRoundTrips written (writer.fields apsCounter) (writer.payload body)) ∧
        ∀ fc, CounterLast fc) := by
  have hwritten : apsAckSendHandle receivedCommand = [0x12, 7] := by decide
  refine ⟨hwritten, ?_⟩
  rintro ⟨htrips, -⟩
  have htrip := htrips (.ack receivedCommand) 0 [] _ (congrArg some hwritten)
  exact absurd htrip.size (by decide)

end Zboss
