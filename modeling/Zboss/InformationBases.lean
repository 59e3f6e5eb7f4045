import Zboss.AttributeStore

/-!
# The information bases

The requests of NWK, APS and MAC to get and to set the attributes of their
information bases.  Most of them pass one byte, whatever the length of the
attribute is, and some fields have fewer bits than a byte.  Numbers are in the
order of a little-endian machine.  `memory` is what the buffer of a get request
holds behind the confirm: `zb_buf_initial_alloc` zeroes only the header.
-/

namespace Zboss

open AttributeStore

def putByte (memory : ℕ → UInt8) (byte : UInt8) : ℕ → UInt8 :=
  Function.update memory 0 byte

/-- `*((zb_uint16_t *)ptr)` -/
def wordAt (ptr : ℕ → UInt8) : UInt16 :=
  UInt16.ofNat ((ptr 0).toNat + 256 * (ptr 1).toNat)

def bitsOf (n : ℕ) (byte : UInt8) : BitVec n := BitVec.ofNat n byte.toNat

def byteOf {n : ℕ} (bits : BitVec n) : UInt8 := UInt8.ofNat bits.toNat

inductive NibAttribute where
  | sequenceNumber
  | passiveAskTimeout
  | maxBroadcastRetries
  | maxChildren
  | maxDepth
  | maxRouters
  | addrAlloc
  | useTreeRouting
  | managerAddr
  | updateId
  | extendedPanid
  | securityLevel
  | securityMaterialSet
  | activeKeySeqNumber
  | secureAllFrames
  | other (id : ℕ)

/-- The attributes in `zb_nib_t`. -/
structure NibFields where
  sequenceNumber : UInt8
  passiveAckTimeout : UInt16
  maxBroadcastRetries : UInt8
  extendedPanId : Vector UInt8 8
  updateId : UInt8
  maxDepth : UInt8
  maxChildren : UInt8
  maxRouters : UInt8
  useTreeRouting : BitVec 1
  addrAlloc : BitVec 3
  securityLevel : BitVec 4
  secureAllFrames : BitVec 1
  activeSecurMaterialI : BitVec 2
  activeKeySeqNumber : UInt8
  nwkManagerAddr : UInt16

def nwkStatusUnsupportedAttribute : UInt8 := 0xC9

def NibAttribute.width : NibAttribute → ℕ
  | .passiveAskTimeout | .managerAddr => 2
  | .extendedPanid => 8
  | _ => 1

def zbNlmeGetRequest (memory : ℕ → UInt8) (nib : NibFields) (attr : NibAttribute) :
    GetConfirm NibAttribute :=
  match attr with
  | .sequenceNumber => .found attr 1 (putByte memory nib.sequenceNumber)
  | .passiveAskTimeout => .found attr 2 (putByte memory nib.passiveAckTimeout.toUInt8)
  | .maxBroadcastRetries => .found attr 1 (putByte memory nib.maxBroadcastRetries)
  | .maxChildren => .found attr 1 (putByte memory nib.maxChildren)
  | .maxDepth => .found attr 1 (putByte memory nib.maxDepth)
  | .maxRouters => .found attr 1 (putByte memory nib.maxRouters)
  | .addrAlloc => .found attr 1 (putByte memory (byteOf nib.addrAlloc))
  | .useTreeRouting => .found attr 1 (putByte memory (byteOf nib.useTreeRouting))
  | .managerAddr => .found attr 2 (putByte memory nib.nwkManagerAddr.toUInt8)
  | .updateId => .found attr 1 (putByte memory nib.updateId)
  | .extendedPanid => .found attr 8 (bytesOf nib.extendedPanId)
  | .securityLevel => .found attr 1 (putByte memory (byteOf nib.securityLevel))
  | .securityMaterialSet =>
      .found attr 1 (putByte memory (byteOf nib.activeSecurMaterialI))
  | .activeKeySeqNumber => .found attr 1 (putByte memory nib.activeKeySeqNumber)
  | .secureAllFrames => .found attr 1 (putByte memory (byteOf nib.secureAllFrames))
  | .other _ => ⟨nwkStatusUnsupportedAttribute, attr, 0, memory⟩

def zbNlmeSetRequest (nib : NibFields) (attr : NibAttribute)
    (ptr : ℕ → UInt8) : NibFields × SetConfirm NibAttribute :=
  match attr with
  | .sequenceNumber => ({ nib with sequenceNumber := ptr 0 }, ⟨0, attr⟩)
  | .passiveAskTimeout => ({ nib with passiveAckTimeout := (ptr 0).toUInt16 }, ⟨0, attr⟩)
  | .maxBroadcastRetries => ({ nib with maxBroadcastRetries := ptr 0 }, ⟨0, attr⟩)
  | .maxChildren => ({ nib with maxChildren := ptr 0 }, ⟨0, attr⟩)
  | .maxDepth => ({ nib with maxDepth := ptr 0 }, ⟨0, attr⟩)
  | .maxRouters => ({ nib with maxRouters := ptr 0 }, ⟨0, attr⟩)
  | .addrAlloc => ({ nib with addrAlloc := bitsOf 3 (ptr 0) }, ⟨0, attr⟩)
  | .useTreeRouting => ({ nib with useTreeRouting := bitsOf 1 (ptr 0) }, ⟨0, attr⟩)
  | .managerAddr => ({ nib with nwkManagerAddr := (ptr 0).toUInt16 }, ⟨0, attr⟩)
  | .updateId => ({ nib with updateId := ptr 0 }, ⟨0, attr⟩)
  | .extendedPanid => ({ nib with extendedPanId := takeBytes 8 ptr }, ⟨0, attr⟩)
  | .securityLevel => ({ nib with securityLevel := bitsOf 4 (ptr 0) }, ⟨0, attr⟩)
  | .securityMaterialSet =>
      ({ nib with activeSecurMaterialI := bitsOf 2 (ptr 0) }, ⟨0, attr⟩)
  | .activeKeySeqNumber => ({ nib with activeKeySeqNumber := ptr 0 }, ⟨0, attr⟩)
  | .secureAllFrames => ({ nib with secureAllFrames := bitsOf 1 (ptr 0) }, ⟨0, attr⟩)
  | .other _ => (nib, ⟨nwkStatusUnsupportedAttribute, attr⟩)

def nibStore (memory : ℕ → UInt8) : AttributeStore NibFields NibAttribute where
  width := NibAttribute.width
  get := zbNlmeGetRequest memory
  set := zbNlmeSetRequest

inductive AibAttribute where
  | designatedCoord
  | channelMask
  | useExtPanid
  | nonmemberRadius
  | useInsecureJoin
  | other (id : ℕ)

/-- The attributes in `zb_apsib_t`. -/
structure ApsibFields where
  apsDesignatedCoordinator : UInt8
  apsInsecureJoin : UInt8
  apsChannelMask : UInt32
  apsUseExtendedPanId : Vector UInt8 8

def apsStatusUnsupportedAttribute : UInt8 := 0xB0

def AibAttribute.width : AibAttribute → ℕ
  | .channelMask => 4
  | .useExtPanid => 8
  | _ => 1

def zbApsmeGetRequest (memory : ℕ → UInt8) (aib : ApsibFields) (attr : AibAttribute) :
    GetConfirm AibAttribute :=
  match attr with
  | .designatedCoord => .found attr 1 (putByte memory aib.apsDesignatedCoordinator)
  | .useInsecureJoin => .found attr 1 (putByte memory aib.apsInsecureJoin)
  | .channelMask => .found attr 4 (putByte memory aib.apsChannelMask.toUInt8)
  | .useExtPanid => .found attr 8 (bytesOf aib.apsUseExtendedPanId)
  | .nonmemberRadius => .found attr 1 (putByte memory 2)
  | .other _ => ⟨apsStatusUnsupportedAttribute, attr, 0, memory⟩

def zbApsmeSetRequest (aib : ApsibFields) (attr : AibAttribute)
    (ptr : ℕ → UInt8) : ApsibFields × SetConfirm AibAttribute :=
  match attr with
  | .designatedCoord => ({ aib with apsDesignatedCoordinator := ptr 0 }, ⟨0, attr⟩)
  | .useInsecureJoin => ({ aib with apsInsecureJoin := ptr 0 }, ⟨0, attr⟩)
  | .channelMask => ({ aib with apsChannelMask := (ptr 0).toUInt32 }, ⟨0, attr⟩)
  | .useExtPanid => ({ aib with apsUseExtendedPanId := takeBytes 8 ptr }, ⟨0, attr⟩)
  | _ => (aib, ⟨apsStatusUnsupportedAttribute, attr⟩)

def aibStore (memory : ℕ → UInt8) : AttributeStore ApsibFields AibAttribute where
  width := AibAttribute.width
  get := zbApsmeGetRequest memory
  set := zbApsmeSetRequest

inductive PibAttribute where
  | currentChannel
  | currentPage
  | ackWaitDuration
  | associationPermit
  | battLifeExt
  | beaconPayload
  | beaconPayloadLength
  | beaconOrder
  | bsn
  | coordExtendAddress
  | coordShortAddress
  | dsn
  | panid
  | rxOnWhenIdle
  | shortAddress
  | superFrameOrder
  | transactionPersistenceTime
  | associatedPanCoord
  | maxFrameTotalWaitTime
  | maxFrameRetries
  | responseWaitTime
  | other (id : ℕ)

/-- The attributes in `zb_mac_pib_t`; the beacon payload has 15 bytes. -/
structure PibFields where
  macAssociationPermit : UInt8
  macBattLifeExt : UInt8
  macBeaconPayload : Vector UInt8 15
  macBeaconPayloadLength : UInt8
  macBeaconOrder : UInt8
  macBsn : UInt8
  macCoordExtendedAddress : Vector UInt8 8
  macCoordShortAddress : UInt16
  macDsn : UInt8
  macPanId : UInt16
  macRxOnWhenIdle : UInt8
  macShortAddress : UInt16
  macSuperframeOrder : UInt16
  phyCurrentPage : UInt8
  phyCurrentChannel : UInt8

structure TransceiverRegs where
  channel : UInt8
  coordShortAddr : UInt16
  panId : UInt16
  shortAddr : UInt16

structure MacIb where
  pib : PibFields
  regs : TransceiverRegs

def macUnsupportedAttribute : UInt8 := 0xF4

def macPibAckWaitDuration : UInt16 := 20 + 12 + 40 + 16

def macPibTransactionPersistenceTime : UInt16 := 0x01F4

def macPibMaxFrameTotalWaitTime : UInt16 := 800

/-- `ZB_MAC_MAX_FRAME_RETRIES` -/
def macPibMaxFrameRetries : UInt8 := 3

def macPibResponseWaitTime : UInt8 := 64

/-- The size of `zb_mlme_get_confirm_t`, in which the attribute is an `int`. -/
def mlmeGetConfirmSize : ℕ := 7

/-- `*(((zb_uint16_t *)conf) + sizeof(zb_mlme_get_confirm_t))`: the bytes of
the confirm are counted twice, so that the value is written behind it. -/
def putWordBehind (memory : ℕ → UInt8) (word : UInt16) : ℕ → UInt8 :=
  Function.update (Function.update memory mlmeGetConfirmSize word.toUInt8)
    (mlmeGetConfirmSize + 1) (word >>> 8).toUInt8

def PibAttribute.width : PibAttribute → ℕ
  | .ackWaitDuration | .coordShortAddress | .panid | .shortAddress
  | .superFrameOrder | .transactionPersistenceTime
  | .maxFrameTotalWaitTime => 2
  | .coordExtendAddress => 8
  | .beaconPayload => 15
  | _ => 1

/-- The index of the confirm is 0 in each case. -/
def zbMlmeGetRequest (memory : ℕ → UInt8) (mac : MacIb) (attr : PibAttribute) :
    GetConfirm PibAttribute :=
  match attr with
  | .currentChannel => .found attr 1 (putByte memory mac.pib.phyCurrentChannel)
  | .currentPage => .found attr 1 (putByte memory mac.pib.phyCurrentPage)
  | .ackWaitDuration => .found attr 2 (putByte memory macPibAckWaitDuration.toUInt8)
  | .associationPermit => .found attr 1 (putByte memory mac.pib.macAssociationPermit)
  | .battLifeExt => .found attr 1 (putByte memory mac.pib.macBattLifeExt)
  | .beaconPayload => .found attr 15 (bytesOf mac.pib.macBeaconPayload)
  | .beaconPayloadLength => .found attr 1 (putByte memory mac.pib.macBeaconPayloadLength)
  | .beaconOrder => .found attr 1 (putByte memory mac.pib.macBeaconOrder)
  | .bsn => .found attr 1 (putByte memory mac.pib.macBsn)
  | .coordShortAddress =>
      .found attr 2 (putByte memory mac.pib.macCoordShortAddress.toUInt8)
  | .dsn => .found attr 1 (putByte memory mac.pib.macDsn)
  | .panid => .found attr 2 (putByte memory mac.pib.macPanId.toUInt8)
  | .rxOnWhenIdle => .found attr 1 (putByte memory mac.pib.macRxOnWhenIdle)
  | .shortAddress => .found attr 2 (putByte memory mac.pib.macShortAddress.toUInt8)
  | .superFrameOrder => .found attr 2 (putByte memory mac.pib.macSuperframeOrder.toUInt8)
  | .transactionPersistenceTime =>
      .found attr 2 (putWordBehind memory macPibTransactionPersistenceTime)
  | .associatedPanCoord => ⟨macUnsupportedAttribute, attr, 0, memory⟩
  | .maxFrameTotalWaitTime =>
      .found attr 2 (putWordBehind memory macPibMaxFrameTotalWaitTime)
  | .maxFrameRetries => .found attr 1 (putByte memory macPibMaxFrameRetries)
  | .responseWaitTime => .found attr 1 (putByte memory macPibResponseWaitTime)
  | _ => ⟨macUnsupportedAttribute, attr, 0, memory⟩

/-- The attributes which `ZB_CONFIGURABLE_MAC_PIB` adds are not compiled. -/
def zbMlmeSetRequest (mac : MacIb) (attr : PibAttribute) (ptr : ℕ → UInt8) :
    MacIb × SetConfirm PibAttribute :=
  let setPib (pib : PibFields) : MacIb × SetConfirm PibAttribute :=
    ({ mac with pib := pib }, ⟨0, attr⟩)
  match attr with
  | .currentChannel =>
      ({ pib := { mac.pib with phyCurrentChannel := ptr 0 }
         regs := { mac.regs with channel := ptr 0 } }, ⟨0, attr⟩)
  | .currentPage => setPib { mac.pib with phyCurrentPage := ptr 0 }
  | .associationPermit => setPib { mac.pib with macAssociationPermit := ptr 0 }
  | .battLifeExt => setPib { mac.pib with macBattLifeExt := ptr 0 }
  | .beaconPayload => setPib { mac.pib with macBeaconPayload := takeBytes 15 ptr }
  | .beaconPayloadLength => setPib { mac.pib with macBeaconPayloadLength := ptr 0 }
  | .beaconOrder => setPib { mac.pib with macBeaconOrder := ptr 0 }
  | .bsn => setPib { mac.pib with macBsn := ptr 0 }
  | .coordShortAddress =>
      ({ pib := { mac.pib with macCoordShortAddress := wordAt ptr }
         regs := { mac.regs with coordShortAddr := wordAt ptr } }, ⟨0, attr⟩)
  | .coordExtendAddress =>
      setPib { mac.pib with macCoordExtendedAddress := takeBytes 8 ptr }
  | .dsn => setPib { mac.pib with macDsn := ptr 0 }
  | .panid =>
      ({ pib := { mac.pib with macPanId := wordAt ptr }
         regs := { mac.regs with panId := wordAt ptr } }, ⟨0, attr⟩)
  | .rxOnWhenIdle => setPib { mac.pib with macRxOnWhenIdle := ptr 0 }
  | .shortAddress =>
      ({ pib := { mac.pib with macShortAddress := wordAt ptr }
         regs := { mac.regs with shortAddr := wordAt ptr } }, ⟨0, attr⟩)
  | .superFrameOrder => setPib { mac.pib with macSuperframeOrder := wordAt ptr }
  | _ => (mac, ⟨macUnsupportedAttribute, attr⟩)

def pibStore (memory : ℕ → UInt8) : AttributeStore MacIb PibAttribute where
  width := PibAttribute.width
  get := zbMlmeGetRequest memory
  set := zbMlmeSetRequest

def informationBases (memory : ℕ → UInt8) :
    AttributeStore (NibFields × ApsibFields × MacIb)
      (NibAttribute ⊕ AibAttribute ⊕ PibAttribute) :=
  (nibStore memory).sum ((aibStore memory).sum (pibStore memory))

/-- The bytes of the value which are not written are in the buffer already. -/
def OneByte (memory : ℕ → UInt8) (width : ℕ) (ptr : ℕ → UInt8) : Prop :=
  ∀ i < width, 0 < i → ptr i = memory i

def NibAttribute.Fits (memory : ℕ → UInt8) (attr : NibAttribute)
    (ptr : ℕ → UInt8) : Prop :=
  match attr with
  | .passiveAskTimeout | .managerAddr => OneByte memory 2 ptr
  | .addrAlloc => (ptr 0).toNat < 2 ^ 3
  | .useTreeRouting | .secureAllFrames => (ptr 0).toNat < 2 ^ 1
  | .securityLevel => (ptr 0).toNat < 2 ^ 4
  | .securityMaterialSet => (ptr 0).toNat < 2 ^ 2
  | _ => True

def AibAttribute.Fits (memory : ℕ → UInt8) (attr : AibAttribute)
    (ptr : ℕ → UInt8) : Prop :=
  match attr with
  | .channelMask => OneByte memory 4 ptr
  | _ => True

def PibAttribute.Fits (memory : ℕ → UInt8) (attr : PibAttribute)
    (ptr : ℕ → UInt8) : Prop :=
  match attr with
  | .coordShortAddress | .panid | .shortAddress | .superFrameOrder => OneByte memory 2 ptr
  | _ => True

section

variable {memory : ℕ → UInt8} {ι : Type*} {attr : ι} {ptr : ℕ → UInt8}

theorem returns_putByte_iff {width : ℕ} {byte : UInt8} (hwidth : 0 < width) :
    (GetConfirm.found attr width (putByte memory byte)).Returns attr width ptr ↔
      byte = ptr 0 ∧ OneByte memory width ptr :=
  GetConfirm.returns_first_iff hwidth

theorem returns_byte :
    (GetConfirm.found attr 1 (putByte memory (ptr 0))).Returns attr 1 ptr :=
  (returns_putByte_iff Nat.one_pos).mpr ⟨rfl, fun i hi hpos => by omega⟩

theorem returns_low_iff {width : ℕ} {byte : UInt8} (hwidth : 0 < width)
    (hbyte : byte = ptr 0) :
    (GetConfirm.found attr width (putByte memory byte)).Returns attr width ptr ↔
      OneByte memory width ptr := by
  rw [returns_putByte_iff hwidth]
  exact and_iff_right hbyte

theorem returns_bits_iff {n : ℕ} (hn : n ≤ 8) : (GetConfirm.found attr 1
        (putByte memory (byteOf (bitsOf n (ptr 0))))).Returns attr 1 ptr ↔
      (ptr 0).toNat < 2 ^ n := by
  have hbyte : (ptr 0).toNat < 2 ^ 8 := (ptr 0).toNat_lt
  have hpow : 2 ^ n ≤ 2 ^ 8 := Nat.pow_le_pow_right (by omega) hn
  have hone : OneByte memory 1 ptr := fun i hi hpos => by omega
  rw [returns_putByte_iff Nat.one_pos, and_iff_left hone, byteOf, bitsOf,
    BitVec.toNat_ofNat, ← UInt8.toNat_inj, UInt8.toNat_ofNat']
  have hmod : (ptr 0).toNat % 2 ^ n < 2 ^ 8 :=
    Nat.lt_of_lt_of_le (Nat.mod_lt _ (Nat.two_pow_pos n)) hpow
  rw [Nat.mod_eq_of_lt hmod]
  exact Nat.mod_eq_iff_lt (Nat.ne_of_gt (Nat.two_pow_pos n))

theorem returns_copy {n : ℕ} :
    (GetConfirm.found attr n (bytesOf (takeBytes n ptr))).Returns attr n ptr :=
  GetConfirm.returns_found_iff.mpr fun _ hi => bytesOf_takeBytes ptr hi

theorem wordAt_toUInt8 : (wordAt ptr).toUInt8 = ptr 0 := by
  rw [← UInt8.toNat_inj, wordAt, UInt16.toNat_toUInt8, UInt16.toNat_ofNat']
  have hbyte : (ptr 0).toNat < 2 ^ 8 := (ptr 0).toNat_lt
  omega

end

theorem nwkStatus_ne_zero : nwkStatusUnsupportedAttribute ≠ 0 := by decide

theorem apsStatus_ne_zero : apsStatusUnsupportedAttribute ≠ 0 := by decide

theorem macStatus_ne_zero : macUnsupportedAttribute ≠ 0 := by decide

section

variable (memory : ℕ → UInt8)

theorem nibStore_others (nib : NibFields) (attr : NibAttribute) (ptr : ℕ → UInt8) :
    ∀ other ≠ attr, zbNlmeGetRequest memory (zbNlmeSetRequest nib attr ptr).1 other =
      zbNlmeGetRequest memory nib other := by
  intro other hother
  unfold zbNlmeSetRequest
  generalize takeBytes 8 ptr = panId
  cases attr <;> cases other <;> first | exact absurd rfl hother | rfl

theorem nibStore_getAfterSet_iff (nib : NibFields) (attr : NibAttribute)
    (ptr : ℕ → UInt8) :
    (nibStore memory).GetAfterSet nib attr ptr ↔ attr.Fits memory ptr := by
  refine getAfterSet_iff (nibStore_others memory nib attr ptr) ?_ ?_
  · intro haccepted
    cases attr with
    | passiveAskTimeout =>
      exact returns_low_iff Nat.two_pos (UInt8.toUInt8_toUInt16 (ptr 0))
    | managerAddr => exact returns_low_iff Nat.two_pos (UInt8.toUInt8_toUInt16 (ptr 0))
    | addrAlloc => exact returns_bits_iff (by decide)
    | useTreeRouting => exact returns_bits_iff (by decide)
    | securityLevel => exact returns_bits_iff (by decide)
    | securityMaterialSet => exact returns_bits_iff (by decide)
    | secureAllFrames => exact returns_bits_iff (by decide)
    | extendedPanid => exact iff_of_true returns_copy trivial
    | other id => exact absurd haccepted.1 nwkStatus_ne_zero
    | _ => exact iff_of_true returns_byte trivial
  · intro hrefused
    cases attr <;> first | trivial | exact absurd ⟨rfl, rfl⟩ hrefused

theorem aibStore_others (aib : ApsibFields) (attr : AibAttribute) (ptr : ℕ → UInt8) :
    ∀ other ≠ attr, zbApsmeGetRequest memory (zbApsmeSetRequest aib attr ptr).1 other =
      zbApsmeGetRequest memory aib other := by
  intro other hother
  unfold zbApsmeSetRequest
  generalize takeBytes 8 ptr = panId
  cases attr <;> cases other <;> first | exact absurd rfl hother | rfl

theorem aibStore_getAfterSet_iff (aib : ApsibFields) (attr : AibAttribute)
    (ptr : ℕ → UInt8) :
    (aibStore memory).GetAfterSet aib attr ptr ↔ attr.Fits memory ptr := by
  refine getAfterSet_iff (aibStore_others memory aib attr ptr) ?_ ?_
  · intro haccepted
    cases attr with
    | channelMask => exact returns_low_iff (by decide) (UInt8.toUInt8_toUInt32 (ptr 0))
    | useExtPanid => exact iff_of_true returns_copy trivial
    | designatedCoord => exact iff_of_true returns_byte trivial
    | useInsecureJoin => exact iff_of_true returns_byte trivial
    | _ => exact absurd haccepted.1 apsStatus_ne_zero
  · intro hrefused
    cases attr <;> first | trivial | exact absurd ⟨rfl, rfl⟩ hrefused

theorem pibStore_others (mac : MacIb) (attr : PibAttribute) (ptr : ℕ → UInt8) :
    ∀ other ≠ attr, zbMlmeGetRequest memory (zbMlmeSetRequest mac attr ptr).1 other =
      zbMlmeGetRequest memory mac other := by
  intro other hother
  unfold zbMlmeSetRequest
  generalize takeBytes 15 ptr = payload
  generalize takeBytes 8 ptr = address
  cases attr <;> cases other <;> first | exact absurd rfl hother | rfl

theorem pibStore_getAfterSet_iff (mac : MacIb) (attr : PibAttribute) (ptr : ℕ → UInt8) :
    (pibStore memory).GetAfterSet mac attr ptr ↔ attr.Fits memory ptr := by
  refine getAfterSet_iff (pibStore_others memory mac attr ptr) ?_ ?_
  · intro haccepted
    cases attr with
    | coordShortAddress => exact returns_low_iff Nat.two_pos wordAt_toUInt8
    | panid => exact returns_low_iff Nat.two_pos wordAt_toUInt8
    | shortAddress => exact returns_low_iff Nat.two_pos wordAt_toUInt8
    | superFrameOrder => exact returns_low_iff Nat.two_pos wordAt_toUInt8
    | beaconPayload => exact iff_of_true returns_copy trivial
    | coordExtendAddress => exact absurd haccepted.2 macStatus_ne_zero
    | ackWaitDuration => exact absurd haccepted.1 macStatus_ne_zero
    | transactionPersistenceTime => exact absurd haccepted.1 macStatus_ne_zero
    | associatedPanCoord => exact absurd haccepted.1 macStatus_ne_zero
    | maxFrameTotalWaitTime => exact absurd haccepted.1 macStatus_ne_zero
    | maxFrameRetries => exact absurd haccepted.1 macStatus_ne_zero
    | responseWaitTime => exact absurd haccepted.1 macStatus_ne_zero
    | other id => exact absurd haccepted.1 macStatus_ne_zero
    | _ => exact iff_of_true returns_byte trivial
  · intro hrefused
    cases attr <;> first | trivial | exact absurd ⟨rfl, rfl⟩ hrefused

end

def AttributeFits (memory : ℕ → UInt8)
    (attr : NibAttribute ⊕ AibAttribute ⊕ PibAttribute) (ptr : ℕ → UInt8) :
    Prop :=
  match attr with
  | .inl attr => attr.Fits memory ptr
  | .inr (.inl attr) => attr.Fits memory ptr
  | .inr (.inr attr) => attr.Fits memory ptr

/-- An attribute which both requests accept is read as it was set, and all the
others are as before, exactly if its value fits. -/
theorem informationBases_getAfterSet_iff (memory : ℕ → UInt8)
    (bases : NibFields × ApsibFields × MacIb)
    (attr : NibAttribute ⊕ AibAttribute ⊕ PibAttribute) (ptr : ℕ → UInt8) :
    (informationBases memory).GetAfterSet bases attr ptr ↔
      AttributeFits memory attr ptr := by
  obtain ⟨nib, aib, mac⟩ := bases
  rcases attr with attr | attr | attr
  · exact getAfterSet_sum_inl.trans (nibStore_getAfterSet_iff memory nib attr ptr)
  · exact getAfterSet_sum_inr.trans (getAfterSet_sum_inl.trans
        (aibStore_getAfterSet_iff memory aib attr ptr))
  · exact getAfterSet_sum_inr.trans (getAfterSet_sum_inr.trans
        (pibStore_getAfterSet_iff memory mac attr ptr))

def sampleBases : NibFields × ApsibFields × MacIb :=
  (⟨0, 0, 0, .replicate 8 0, 0, 0, 0, 0, 0, 0, 0, 0, 0, 0, 0⟩, ⟨0, 0, 0, .replicate 8 0⟩,
    ⟨⟨0, 0, .replicate 15 0, 0, 0, 0, .replicate 8 0, 0, 0, 0, 0, 0, 0, 0, 0⟩,
      ⟨0, 0, 0, 0⟩⟩)

/-- The short address 0x0102 is set; in a zeroed buffer 0x0002 is read. -/
theorem not_getAfterSet_shortAddress :
    ¬ (informationBases fun _ => 0).GetAfterSet sampleBases
      (.inr (.inr .shortAddress)) (bytesOf #v[2, 1]) := by
  intro hkeeps
  have hreturns := (hkeeps ⟨rfl, rfl⟩).gets
  have hhigh := hreturns.value 1 (by decide)
  exact absurd hhigh (by decide)

end Zboss
