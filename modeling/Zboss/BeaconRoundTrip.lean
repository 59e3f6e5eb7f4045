import Zboss.ByteOrder
import Zboss.MacHeaderRoundTrip
import Zboss.PacketBuffer
import Zboss.ScannedNetworks

/-!
# Round trip of beacons

What a listening device keeps of a beacon, and where it looks for the payload.
The build is a little-endian one.
-/

namespace Zboss

open ByteOrder Function Option

structure BeaconFrameParams where
  srcAddrMode : UInt8
  framePending : Bool
  ble : UInt8
  beaconOrder : UInt8
  superframeOrder : UInt8
  addressed : srcAddrMode = addr16BitDevOrBroadcast ∨ srcAddrMode = addr64BitDev

structure MacBeaconPayload.Fits (payload : MacBeaconPayload) : Prop where
  protocolId : payload.protocolId < 256
  stackProfile : payload.stackProfile < 16
  protocolVersion : payload.protocolVersion < 16
  deviceDepth : payload.deviceDepth < 16
  txoffset : payload.txoffset < 256 ^ 3

/-- `behind` are the bytes of the PIB which follow the payload. -/
structure BeaconPib where
  macBsn : UInt8
  macPanId : UInt16
  macShortAddress : UInt16
  macExtendedAddress : IeeeAddr
  macAssociationPermit : Bool
  apsDesignatedCoordinator : Bool
  macBeaconPayload : MacBeaconPayload
  macBeaconPayloadLength : UInt8
  behind : ℕ → UInt8
  fits : macBeaconPayload.Fits

def beaconMhr (params : BeaconFrameParams) (pib : BeaconPib) : MacMhr where
  frameControl0 := params.framePending.toUInt8 <<< 4
  frameControl1 := params.srcAddrMode <<< 6
  seqNumber := pib.macBsn
  dstPanId := 0
  dstAddr := .zero
  srcPanId := pib.macPanId.toNat
  srcAddr :=
    if params.srcAddrMode = addr64BitDev then pib.macExtendedAddress
    else
      ⟨⟨UInt8.ofNat pib.macShortAddress.toNat,
        UInt8.ofNat (pib.macShortAddress.toNat / 256), 0⟩, .zero⟩

/-- The `ZB_SUPERFRAME_SET` macros, on one byte -/
def superframeSet (byte mask bits : UInt8) : UInt8 :=
  byte &&& mask ||| bits

def superframeOrders (params : BeaconFrameParams) : UInt8 :=
  superframeSet (superframeSet 0 0xF0 params.beaconOrder) 0x0F
    (params.superframeOrder <<< 4)

def superframeFlags (params : BeaconFrameParams) (pib : BeaconPib) : UInt8 :=
  let flags := superframeSet 0 0xF0 0x0F
  let flags := superframeSet flags 0xEF (params.ble <<< 4)
  let flags :=
    if pib.apsDesignatedCoordinator then superframeSet flags 0xBF 0x40
    else flags
  superframeSet flags 0x7F (pib.macAssociationPermit.toUInt8 <<< 7)

def MacBeaconPayload.toBytes (payload : MacBeaconPayload) : List UInt8 :=
  UInt8.ofNat payload.protocolId ::
    UInt8.ofNat (payload.stackProfile + 16 * payload.protocolVersion) ::
    UInt8.ofNat (4 * payload.routerCapacity.toNat + 8 * payload.deviceDepth +
        128 * payload.endDeviceCapacity.toNat) ::
    (littleEndian.bytes 8 payload.extendedPanid.toNat ++
      littleEndian.bytes 3 payload.txoffset ++ [payload.nwkUpdateId])

/-- The bytes of the payload which are copied. -/
def BeaconPib.payloadBytes (pib : BeaconPib) : List UInt8 :=
  let length := pib.macBeaconPayloadLength.toNat
  (pib.macBeaconPayload.toBytes ++ (List.range (length - 15)).map pib.behind).take length

/-- The two zeros are the GTS and the pending address specification. -/
def beaconBytes (params : BeaconFrameParams) (pib : BeaconPib) : List UInt8 :=
  zbMacFillMhr (beaconMhr params pib) ++
    superframeOrders params :: superframeFlags params pib :: 0 :: 0 :: pib.payloadBytes

/-- `ZB_BUF_INITIAL_ALLOC` asserts that the frame fits the buffer. -/
def zbSendBeaconFrame (params : BeaconFrameParams) (pib : BeaconPib) :
    Option (List UInt8) :=
  if (beaconBytes params pib).length < ioBufSize then some (beaconBytes params pib)
  else none

/-- `ZB_MAC_GET_BEACON_PAYLOAD`, behind the MAC header -/
def macGetBeaconPayload (body : List UInt8) : List UInt8 :=
  body.drop (2 + 1 + 1)

def MacBeaconPayload.ofBytes : List UInt8 → Option MacBeaconPayload
  | protocolId :: profile :: capacities :: rest =>
      rest[11]?.map fun updateId =>
        { protocolId := protocolId.toNat
          stackProfile := profile.toNat % 16
          protocolVersion := profile.toNat / 16
          routerCapacity := capacities.toNat / 4 % 2 == 1
          deviceDepth := capacities.toNat / 8 % 16
          endDeviceCapacity := capacities.toNat / 128 == 1
          extendedPanid := UInt64.ofNat (littleEndian.ofBytes (rest.take 8))
          txoffset := littleEndian.ofBytes ((rest.drop 8).take 3)
          nwkUpdateId := updateId }
  | _ => none

structure BeaconListener where
  addr : AddrGlobals
  role : StackRole
  state : NlmeState
  deviceType : DeviceType
  rejoinPanId : ExtPanId
  channel : Channel
  tables : ScanTables
  beaconOrder : ℕ → UInt8
  superframeOrder : ℕ → UInt8

def MacMhr.beaconSource (mhr : MacMhr) : BeaconSource IeeeAddr :=
  if mhr.srcAddressingMode = addr16BitDevOrBroadcast then .short mhr.srcAddr.addrShort
  else .ieee mhr.srcAddr

def readBeacon (channel : Channel) (lqi : UInt8) (frame : List UInt8) :
    Option (ScannedBeacon IeeeAddr × UInt8) := do
  let (mhr, body) ← zbParseMhr frame
  let payload ← MacBeaconPayload.ofBytes (macGetBeaconPayload body)
  match body with
  | orders :: flags :: _ =>
      some (⟨UInt16.ofNat mhr.srcPanId, mhr.beaconSource, flags >>> 7 &&& 1 == 1,
          lqi, channel, some payload⟩, orders)
  | _ => none

/-- The place which `zb_nwk_exneighbor_by_short` and
`zb_nwk_exneighbor_by_ieee` return. -/
def scannedPlace (tables : ScanTables) (panidRef : Fin 8)
    (source : BeaconSource IeeeAddrCompressed) : Option ℕ :=
  match findScanned tables.extNeighbors panidRef source with
  | some i => some i
  | none =>
      if tables.extNeighbors.length = tables.extNeighborSize then none
      else some tables.extNeighbors.length

def BeaconSource.compress (g : AddrGlobals) : BeaconSource IeeeAddr →
      Option (AddrGlobals × BeaconSource IeeeAddrCompressed)
  | .short addr => some (g, .short addr)
  | .ieee addr =>
      (zbIeeeAddrCompress g addr).map fun (g, compressed) => (g, .ieee compressed)

namespace BeaconListener

/-- `panid_ref`, where the sender of the beacon is looked for. -/
def panidRef (dev : BeaconListener) (beacon : ScannedBeacon IeeeAddr) :
    Option (PanMap × Fin 8) :=
  if dev.state = .disc ∨ dev.state = .rejoin then do
    let payload ← beacon.payload
    if acceptsBeacon dev.state dev.rejoinPanId payload then
      zbAddressSetPanId dev.tables.panMap beacon.srcPanId payload.extendedPanid
    else none
  else none

/-- `enbt` is the place which is returned with the device.  There is no result
where `zb_ieee_addr_compress` asserts. -/
def zbMlmeBeaconNotifyIndication
    (dev : BeaconListener) (lqi : UInt8) (frame : List UInt8) :
    Option (BeaconListener × Option ℕ) := do
  let (beacon, orders) ← readBeacon dev.channel lqi frame
  match dev.panidRef beacon with
  | none => some (dev, none)
  | some (_, panidRef) => do
      let (addr, source) ← beacon.source.compress dev.addr
      let enbt := scannedPlace dev.tables panidRef source
      some
        ({ dev with
            addr := addr
            tables :=
              scanBeacon dev.role dev.state dev.deviceType dev.rejoinPanId
                dev.tables { beacon with source := source }
            beaconOrder :=
              enbt.elim dev.beaconOrder (update dev.beaconOrder · (orders &&& 0x07))
            superframeOrder :=
              enbt.elim dev.superframeOrder
                (update dev.superframeOrder · (orders >>> 4 &&& 0x0F)) },
          enbt)

end BeaconListener

def BeaconSource.IsOf (addr : AddrGlobals) (ent : ScannedNeighbor) :
    BeaconSource IeeeAddr → Prop
  | .short shortAddr => ent.shortAddr = shortAddr
  | .ieee longAddr => zbIeeeAddrDecompress addr ent.longAddr = longAddr

def BeaconPib.source (pib : BeaconPib) (params : BeaconFrameParams) :
    BeaconSource IeeeAddr :=
  if params.srcAddrMode = addr16BitDevOrBroadcast then .short pib.macShortAddress.toNat
  else .ieee pib.macExtendedAddress

structure BeaconListener.Keeps (dev : BeaconListener) (i : ℕ) (ent : ScannedNeighbor)
    (params : BeaconFrameParams) (pib : BeaconPib) : Prop where
  panId : dev.tables.panMap ent.panidRef =
    some ⟨pib.macPanId, pib.macBeaconPayload.extendedPanid⟩
  address : (pib.source params).IsOf dev.addr ent
  logicalChannel : ent.logicalChannel = dev.channel
  beaconOrder : dev.beaconOrder i = params.beaconOrder
  superframeOrder : dev.superframeOrder i = params.superframeOrder
  permitJoining : ent.permitJoining = pib.macAssociationPermit
  routerCapacity : ent.routerCapacity = pib.macBeaconPayload.routerCapacity
  endDeviceCapacity : ent.endDeviceCapacity = pib.macBeaconPayload.endDeviceCapacity
  depth : ent.depth = pib.macBeaconPayload.deviceDepth
  stackProfile : ent.stackProfile = pib.macBeaconPayload.stackProfile
  updateId : ent.updateId = pib.macBeaconPayload.nwkUpdateId

/-- The receiver of the frame, whatever follows it, keeps all of it in the
entry of the sender. -/
def BeaconListener.RecordsBeacon
    (dev : BeaconListener) (lqi : UInt8) (params : BeaconFrameParams)
    (pib : BeaconPib) (tail : List UInt8) : Prop :=
  ∃ frame after i ent, zbSendBeaconFrame params pib = some frame ∧
    dev.zbMlmeBeaconNotifyIndication lqi (frame ++ tail) = some (after, some i) ∧
      after.tables.extNeighbors[i]? = some ent ∧ after.Keeps i ent params pib

/-- The payload as it is read with what follows the frame. -/
def BeaconPib.payloadRead (pib : BeaconPib) (tail : List UInt8) :
    Option MacBeaconPayload :=
  MacBeaconPayload.ofBytes (pib.payloadBytes ++ tail)

/-- The beacon as it is read with this payload. -/
def BeaconPib.beacon (pib : BeaconPib) (params : BeaconFrameParams)
    (lqi : UInt8) (channel : Channel) (payload : MacBeaconPayload) :
    ScannedBeacon IeeeAddr :=
  ⟨pib.macPanId, pib.source params, pib.macAssociationPermit, lqi, channel, some payload⟩

/-! ## What comes through -/

section Bytes

variable {params : BeaconFrameParams} {pib : BeaconPib}

theorem MacBeaconPayload.ofBytes_toBytes
    {payload : MacBeaconPayload} (hfits : payload.Fits) (tail : List UInt8) :
    MacBeaconPayload.ofBytes (payload.toBytes ++ tail) = some payload := by
  obtain ⟨hprotocol, hprofile, hversion, hdepth, htxoffset⟩ := hfits
  have hpanid : littleEndian.ofBytes (littleEndian.bytes 8 payload.extendedPanid.toNat) =
        payload.extendedPanid.toNat :=
    ofBytes_bytes _ payload.extendedPanid.toNat_lt
  have hoffset := ofBytes_bytes littleEndian htxoffset
  have hrouter : payload.routerCapacity.toNat < 2 := Bool.toNat_lt _
  have hend : payload.endDeviceCapacity.toNat < 2 := Bool.toNat_lt _
  have hbool : ∀ b : Bool, (b.toNat == 1) = b := by decide
  have hread : ∀ n, (UInt8.ofNat n).toNat = n % 256 := fun _ => UInt8.toNat_ofNat'
  rw [MacBeaconPayload.toBytes, List.cons_append, List.cons_append,
    List.cons_append, MacBeaconPayload.ofBytes, List.append_assoc,
    List.append_assoc, List.singleton_append,
    List.take_left' (length_bytes _ _ _), List.drop_left' (length_bytes _ _ _),
    List.take_left' (length_bytes _ _ _), hpanid, hoffset,
    List.getElem?_append_right (by rw [length_bytes]; decide),
    List.getElem?_append_right (by simp only [length_bytes]; decide)]
  simp only [length_bytes, hread, UInt64.ofNat_toNat, Nat.reduceSub,
    List.getElem?_cons_zero, Option.map_some]
  have hdiv : ∀ a b : ℕ, a < 16 → b < 16 →
      (a + 16 * b) % 256 % 16 = a ∧ (a + 16 * b) % 256 / 16 = b := by
    omega
  have hsplit : ∀ r d e : ℕ, r < 2 → d < 16 → e < 2 →
      (4 * r + 8 * d + 128 * e) % 256 / 4 % 2 = r ∧
        (4 * r + 8 * d + 128 * e) % 256 / 8 % 16 = d ∧
        (4 * r + 8 * d + 128 * e) % 256 / 128 = e := by
    omega
  obtain ⟨hstack, hproto⟩ := hdiv _ _ hprofile hversion
  obtain ⟨hr, hd, he⟩ := hsplit _ _ _ hrouter hdepth hend
  rw [hstack, hproto, hr, hd, he, hbool, hbool, Nat.mod_eq_of_lt hprotocol]

theorem superframeOrders_and_seven (params : BeaconFrameParams) :
    superframeOrders params &&& 0x07 = params.beaconOrder &&& 0x07 := by
  have hshift : ∀ order : UInt8, order <<< 4 &&& 0x07 = 0 := forall_uint8 (by decide)
  have hmask : ∀ order : UInt8,
      (0 &&& 0xF0 ||| order) &&& 0x0F &&& 0x07 = order &&& 0x07 :=
    forall_uint8 (by decide)
  rw [superframeOrders, superframeSet, superframeSet, or_and, hshift, UInt8.or_zero, hmask]

theorem superframeOrders_shift (params : BeaconFrameParams) :
    superframeOrders params >>> 4 &&& 0x0F = params.superframeOrder &&& 0x0F := by
  have hshift : ∀ order : UInt8, order <<< 4 >>> 4 &&& 0x0F = order &&& 0x0F :=
    forall_uint8 (by decide)
  have hmask : ∀ order : UInt8, ((0 &&& 0xF0 ||| order) &&& 0x0F) >>> 4 = 0 :=
    forall_uint8 (by decide)
  rw [superframeOrders, superframeSet, superframeSet, or_shift, hmask,
    UInt8.zero_or, hshift]

theorem superframeFlags_permit (params : BeaconFrameParams) (pib : BeaconPib) :
    (superframeFlags params pib >>> 7 &&& 1 == 1) = pib.macAssociationPermit := by
  have hmask : ∀ flags : UInt8, (flags &&& 0x7F) >>> 7 = 0 := forall_uint8 (by decide)
  rw [superframeFlags, superframeSet, or_shift, hmask, UInt8.zero_or]
  cases pib.macAssociationPermit <;> rfl

theorem and_seven_eq_iff (order : UInt8) : order &&& 0x07 = order ↔ order < 8 := by
  revert order
  exact forall_uint8 (by decide)

theorem and_fifteen_eq_iff (order : UInt8) : order &&& 0x0F = order ↔ order < 16 := by
  revert order
  exact forall_uint8 (by decide)

theorem srcAddressingMode_beaconMhr :
    (beaconMhr params pib).srcAddressingMode = params.srcAddrMode := by
  have hshift : ∀ mode : UInt8, mode < 4 → (mode <<< 6 &&& 0xC0) >>> 6 = mode :=
    forall_uint8 (by decide)
  apply hshift
  rcases params.addressed with hmode | hmode
  · rw [hmode]
    decide
  · rw [hmode]
    decide

theorem legal_beaconMhr : (beaconMhr params pib).Legal where
  dstMode := by
    have hshift : ∀ mode : UInt8, (mode <<< 6 &&& 0x0C) >>> 2 = 0 :=
      forall_uint8 (by decide)
    exact Or.inl (hshift params.srcAddrMode)
  srcMode := by
    rw [srcAddressingMode_beaconMhr]
    exact Or.inr params.addressed
  dstPanId := Nat.two_pow_pos 16
  srcPanId := pib.macPanId.toNat_lt

theorem parsed_beaconMhr (params : BeaconFrameParams) (pib : BeaconPib) :
    (beaconMhr params pib).parsed.srcPanId = pib.macPanId.toNat ∧
      (beaconMhr params pib).parsed.beaconSource = pib.source params := by
  have hcarries := (beaconMhr params pib).parsed_carries
  have hmode : (beaconMhr params pib).parsed.srcAddressingMode = params.srcAddrMode := by
    rw [MacMhr.srcAddressingMode, hcarries.frameControl.2]
    exact srcAddressingMode_beaconMhr
  have hpresent : (beaconMhr params pib).srcAddressingMode ≠ 0 := by
    rw [srcAddressingMode_beaconMhr]
    rcases params.addressed with hmode | hmode
    · rw [hmode]
      decide
    · rw [hmode]
      decide
  have hcompression : (beaconMhr params pib).panidCompression = false := by
    have hpending : ∀ pending : Bool,
        decide (pending.toUInt8 <<< 4 &&& 0x40 ≠ 0) = false := by
      decide
    exact hpending params.framePending
  have haddr := hcarries.srcAddr hpresent
  refine ⟨?_, ?_⟩
  · rw [hcarries.srcPanId hpresent, hcompression]
    rfl
  · rw [MacMhr.beaconSource, BeaconPib.source, hmode]
    rw [srcAddressingMode_beaconMhr, AddrU.SameFor] at haddr
    by_cases hshort : params.srcAddrMode = addr16BitDevOrBroadcast
    · rw [if_pos hshort] at haddr
      rw [if_pos hshort, if_pos hshort, haddr, beaconMhr, hshort]
      exact congrArg BeaconSource.short (letoh16_htole16 pib.macShortAddress.toNat_lt)
    · have hlong := params.addressed.resolve_left hshort
      rw [if_neg hshort] at haddr
      rw [if_neg hshort, if_neg hshort, haddr, beaconMhr]
      dsimp only
      rw [if_pos hlong]

theorem readBeacon_beaconBytes (channel : Channel) (lqi : UInt8) (tail : List UInt8) :
    readBeacon channel lqi (beaconBytes params pib ++ tail) =
      (pib.payloadRead tail).map fun payload =>
        (pib.beacon params lqi channel payload, superframeOrders params) := by
  have hbody : ∀ (a b c d : UInt8) (rest : List UInt8),
      macGetBeaconPayload (a :: b :: c :: d :: rest) = rest :=
    fun _ _ _ _ _ => rfl
  obtain ⟨hpan, hsource⟩ := parsed_beaconMhr params pib
  rw [readBeacon, beaconBytes, List.append_assoc, takes_zbParseMhr legal_beaconMhr]
  dsimp only [bind_eq_bind, bind_some, List.cons_append]
  rw [hbody, hpan, hsource, superframeFlags_permit, UInt16.ofNat_toNat]
  change (pib.payloadRead tail).bind _ = _
  cases pib.payloadRead tail with
  | none => rfl
  | some payload => rfl

/-- The whole payload is sent. -/
theorem payloadRead_of_le (hlength : 15 ≤ pib.macBeaconPayloadLength.toNat)
    (tail : List UInt8) : pib.payloadRead tail = some pib.macBeaconPayload := by
  have hbytes : pib.macBeaconPayload.toBytes.length = 15 := by
    simp [MacBeaconPayload.toBytes, length_bytes]
  rw [BeaconPib.payloadRead, BeaconPib.payloadBytes,
    List.take_of_length_le (by simp [hbytes, hlength]), List.append_assoc]
  exact MacBeaconPayload.ofBytes_toBytes pib.fits _

end Bytes

def ScanTables.held (tables : ScanTables) (panidRef : Fin 8) (channel : Channel)
    (source : BeaconSource IeeeAddrCompressed) (i : ℕ) : ScannedNeighbor :=
  tables.extNeighbors[i]?.getD (newScanned panidRef channel source)

section Entry

variable {tables : ScanTables} {panidRef : Fin 8} {i : ℕ} (role : StackRole)
  (deviceType : DeviceType) {beacon : ScannedBeacon}

def BeaconSource.Stands (ent : ScannedNeighbor) : BeaconSource IeeeAddrCompressed → Prop
  | .short addr => ent.shortAddr = addr
  | .ieee compressed => ent.longAddr = compressed

/-- What is looked for in the table is read back as the address of the
sender. -/
theorem BeaconSource.isOf_of_compress
    {sender : BeaconSource IeeeAddr} {source : BeaconSource IeeeAddrCompressed}
    {g g' : AddrGlobals} {ent : ScannedNeighbor}
    (hcompress : sender.compress g = some (g', source))
    (hstands : source.Stands ent) : sender.IsOf g' ent := by
  cases sender with
  | short addr =>
    obtain ⟨-, rfl⟩ := Prod.mk.inj (some.inj hcompress)
    exact hstands
  | ieee addr =>
    obtain ⟨⟨g₁, c⟩, hc, heq⟩ := map_eq_some_iff.mp hcompress
    obtain ⟨rfl, rfl⟩ := Prod.mk.inj heq
    rw [BeaconSource.Stands] at hstands
    rw [BeaconSource.IsOf, hstands]
    unfold zbIeeeAddrCompress at hc
    split at hc
    · obtain ⟨rfl, rfl⟩ := Prod.mk.inj (some.inj hc)
      exact congrArg (IeeeAddr.mk · addr.deviceId) (update_self _ _ _)
    · contradiction

theorem findScanned_spec
    {entries : List ScannedNeighbor} {source : BeaconSource IeeeAddrCompressed}
    (hfind : findScanned entries panidRef source = some i) :
    ∃ ent, entries[i]? = some ent ∧ source.Stands ent := by
  cases source with
  | short addr =>
    obtain ⟨hi, hmatch, -⟩ := List.findIdx?_eq_some_iff_getElem.mp hfind
    rw [Bool.and_eq_true, beq_iff_eq] at hmatch
    exact ⟨entries[i], List.getElem?_eq_getElem hi, hmatch.1⟩
  | ieee addr =>
    have hmatch := List.find?_some hfind
    cases hent : entries[i]? with
    | none =>
      rw [hent] at hmatch
      contradiction
    | some ent =>
      rw [hent, any_some, Bool.and_eq_true, beq_iff_eq, beq_iff_eq] at hmatch
      exact ⟨ent, rfl, hmatch.2⟩

theorem hearBeacon_place (payload : MacBeaconPayload)
    (hplace : scannedPlace tables panidRef beacon.source = some i) :
    beacon.source.Stands (tables.held panidRef beacon.channel beacon.source i) ∧
      (hearBeacon role deviceType tables.extNeighborSize tables.extNeighbors
          panidRef beacon payload)[i]? =
        some ((tables.held panidRef beacon.channel beacon.source i).heard role
          deviceType panidRef
          beacon payload) := by
  unfold scannedPlace at hplace
  cases hfind : findScanned tables.extNeighbors panidRef beacon.source with
  | some found =>
    rw [hfind, some.injEq] at hplace
    subst hplace
    obtain ⟨ent, hent, hmatch⟩ := findScanned_spec hfind
    rw [ScanTables.held, hearBeacon, hfind, hent]
    refine ⟨hmatch, ?_⟩
    dsimp only
    rw [List.getElem?_modify_eq, hent]
    rfl
  | none =>
    rw [hfind] at hplace
    dsimp only at hplace
    split at hplace
    · contradiction
    · rename_i hroom
      obtain rfl := some.inj hplace
      rw [ScanTables.held, hearBeacon, hfind, List.getElem?_length]
      dsimp only
      rw [if_neg hroom, List.getElem?_concat_length]
      refine ⟨?_, rfl⟩
      cases beacon.source <;> rfl

theorem recordBeacon_of_set {payload : MacBeaconPayload} {panMap : PanMap}
    (hset : zbAddressSetPanId tables.panMap beacon.srcPanId
      payload.extendedPanid = some (panMap, panidRef)) :
    (recordBeacon role deviceType tables beacon payload).panMap = panMap ∧
      (recordBeacon role deviceType tables beacon payload).extNeighbors =
        hearBeacon role deviceType tables.extNeighborSize tables.extNeighbors
          panidRef beacon payload := by
  unfold recordBeacon
  split
  · rename_i hnone
    rw [hset] at hnone
    contradiction
  · rename_i heq
    rw [hset] at heq
    obtain ⟨rfl, rfl⟩ := Prod.mk.inj (some.inj heq)
    exact ⟨rfl, rfl⟩

end Entry

structure BeaconFrame where
  mhr : MacMhr
  superframe : UInt8 × UInt8
  gtsPermit : Bool
  gtsDirections : UInt8
  gtsList : List (Vector UInt8 3)
  shortPending : List (Vector UInt8 2)
  longPending : List (Vector UInt8 8)
  payload : List UInt8
  legal : mhr.Legal
  gtsCount : gtsList.length < 8
  shortCount : shortPending.length < 8
  longCount : longPending.length < 8

def flatCells {n : ℕ} (fields : List (Vector UInt8 n)) : List UInt8 :=
  fields.flatMap Vector.toList

namespace BeaconFrame

variable (frame : BeaconFrame)

def gtsFields : List UInt8 :=
  UInt8.ofNat (frame.gtsList.length + 128 * frame.gtsPermit.toNat) ::
    if frame.gtsList = [] then []
    else frame.gtsDirections :: flatCells frame.gtsList

def pendingFields : List UInt8 :=
  UInt8.ofNat (frame.shortPending.length + 16 * frame.longPending.length) ::
    (flatCells frame.shortPending ++ flatCells frame.longPending)

def toBytes : List UInt8 :=
  zbMacFillMhr frame.mhr ++ frame.superframe.1 :: frame.superframe.2 ::
    (frame.gtsFields ++ frame.pendingFields ++ frame.payload)

def Located : Prop :=
  (zbParseMhr frame.toBytes).map (fun read => macGetBeaconPayload read.2) =
    some frame.payload

end BeaconFrame

theorem length_flatCells {n : ℕ} (fields : List (Vector UInt8 n)) :
    (flatCells fields).length = n * fields.length := by
  rw [flatCells, List.length_flatMap]
  simp [Nat.mul_comm]

theorem located_iff (frame : BeaconFrame) :
    frame.Located ↔ frame.gtsList = [] ∧ frame.shortPending = [] ∧
      frame.longPending = [] := by
  rw [BeaconFrame.Located, BeaconFrame.toBytes, takes_zbParseMhr frame.legal,
    map_some, some.injEq, macGetBeaconPayload]
  constructor
  · intro hlocated
    have hlength := congrArg List.length hlocated
    by_cases hgts : frame.gtsList = []
    · simp only [BeaconFrame.gtsFields, BeaconFrame.pendingFields, if_pos hgts,
        List.length_drop, List.length_cons, List.length_append, List.length_nil,
        length_flatCells] at hlength
      exact ⟨hgts, List.length_eq_zero_iff.mp (by omega),
        List.length_eq_zero_iff.mp (by omega)⟩
    · simp only [BeaconFrame.gtsFields, BeaconFrame.pendingFields, if_neg hgts,
        List.length_drop, List.length_cons, List.length_append,
        length_flatCells] at hlength
      omega
  · rintro ⟨hgts, hshort, hlong⟩
    rw [BeaconFrame.gtsFields, if_pos hgts, BeaconFrame.pendingFields, hshort, hlong]
    rfl

namespace BeaconListener

variable {dev : BeaconListener} {lqi : UInt8} {params : BeaconFrameParams}
  {pib : BeaconPib} {tail : List UInt8}

/-- The place of the sender is found, or there is a free one. -/
structure Hears (dev : BeaconListener) (beacon : ScannedBeacon IeeeAddr)
    (payload : MacBeaconPayload) (panMap : PanMap) (panidRef : Fin 8)
    (addr : AddrGlobals) (source : BeaconSource IeeeAddrCompressed) (i : ℕ) :
    Prop where
  listens : dev.state = .disc ∨ dev.state = .rejoin
  accepts : acceptsBeacon dev.state dev.rejoinPanId payload = true
  network : zbAddressSetPanId dev.tables.panMap beacon.srcPanId
    payload.extendedPanid = some (panMap, panidRef)
  compresses : beacon.source.compress dev.addr = some (addr, source)
  place : scannedPlace dev.tables panidRef source = some i

theorem panidRef_eq_some {beacon : ScannedBeacon IeeeAddr} {payload : MacBeaconPayload}
    {network : PanMap × Fin 8} (hpayload : beacon.payload = some payload) :
    dev.panidRef beacon = some network ↔ (dev.state = .disc ∨ dev.state = .rejoin) ∧
        acceptsBeacon dev.state dev.rejoinPanId payload = true ∧
        zbAddressSetPanId dev.tables.panMap beacon.srcPanId
          payload.extendedPanid = some network := by
  rw [BeaconListener.panidRef, hpayload]
  dsimp only [bind_eq_bind, bind_some]
  split
  case isTrue hlistens =>
    rw [and_iff_right hlistens]
    split
    case isTrue haccepts => rw [and_iff_right haccepts]
    case isFalse haccepts => exact iff_of_false (by simp) fun hall => haccepts hall.1
  case isFalse hlistens => exact iff_of_false (by simp) fun hall => hlistens hall.1

structure HeardAs (dev : BeaconListener) (params : BeaconFrameParams)
    (panMap : PanMap) (addr : AddrGlobals) (i : ℕ) (ent : ScannedNeighbor)
    (after : BeaconListener) : Prop where
  channel : after.channel = dev.channel
  addr : after.addr = addr
  panMap : after.tables.panMap = panMap
  entry : after.tables.extNeighbors[i]? = some ent
  beaconOrder : after.beaconOrder i = params.beaconOrder &&& 0x07
  superframeOrder : after.superframeOrder i = params.superframeOrder &&& 0x0F

variable {payload : MacBeaconPayload} {panMap : PanMap} {panidRef : Fin 8}
  {addr : AddrGlobals} {source : BeaconSource IeeeAddrCompressed} {i : ℕ}

/-- What must hold of the sender and of the receiver. -/
structure KeepsAll (dev : BeaconListener) (lqi : UInt8)
    (params : BeaconFrameParams) (pib : BeaconPib) (tail : List UInt8)
    (payload : MacBeaconPayload) (panMap : PanMap) (panidRef : Fin 8)
    (addr : AddrGlobals) (source : BeaconSource IeeeAddrCompressed) (i : ℕ) :
    Prop where
  fits : (beaconBytes params pib).length < ioBufSize
  read : pib.payloadRead tail = some payload
  hears : dev.Hears (pib.beacon params lqi dev.channel payload) payload panMap
    panidRef addr source i
  panId : panMap panidRef = some ⟨pib.macPanId, pib.macBeaconPayload.extendedPanid⟩
  routerCapacity : payload.routerCapacity = pib.macBeaconPayload.routerCapacity
  endDeviceCapacity : payload.endDeviceCapacity = pib.macBeaconPayload.endDeviceCapacity
  depth : payload.deviceDepth = pib.macBeaconPayload.deviceDepth
  stackProfile : payload.stackProfile = pib.macBeaconPayload.stackProfile
  updateId : (dev.tables.held panidRef dev.channel source i).updateId =
    pib.macBeaconPayload.nwkUpdateId
  beaconOrder : params.beaconOrder < 8
  superframeOrder : params.superframeOrder < 16

theorem Hears.heardAs (hread : pib.payloadRead tail = some payload)
    (hears : dev.Hears (pib.beacon params lqi dev.channel payload) payload panMap
      panidRef addr source i) :
    ∃ after, dev.zbMlmeBeaconNotifyIndication lqi (beaconBytes params pib ++ tail) =
          some (after, some i) ∧
        dev.HeardAs params panMap addr i
          ((dev.tables.held panidRef dev.channel source i).heard dev.role
            dev.deviceType panidRef
            { pib.beacon params lqi dev.channel payload with source := source }
            payload)
          after := by
  have hnetwork := (panidRef_eq_some rfl).mpr ⟨hears.listens, hears.accepts, hears.network⟩
  have hset : zbAddressSetPanId dev.tables.panMap
      ({ pib.beacon params lqi dev.channel payload with source := source } :
        ScannedBeacon).srcPanId payload.extendedPanid = some (panMap, panidRef) :=
    hears.network
  obtain ⟨hmap, hrows⟩ := recordBeacon_of_set dev.role dev.deviceType hset
  have hscan : scanBeacon dev.role dev.state dev.deviceType dev.rejoinPanId dev.tables
      { pib.beacon params lqi dev.channel payload with source := source } =
        recordBeacon dev.role dev.deviceType dev.tables
          { pib.beacon params lqi dev.channel payload with source := source }
          payload := by
    rw [scanBeacon, if_pos hears.listens]
    exact if_pos hears.accepts
  rw [zbMlmeBeaconNotifyIndication, readBeacon_beaconBytes, hread]
  dsimp only [bind_eq_bind, bind_some, map_some]
  rw [hnetwork]
  dsimp only
  rw [hears.compresses]
  dsimp only [bind_some]
  rw [hears.place, hscan]
  refine ⟨_, rfl, rfl, rfl, hmap, ?_, ?_, ?_⟩
  · dsimp only
    rw [hrows]
    exact (hearBeacon_place _ _ _ hears.place).2
  · dsimp only [elim_some]
    rw [update_self, superframeOrders_and_seven]
  · dsimp only [elim_some]
    rw [update_self, superframeOrders_shift]

/-- A call which returns a place has found it for the sender. -/
theorem hears_of_notify {after : BeaconListener}
    (hrun : dev.zbMlmeBeaconNotifyIndication lqi (beaconBytes params pib ++ tail) =
      some (after, some i)) :
    ∃ payload panMap panidRef addr source, pib.payloadRead tail = some payload ∧
      dev.Hears (pib.beacon params lqi dev.channel payload) payload panMap
        panidRef addr source i := by
  rw [zbMlmeBeaconNotifyIndication, readBeacon_beaconBytes] at hrun
  cases hread : pib.payloadRead tail with
  | none =>
    rw [hread] at hrun
    contradiction
  | some payload =>
    rw [hread] at hrun
    dsimp only [bind_eq_bind, bind_some, map_some] at hrun
    split at hrun
    · exact nomatch (Prod.mk.inj (some.inj hrun)).2
    · rename_i panMap panidRef hnetwork
      obtain ⟨⟨addr, source⟩, hcompress, hresult⟩ := bind_eq_some_iff.mp hrun
      obtain ⟨hlistens, haccepts, hset⟩ := (panidRef_eq_some rfl).mp hnetwork
      exact ⟨payload, panMap, panidRef, addr, source, rfl, hlistens, haccepts,
        hset, hcompress, (Prod.mk.inj (some.inj hresult)).2⟩

theorem recordsBeacon_iff : dev.RecordsBeacon lqi params pib tail ↔
      ∃ payload panMap panidRef addr source i,
        dev.KeepsAll lqi params pib tail payload panMap panidRef addr source i := by
  constructor
  · rintro ⟨frame, after, i, ent, hsend, hrun, hent, hkeeps⟩
    obtain ⟨hfits, rfl⟩ := ite_some_none_eq_some.mp hsend
    obtain ⟨payload, panMap, panidRef, addr, source, hread, hears⟩ := hears_of_notify hrun
    obtain ⟨_, hrun', hheard⟩ := hears.heardAs hread
    rw [hrun] at hrun'
    obtain ⟨rfl, -⟩ := Prod.mk.inj (some.inj hrun')
    rw [hheard.entry] at hent
    obtain rfl := some.inj hent
    refine ⟨payload, panMap, panidRef, addr, source, i, hfits, hread, hears, ?_,
      hkeeps.routerCapacity, hkeeps.endDeviceCapacity, hkeeps.depth,
      hkeeps.stackProfile, hkeeps.updateId, ?_, ?_⟩
    · rw [← hheard.panMap]
      exact hkeeps.panId
    · rw [← and_seven_eq_iff, ← hheard.beaconOrder]
      exact hkeeps.beaconOrder
    · rw [← and_fifteen_eq_iff, ← hheard.superframeOrder]
      exact hkeeps.superframeOrder
  · rintro ⟨payload, panMap, panidRef, addr, source, i, hkeeps⟩
    obtain ⟨after, hrun, hheard⟩ := hkeeps.hears.heardAs hkeeps.read
    refine ⟨_, after, i, _, if_pos hkeeps.fits, hrun, hheard.entry, ?_⟩
    constructor
    case panId =>
      rw [hheard.panMap]
      exact hkeeps.panId
    case address =>
      rw [hheard.addr]
      refine BeaconSource.isOf_of_compress hkeeps.hears.compresses ?_
      let beacon : ScannedBeacon :=
        { pib.beacon params lqi dev.channel payload with source := source }
      have hplace : scannedPlace dev.tables panidRef beacon.source = some i :=
        hkeeps.hears.place
      exact (hearBeacon_place dev.role dev.deviceType payload hplace).1
    case logicalChannel => exact hheard.channel.symm
    case beaconOrder =>
      rw [hheard.beaconOrder, (and_seven_eq_iff _).mpr hkeeps.beaconOrder]
    case superframeOrder =>
      rw [hheard.superframeOrder, (and_fifteen_eq_iff _).mpr hkeeps.superframeOrder]
    case permitJoining => rfl
    case routerCapacity => exact hkeeps.routerCapacity
    case endDeviceCapacity => exact hkeeps.endDeviceCapacity
    case depth => exact hkeeps.depth
    case stackProfile => exact hkeeps.stackProfile
    case updateId => exact hkeeps.updateId

end BeaconListener

/-- A beacon comes through if and only if its frame fits the buffer, its payload
is read as far as it is kept, its orders have three and four bits, the receiver
has places for the network and the sender and knows the network by no other PAN
identifier, and the entry of the sender has the identifier of the update
already.  A payload of at least 15 bytes is read as it was.  The payload is found
if and only if no GTS and no pending addresses are before it. -/
theorem beacon_roundTrips_iff
    (dev : BeaconListener) (lqi : UInt8) (params : BeaconFrameParams)
    (pib : BeaconPib) (tail : List UInt8) (frame : BeaconFrame) :
    (dev.RecordsBeacon lqi params pib tail ↔ ∃ payload panMap panidRef addr source i,
          dev.KeepsAll lqi params pib tail payload panMap panidRef addr source i) ∧
      (15 ≤ pib.macBeaconPayloadLength.toNat →
        pib.payloadRead tail = some pib.macBeaconPayload) ∧
      (frame.Located ↔ frame.gtsList = [] ∧ frame.shortPending = [] ∧
        frame.longPending = []) :=
  ⟨dev.recordsBeacon_iff, fun hlength => payloadRead_of_le hlength tail, located_iff frame⟩

def nonbeaconParams : BeaconFrameParams where
  srcAddrMode := addr16BitDevOrBroadcast
  framePending := false
  ble := 0
  beaconOrder := 15
  superframeOrder := 15
  addressed := Or.inl rfl

def nonbeaconPib : BeaconPib where
  macBsn := 0
  macPanId := 0x1AAA
  macShortAddress := 0
  macExtendedAddress := .zero
  macAssociationPermit := true
  apsDesignatedCoordinator := true
  macBeaconPayload := ⟨0, 2, 2, true, 0, true, 1, 0xFFFFFF, 0⟩
  macBeaconPayloadLength := 15
  behind _ := 0
  fits := ⟨by decide, by decide, by decide, by decide, by decide⟩

def firstListener : BeaconListener where
  addr := .zeroed
  role := .router
  state := .disc
  deviceType := .router
  rejoinPanId := 0
  channel := ⟨13, by decide⟩
  tables := .empty 8
  beaconOrder := fun _ => 0
  superframeOrder := fun _ => 0

/-- The receiver hears the beacon, and keeps 7 for the order 15. -/
theorem not_recordsBeacon_nonbeacon : (firstListener.zbMlmeBeaconNotifyIndication 255
        (beaconBytes nonbeaconParams nonbeaconPib)).map
          (fun result => (result.2, result.1.beaconOrder 0)) =
          some (some 0, 7) ∧
      ¬ firstListener.RecordsBeacon 255 nonbeaconParams nonbeaconPib [] := by
  refine ⟨by decide +kernel, ?_⟩
  rw [BeaconListener.recordsBeacon_iff]
  rintro ⟨_, _, _, _, _, _, hkeeps⟩
  exact absurd hkeeps.beaconOrder (by decide)

end Zboss
