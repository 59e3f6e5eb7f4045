import Zboss.PanidConflict
import Zboss.StackGlobals

/-!
# The networks found by a scan

The table of PAN identifiers, and the extended neighbor table as
`zb_mlme_beacon_notify_indication` fills it during an active scan.  Long
addresses are looked for, and stand in the entries, as `zb_ieee_addr_compress`
returns them.
-/

namespace Zboss

open Function

def macStartChannelNumber : ℕ := 11

def macMaxChannelNumber : ℕ := 26

def macSupportedChannels : ℕ :=
  macMaxChannelNumber - macStartChannelNumber + 1

def Channel : Type :=
  { number : ℕ // macStartChannelNumber ≤ number ∧ number ≤ macMaxChannelNumber }
  deriving DecidableEq

/-- `ZB_PROTOCOL_VERSION` -/
def nwkProtocolVersion : ℕ := 2

/-- `zb_pan_id_map_t` -/
structure PanIdMapEnt where
  shortPanid : UInt16
  longPanid : ExtPanId

/-- `pan_map` with the bits of `used_pan_addr`. -/
abbrev PanMap := Fin 8 → Option PanIdMapEnt

def panIdByte (panId : ExtPanId) (i : UInt64) : UInt32 :=
  (panId >>> (8 * i) &&& 0xFF).toUInt32

def panIdHash (panId : ExtPanId) : Fin 8 :=
  Fin.ofNat 8 (fourIntHashFunc (panIdByte panId 0) (panIdByte panId 2)
      (panIdByte panId 4) (panIdByte panId 6)).toNat

def panIdPlaces (panId : ExtPanId) : List (Fin 8) :=
  (List.finRange 8).map (panIdHash panId + ·)

def PanMap.Holds (panMap : PanMap) (panId : ExtPanId) (i : Fin 8) : Bool :=
  (panMap i).any (·.longPanid == panId)

def zbAddressGetPanIdRef (panMap : PanMap) (panId : ExtPanId) :
    Option (Fin 8) :=
  (panIdPlaces panId).find? (panMap.Holds panId)

def zbAddressSetPanId (panMap : PanMap) (shortPanId : UInt16) (panId : ExtPanId) :
    Option (PanMap × Fin 8) :=
  match zbAddressGetPanIdRef panMap panId with
  | some ref => some (panMap, ref)
  | none =>
      ((panIdPlaces panId).reverse.find? (fun i => (panMap i).isNone)).map fun ref =>
          (update panMap ref (some ⟨shortPanId, panId⟩), ref)

/-- `zb_ext_neighbor_tbl_ent_t` -/
structure ScannedNeighbor where
  shortAddr : ℕ
  longAddr : IeeeAddrCompressed
  panidRef : Fin 8
  lqi : UInt8
  updateId : UInt8
  logicalChannel : Channel
  depth : ℕ
  stackProfile : ℕ
  permitJoining : Bool
  routerCapacity : Bool
  endDeviceCapacity : Bool
  potentialParent : Bool
  deviceType : DeviceType

structure ScanTables where
  panMap : PanMap
  extNeighborSize : ℕ
  extNeighbors : List ScannedNeighbor
  known : ∀ ent ∈ extNeighbors, (panMap ent.panidRef).isSome

def ScanTables.empty (size : ℕ) : ScanTables where
  panMap _ := none
  extNeighborSize := size
  extNeighbors := []
  known := by simp

inductive BeaconSource (Addr : Type) where
  | short (addr : ℕ)
  | ieee (addr : Addr)

structure ScannedBeacon (Addr : Type := IeeeAddrCompressed) where
  srcPanId : UInt16
  source : BeaconSource Addr
  associationPermit : Bool
  lqi : UInt8
  channel : Channel
  payload : Option MacBeaconPayload

/-- `zb_nwk_exneighbor_by_short` and `zb_nwk_exneighbor_by_ieee` without the
allocation: the first match for a short address, the last for a long one. -/
def findScanned (entries : List ScannedNeighbor) (panidRef : Fin 8) :
    BeaconSource IeeeAddrCompressed → Option ℕ
  | .short addr =>
      entries.findIdx? fun ent => ent.shortAddr == addr && ent.panidRef == panidRef
  | .ieee addr =>
      (List.range entries.length).reverse.find? fun i =>
        (entries[i]?).any fun ent => ent.panidRef == panidRef && ent.longAddr == addr

/-- What the beacon changes in the entry of its sender; the identifier of the
last update stays as it is. -/
def ScannedNeighbor.heard (role : StackRole) (deviceType : DeviceType)
    (ent : ScannedNeighbor) (panidRef : Fin 8)
    (beacon : ScannedBeacon) (payload : MacBeaconPayload) : ScannedNeighbor :=
  { ent with
    lqi := beacon.lqi
    panidRef := panidRef
    logicalChannel := beacon.channel
    depth := payload.deviceDepth
    permitJoining := beacon.associationPermit
    stackProfile := payload.stackProfile
    routerCapacity := payload.routerCapacity
    endDeviceCapacity := payload.endDeviceCapacity
    potentialParent :=
      if role = .router ∧ deviceType ≠ .endDevice ∧ payload.stackProfile ≠ 2
      then beacon.associationPermit && payload.routerCapacity
      else beacon.associationPermit && payload.endDeviceCapacity
    deviceType :=
      if payload.deviceDepth = 0 then .coordinator
      else if beacon.associationPermit || payload.routerCapacity ||
          payload.endDeviceCapacity then .router
      else .none }

def newScanned (panidRef : Fin 8) (channel : Channel) :
    BeaconSource IeeeAddrCompressed → ScannedNeighbor
  | .short addr =>
      ⟨addr, .zero, panidRef, 0, 0, channel, 0, 0, false, false, false, false, .endDevice⟩
  | .ieee addr =>
      ⟨unknownShort, addr, panidRef, 0, 0, channel, 0, 0, false, false, false,
        false, .endDevice⟩

/-- The entries after the beacon; without a place for a new entry it is
ignored. -/
def hearBeacon (role : StackRole) (deviceType : DeviceType)
    (extNeighborSize : ℕ) (entries : List ScannedNeighbor) (panidRef : Fin 8)
    (beacon : ScannedBeacon) (payload : MacBeaconPayload) :
    List ScannedNeighbor :=
  match findScanned entries panidRef beacon.source with
  | some i =>
      entries.modify i fun ent => ent.heard role deviceType panidRef beacon payload
  | none =>
      if entries.length = extNeighborSize then entries
      else
        entries ++ [(newScanned panidRef beacon.channel beacon.source).heard role
            deviceType panidRef beacon payload]

theorem panidRef_of_mem_hearBeacon {role : StackRole} {deviceType : DeviceType} {size : ℕ}
    {entries : List ScannedNeighbor} {panidRef : Fin 8}
    {beacon : ScannedBeacon} {payload : MacBeaconPayload}
    {ent : ScannedNeighbor}
    (hmem : ent ∈ hearBeacon role deviceType size entries panidRef beacon payload) :
    ent.panidRef = panidRef ∨ ent ∈ entries := by
  unfold hearBeacon at hmem
  cases hfound : findScanned entries panidRef beacon.source with
  | some i =>
    rw [hfound] at hmem
    obtain ⟨j, hj, rfl⟩ := List.mem_iff_getElem.mp hmem
    rw [List.getElem_modify]
    split
    · exact Or.inl rfl
    · exact Or.inr (List.getElem_mem _)
  | none =>
    simp only [hfound] at hmem
    split at hmem
    · exact Or.inr hmem
    · rcases List.mem_append.mp hmem with hold | hnew
      · exact Or.inr hold
      · rw [List.mem_singleton.mp hnew]
        exact Or.inl rfl

theorem zbAddressSetPanId_isSome
    {panMap after : PanMap} {shortPanId : UInt16} {panId : ExtPanId}
    {ref : Fin 8}
    (hset : zbAddressSetPanId panMap shortPanId panId = some (after, ref)) :
    (after ref).isSome ∧ ∀ i, (panMap i).isSome → (after i).isSome := by
  unfold zbAddressSetPanId at hset
  cases hfound : zbAddressGetPanIdRef panMap panId with
  | some found =>
    rw [hfound] at hset
    obtain ⟨rfl, rfl⟩ := Prod.mk.inj (Option.some.inj hset)
    have hholds := List.find?_some hfound
    refine ⟨?_, fun i hi => hi⟩
    cases hplace : panMap found with
    | none => simp [PanMap.Holds, hplace] at hholds
    | some ent => rfl
  | none =>
    rw [hfound] at hset
    obtain ⟨free, -, heq⟩ := Option.map_eq_some_iff.mp hset
    obtain ⟨rfl, rfl⟩ := Prod.mk.inj heq
    refine ⟨by rw [update_self]; rfl, ?_⟩
    intro i hi
    by_cases hsame : i = free
    · rw [hsame, update_self]
      rfl
    · rw [update_of_ne hsame]
      exact hi

/-- What `zb_mlme_beacon_notify_indication` does during a scan for networks:
only networks of the protocol are remembered. -/
def recordBeacon (role : StackRole) (deviceType : DeviceType) (tables : ScanTables)
    (beacon : ScannedBeacon) (payload : MacBeaconPayload) : ScanTables :=
  match hset : zbAddressSetPanId tables.panMap beacon.srcPanId payload.extendedPanid with
  | none => tables
  | some (panMap, panidRef) =>
      { panMap := panMap
        extNeighborSize := tables.extNeighborSize
        extNeighbors :=
          hearBeacon role deviceType tables.extNeighborSize
            tables.extNeighbors panidRef beacon payload
        known := by
          obtain ⟨href, hkept⟩ := zbAddressSetPanId_isSome hset
          intro ent hmem
          rcases panidRef_of_mem_hearBeacon hmem with hnew | hold
          · rw [hnew]
            exact href
          · exact hkept _ (tables.known ent hold) }

def acceptsBeacon (state : NlmeState) (rejoinPanId : ExtPanId)
    (payload : MacBeaconPayload) : Bool :=
  payload.protocolId == 0 && payload.protocolVersion == nwkProtocolVersion &&
    (state != .rejoin || payload.extendedPanid == rejoinPanId)

/-- `zb_mlme_beacon_notify_indication` as far as it is about scans: only in two
states the beacon is looked at. -/
def scanBeacon (role : StackRole) (state : NlmeState) (deviceType : DeviceType)
    (rejoinPanId : ExtPanId) (tables : ScanTables) (beacon : ScannedBeacon) :
    ScanTables :=
  if state = .disc ∨ state = .rejoin then
    match beacon.payload with
    | none => tables
    | some payload =>
        if acceptsBeacon state rejoinPanId payload then
          recordBeacon role deviceType tables beacon payload
        else tables
  else tables

end Zboss
