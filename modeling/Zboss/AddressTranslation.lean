import Zboss.Bisection
import Zboss.CyclicProbe
import Zboss.PackedArray

/-!
# The address translation table

The operations of `zb_address.c` on the address context `ZG->addr`, for the
build without `ZB_LIMITED_FEATURES`.  An operation returns `none` where the
source asserts or writes past the end of `short_sorted`; otherwise it returns
the new context together with its return code.

Arrays are functions on indices.  The fields of an entry which belong to the
APS duplicate table are absent, since nothing in this file reads them.
-/

namespace Zboss

open Function

def ieeeAddrTableSize : ℕ := 101

/-- `ZB_DEV_MANUFACTORER_TABLE_SIZE` -/
def devManufacturerTableSize : ℕ := 16

/-- The short address which stands for "not known", `(zb_uint16_t)~0`. -/
def unknownShort : ℕ := 0xFFFF

inductive RetError where
  | error
  | notFound
  | overflow
  | noMemory
  | invalidFormat
  deriving DecidableEq, Repr

/-- `zb_dev_manufacturer_t`: the first three bytes of a long address. -/
structure DevManufacturer where
  byte0 : UInt8
  byte1 : UInt8
  byte2 : UInt8
  deriving DecidableEq

/-- `device_id`: the last five bytes of a long address. -/
structure DeviceId where
  byte0 : UInt8
  byte1 : UInt8
  byte2 : UInt8
  byte3 : UInt8
  byte4 : UInt8
  deriving DecidableEq

structure IeeeAddr where
  deviceManufacturer : DevManufacturer
  deviceId : DeviceId
  deriving DecidableEq

/-- `zb_ieee_addr_compressed_t`: the manufacturer is an index into the table
of manufacturers. -/
structure IeeeAddrCompressed where
  devManufacturer : ℕ
  deviceId : DeviceId
  deriving DecidableEq

def DevManufacturer.zero : DevManufacturer := ⟨0, 0, 0⟩

def DeviceId.zero : DeviceId := ⟨0, 0, 0, 0, 0⟩

def IeeeAddr.zero : IeeeAddr := ⟨.zero, .zero⟩

def IeeeAddrCompressed.zero : IeeeAddrCompressed := ⟨0, .zero⟩

instance neZero_sixteen : NeZero 16 := ⟨by decide⟩

structure AddressMap where
  ieeeAddr : IeeeAddrCompressed
  addr : ℕ
  used : Bool
  lockCnt : Fin 16
  clock : Bool

structure AddrGlobals where
  usedManufacturer : ℕ → Bool
  devManufacturer : ℕ → DevManufacturer
  addrMap : ℕ → AddressMap
  shortSorted : ℕ → ℕ
  nElements : UInt32
  nSortedElements : ℕ
  clockI : ℕ

namespace AddrGlobals

def zeroed : AddrGlobals where
  usedManufacturer _ := false
  devManufacturer _ := .zero
  addrMap _ :=
    { ieeeAddr := .zero, addr := 0, used := false, lockCnt := 0, clock := false }
  shortSorted _ := 0
  nElements := 0
  nSortedElements := 0
  clockI := 0

def setEntry (g : AddrGlobals) (ref : ℕ) (ent : AddressMap) : AddrGlobals :=
  { g with addrMap := update g.addrMap ref ent }

def markClock (g : AddrGlobals) (ref : ℕ) : AddrGlobals :=
  g.setEntry ref { g.addrMap ref with clock := true }

end AddrGlobals

/-- The manufacturer slot which `zb_ieee_addr_compress` uses: the first used
slot with these bytes, else the last free one. -/
def manufacturerSlot (g : AddrGlobals) (manufacturer : DevManufacturer) :
    Option ℕ :=
  let slots := List.range devManufacturerTableSize
  match slots.find? (fun i =>
      g.usedManufacturer i && g.devManufacturer i == manufacturer) with
  | some i => some i
  | none => slots.reverse.find? (fun i => !g.usedManufacturer i)

def zbIeeeAddrCompress (g : AddrGlobals) (address : IeeeAddr) :
    Option (AddrGlobals × IeeeAddrCompressed) :=
  match manufacturerSlot g address.deviceManufacturer with
  | some i =>
      some
        ({ g with
            usedManufacturer := update g.usedManufacturer i true
            devManufacturer := update g.devManufacturer i address.deviceManufacturer },
          ⟨i, address.deviceId⟩)
  | none => none

def zbIeeeAddrDecompress (g : AddrGlobals) (compressed : IeeeAddrCompressed) :
    IeeeAddr :=
  ⟨g.devManufacturer compressed.devManufacturer, compressed.deviceId⟩

def hashFuncStep (hashVar v : UInt32) : UInt32 :=
  ((hashVar <<< 5) + hashVar) + v

/-- `ZB_4INT_HASH_FUNC` -/
def fourIntHashFunc (v1 v2 v3 v4 : UInt32) : UInt32 :=
  hashFuncStep (hashFuncStep (hashFuncStep (hashFuncStep 5381 v1) v2) v3) v4 &&& 0x7FFFFFFF

def zbAddressCompressedIeeeHash (compressed : IeeeAddrCompressed) : ℕ :=
  (fourIntHashFunc compressed.deviceId.byte0.toUInt32 compressed.deviceId.byte2.toUInt32
    compressed.deviceId.byte3.toUInt32
    compressed.deviceId.byte4.toUInt32).toNat % ieeeAddrTableSize

def ieeeSearch (g : AddrGlobals) (compressed : IeeeAddrCompressed) :
    Option ℕ :=
  CyclicProbe.probe (fun i => (g.addrMap i).used && (g.addrMap i).ieeeAddr == compressed)
    ieeeAddrTableSize ieeeAddrTableSize
    (zbAddressCompressedIeeeHash compressed)

/-- The short address of the entry which `short_sorted` holds at `i`. -/
def sortedAddr (g : AddrGlobals) (i : ℕ) : ℕ :=
  (g.addrMap (g.shortSorted i)).addr

/-- The place where the binary search of `short_search` ends. -/
def shortSearchIndex (g : AddrGlobals) (shortAddr : ℕ) : ℕ :=
  if 1 < g.nSortedElements then
    Bisection.bisect (fun i => decide (sortedAddr g i < shortAddr))
      g.nSortedElements 0 g.nSortedElements
  else 0

def shortSearch (g : AddrGlobals) (shortAddr : ℕ) : Option ℕ :=
  let l := shortSearchIndex g shortAddr
  if 0 < g.nSortedElements ∧ l < g.nSortedElements ∧ shortAddr = sortedAddr g l then
    some (g.shortSorted l)
  else none

/-- The bytes which `del_short_sorted` moves: the byte behind the array is
the low byte of `n_elements`. -/
def shortSortedBytes (g : AddrGlobals) : ℕ → ℕ :=
  update g.shortSorted ieeeAddrTableSize (g.nElements.toNat % 256)

def delShortSortedLoop (ref n : ℕ) : ℕ → ℕ → (ℕ → ℕ) → ℕ → (ℕ → ℕ) × ℕ
  | 0, _, sorted, dec => (sorted, dec)
  | rounds + 1, i, sorted, dec =>
      if sorted i = ref then
        delShortSortedLoop ref n rounds (i + 1)
          (if i ≠ n - 1 then PackedArray.closeGap sorted i n else sorted)
          (dec + 1)
      else delShortSortedLoop ref n rounds (i + 1) sorted dec

def delShortSorted (g : AddrGlobals) (ref : ℕ) : AddrGlobals :=
  let n := g.nSortedElements
  let moved := delShortSortedLoop ref n n 0 (shortSortedBytes g) 0
  { g with shortSorted := moved.1, nSortedElements := n - moved.2 }

def addShortSortedIndex (g : AddrGlobals) (shortAddr : ℕ) : ℕ :=
  let n := g.nSortedElements
  let l :=
    if 1 < n then Bisection.bisect (fun i => decide (sortedAddr g i ≤ shortAddr)) n 0 n
    else 0
  if 0 < n ∧ l < n ∧ sortedAddr g l < shortAddr then l + 1 else l

/-- `none` when the array is full, where the source writes past its end. -/
def addShortSorted (g : AddrGlobals) (ref shortAddr : ℕ) :
    Option AddrGlobals :=
  let n := g.nSortedElements
  let l := addShortSortedIndex g shortAddr
  if n < ieeeAddrTableSize then
    let moved := if l < n then PackedArray.openGap g.shortSorted l n else g.shortSorted
    some
      { g with
        shortSorted := update moved l ref
        nSortedElements := n + 1 }
  else none

/-- One of the two loops of `clock_tick`: look for a used entry without lock, up
to `bound`. -/
def clockTickLoop (bound : ℕ) : ℕ → AddrGlobals → ℕ → AddrGlobals × ℕ × Bool
  | 0, g, cnt => (g, cnt, false)
  | rounds + 1, g, cnt =>
      if g.clockI < bound ∧ cnt < g.nElements.toNat then
        let i := g.clockI
        let ent := g.addrMap i
        let g := { g with clockI := i + 1 }
        if ent.used then
          if ent.lockCnt = 0 then (g.setEntry i { ent with clock := false }, cnt + 1, true)
          else clockTickLoop bound rounds g (cnt + 1)
        else clockTickLoop bound rounds g cnt
      else (g, cnt, false)

def clockTick (g : AddrGlobals) : AddrGlobals :=
  let limit := g.clockI
  match clockTickLoop ieeeAddrTableSize ieeeAddrTableSize g 0 with
  | (g, _, true) => g
  | (g, cnt, false) =>
      if cnt < g.nElements.toNat then
        (clockTickLoop limit limit { g with clockI := 0 } cnt).1
      else g

/-- `none` is the assertion against overflow of the four-bit counter. -/
def zbAddressLock (g : AddrGlobals) (ref : ℕ) : Option AddrGlobals :=
  let ent := g.addrMap ref
  if ent.lockCnt + 1 = 0 then none
  else some (g.setEntry ref { ent with lockCnt := ent.lockCnt + 1, clock := true })

def zbAddressUnlock (g : AddrGlobals) (ref : ℕ) : Option AddrGlobals :=
  let ent := g.addrMap ref
  if ent.lockCnt = 0 then none
  else some (g.setEntry ref { ent with lockCnt := ent.lockCnt - 1 })

def lockResult (lock : Bool) (g : AddrGlobals) (ret : Except RetError ℕ) :
    Option (AddrGlobals × Except RetError ℕ) :=
  match lock, ret with
  | true, .ok ref => (zbAddressLock g ref).map (·, ret)
  | _, _ => some (g, ret)

def freeEntry (g : AddrGlobals) (compressed : Option IeeeAddrCompressed) :
    Option ℕ :=
  CyclicProbe.probe (fun i => !(g.addrMap i).used) ieeeAddrTableSize ieeeAddrTableSize
    (match compressed with
      | some compressed => zbAddressCompressedIeeeHash compressed
      | none => 0)

/-- The part of `addr_add` which updates the sorted index. -/
def addrAddSorted (g : AddrGlobals) (i shortAddr : ℕ) : Option AddrGlobals :=
  if shortAddr ≠ unknownShort then
    addShortSorted (if (g.addrMap i).used then delShortSorted g i else g) i shortAddr
  else some g

def addrAdd (g : AddrGlobals) (compressed : Option IeeeAddrCompressed) (shortAddr : ℕ) :
    Option (AddrGlobals × Except RetError ℕ) := do
  match freeEntry g compressed with
  | none => some (g, .error .overflow)
  | some i =>
      let g := clockTick g
      let g := g.setEntry i
        { g.addrMap i with
          addr := shortAddr
          clock := true
          ieeeAddr := compressed.getD .zero }
      let g ← addrAddSorted g i shortAddr
      let g :=
        { g with
          nElements := g.nElements + (if (g.addrMap i).used then 0 else 1) }
      some (g.setEntry i { g.addrMap i with used := true }, .ok i)

def zbAddressDelete (g : AddrGlobals) (ref : ℕ) : AddrGlobals :=
  let g := delShortSorted g ref
  let g := g.setEntry ref { g.addrMap ref with used := false }
  { g with nElements := g.nElements - 1 }

def zbAddressByIeee (g : AddrGlobals) (ieee : IeeeAddr) (create lock : Bool) :
    Option (AddrGlobals × Except RetError ℕ) := do
  let (g, compressed) ← zbIeeeAddrCompress g ieee
  match ieeeSearch g compressed with
  | some ref => lockResult lock (g.markClock ref) (.ok ref)
  | none =>
      if create then
        let (g, ret) ← addrAdd g (some compressed) unknownShort
        lockResult lock g ret
      else some (g, .error .notFound)

def zbAddressByShort (g : AddrGlobals) (shortAddress : ℕ) (create lock : Bool) :
    Option (AddrGlobals × Except RetError ℕ) := do
  match shortSearch g shortAddress with
  | some ref => lockResult lock (g.markClock ref) (.ok ref)
  | none =>
      if create then
        let (g, ret) ← addrAdd g none shortAddress
        lockResult lock g ret
      else some (g, .error .notFound)

def updateTarget (g : AddrGlobals) : Option ℕ → Option ℕ → Option (AddrGlobals × Option ℕ)
  | some ref, some refLong =>
      if ref ≠ refLong then
        if (g.addrMap ref).lockCnt = 0 then some (zbAddressDelete g ref, some refLong)
        else if (g.addrMap refLong).lockCnt = 0 then
          some (zbAddressDelete g refLong, some ref)
        else none
      else some (g, some ref)
  | none, some refLong => some (g, some refLong)
  | some ref, none => some (g, some ref)
  | none, none => some (g, none)

/-- The part of `zb_address_update` which moves an entry in the sorted index
to its new short address. -/
def updateSorted (g : AddrGlobals) (ref shortAddress : ℕ) :
    Option AddrGlobals :=
  if (g.addrMap ref).addr ≠ shortAddress then
    let g := if (g.addrMap ref).addr ≠ unknownShort then delShortSorted g ref else g
    let g := g.setEntry ref { g.addrMap ref with addr := shortAddress }
    addShortSorted g ref shortAddress
  else some g

/-- The second part of `zb_address_update`: write both addresses into an
entry. -/
def updateEntry (g : AddrGlobals) (ref : ℕ) (compressed : IeeeAddrCompressed)
    (shortAddress : ℕ) :
    Option AddrGlobals := do
  let g := g.setEntry ref { g.addrMap ref with ieeeAddr := compressed }
  let g ← updateSorted g ref shortAddress
  some (g.markClock ref)

def zbAddressUpdate (g : AddrGlobals) (ieeeAddress : IeeeAddr) (shortAddress : ℕ)
    (lock : Bool) :
    Option (AddrGlobals × Except RetError ℕ) := do
  let (g, compressed) ← zbIeeeAddrCompress g ieeeAddress
  let (g, target) ←
    updateTarget g (shortSearch g shortAddress) (ieeeSearch g compressed)
  match target with
  | some ref =>
      let g ← updateEntry g ref compressed shortAddress
      lockResult lock g (.ok ref)
  | none =>
      let (g, ret) ← addrAdd g (some compressed) shortAddress
      lockResult lock g ret

end Zboss
