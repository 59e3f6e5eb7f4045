import Zboss.AddressTranslation
import Zboss.BoundedMemory

/-!
# Headers of network frames

The MAC header with its parser and its writer (`zb_parse_mhr`,
`zb_mac_fill_mhr`), the size of a network header and its auxiliary security
header.  Multi-byte fields are little-endian, as on the air.
-/

namespace Zboss

open Option

def letoh16 (byte0 byte1 : UInt8) : ℕ := byte0.toNat + 256 * byte1.toNat

def htole16 (val : ℕ) : List UInt8 := [UInt8.ofNat val, UInt8.ofNat (val / 256)]

def letoh32 (byte0 byte1 byte2 byte3 : UInt8) : UInt32 :=
  UInt32.ofNat (byte0.toNat + 256 * byte1.toNat + 65536 * byte2.toNat +
      16777216 * byte3.toNat)

def htole32 (val : UInt32) : List UInt8 :=
  [UInt8.ofNat val.toNat, UInt8.ofNat (val.toNat / 256),
    UInt8.ofNat (val.toNat / 65536), UInt8.ofNat (val.toNat / 16777216)]

def IeeeAddr.toBytes (address : IeeeAddr) : List UInt8 :=
  [address.deviceManufacturer.byte0, address.deviceManufacturer.byte1,
    address.deviceManufacturer.byte2, address.deviceId.byte0,
    address.deviceId.byte1, address.deviceId.byte2, address.deviceId.byte3,
    address.deviceId.byte4]

theorem htole16_letoh16 (byte0 byte1 : UInt8) :
    htole16 (letoh16 byte0 byte1) = [byte0, byte1] := by
  have hlow : UInt8.ofNat (byte0.toNat + 256 * byte1.toNat) = byte0 := by
    apply UInt8.toNat_inj.mp
    simp
  have hhigh : UInt8.ofNat ((byte0.toNat + 256 * byte1.toNat) / 256) =
      byte1 := by
    apply UInt8.toNat_inj.mp
    have hlt := byte0.toNat_lt
    have hlt' := byte1.toNat_lt
    simp only [UInt8.toNat_ofNat']
    omega
  rw [htole16, letoh16, hlow, hhigh]

theorem letoh32_htole32 (val : UInt32) :
    letoh32 (UInt8.ofNat val.toNat) (UInt8.ofNat (val.toNat / 256))
        (UInt8.ofNat (val.toNat / 65536))
        (UInt8.ofNat (val.toNat / 16777216)) = val := by
  apply UInt32.toNat_inj.mp
  have hlt := val.toNat_lt
  simp only [letoh32, UInt32.toNat_ofNat', UInt8.toNat_ofNat']
  omega

def nwkIsAddressBroadcast (addr : ℕ) : Bool := addr &&& 0xFFF0 = 0xFFF0

/-! ## The MAC header -/

/-- `zb_addr_u`: eight bytes, of which a short address uses the first two. -/
abbrev AddrU := IeeeAddr

def AddrU.addrShort (address : AddrU) : ℕ :=
  letoh16 address.deviceManufacturer.byte0 address.deviceManufacturer.byte1

def addr16BitDevOrBroadcast : UInt8 := 2

structure MacMhr where
  frameControl0 : UInt8
  frameControl1 : UInt8
  seqNumber : UInt8
  dstPanId : ℕ
  dstAddr : AddrU
  srcPanId : ℕ
  srcAddr : AddrU
  deriving DecidableEq

def MacMhr.srcAddressingMode (mhr : MacMhr) : UInt8 :=
  (mhr.frameControl1 &&& 0xC0) >>> 6

def MacMhr.dstAddressingMode (mhr : MacMhr) : UInt8 :=
  (mhr.frameControl1 &&& 0x0C) >>> 2

/-- `ZB_FCF_GET_PANID_COMPRESSION_BIT` -/
def MacMhr.panidCompression (mhr : MacMhr) : Bool :=
  mhr.frameControl0 &&& 0x40 ≠ 0

def getNextLetoh16 : List UInt8 → Option (ℕ × List UInt8)
  | byte0 :: byte1 :: ptr => some (letoh16 byte0 byte1, ptr)
  | _ => none

def getNextAddr (mode : UInt8) : List UInt8 → Option (AddrU × List UInt8)
  | byte0 :: byte1 :: ptr =>
      if mode = addr16BitDevOrBroadcast then some (⟨⟨byte0, byte1, 0⟩, .zero⟩, ptr)
      else
        match ptr with
        | byte2 :: byte3 :: byte4 :: byte5 :: byte6 :: byte7 :: ptr =>
            some (⟨⟨byte0, byte1, byte2⟩, ⟨byte3, byte4, byte5, byte6, byte7⟩⟩, ptr)
        | _ => none
  | _ => none

def parseDst (mhr : MacMhr) (ptr : List UInt8) :
    Option (MacMhr × List UInt8) :=
  if mhr.dstAddressingMode ≠ 0 then do
    let (dstPanId, ptr) ← getNextLetoh16 ptr
    let (dstAddr, ptr) ← getNextAddr mhr.dstAddressingMode ptr
    some ({ mhr with dstPanId := dstPanId, dstAddr := dstAddr }, ptr)
  else some (mhr, ptr)

def parseSrcPanId (mhr : MacMhr) (ptr : List UInt8) :
    Option (ℕ × List UInt8) :=
  if !mhr.panidCompression then getNextLetoh16 ptr
  else some (mhr.dstPanId, ptr)

def parseSrc (mhr : MacMhr) (ptr : List UInt8) :
    Option (MacMhr × List UInt8) :=
  if mhr.srcAddressingMode ≠ 0 then do
    let (srcPanId, ptr) ← parseSrcPanId mhr ptr
    let (srcAddr, ptr) ← getNextAddr mhr.srcAddressingMode ptr
    some ({ mhr with srcPanId := srcPanId, srcAddr := srcAddr }, ptr)
  else some (mhr, ptr)

/-- `zb_parse_mhr`, with the bytes behind the header in place of its length. -/
def zbParseMhr : List UInt8 → Option (MacMhr × List UInt8)
  | frameControl0 :: frameControl1 :: seqNumber :: ptr => do
      let mhr : MacMhr := ⟨frameControl0, frameControl1, seqNumber, 0, .zero, 0, .zero⟩
      let (mhr, ptr) ← parseDst mhr ptr
      parseSrc mhr ptr
  | _ => none

def addrBytes (mode : UInt8) (address : AddrU) : List UInt8 :=
  if mode = addr16BitDevOrBroadcast then htole16 address.addrShort
  else address.toBytes

def fillDst (mhr : MacMhr) : List UInt8 :=
  if mhr.dstAddressingMode ≠ 0 then
    htole16 mhr.dstPanId ++ addrBytes mhr.dstAddressingMode mhr.dstAddr
  else []

def fillSrc (mhr : MacMhr) : List UInt8 :=
  if mhr.srcAddressingMode ≠ 0 then
    (if !mhr.panidCompression then htole16 mhr.srcPanId else []) ++
      addrBytes mhr.srcAddressingMode mhr.srcAddr
  else []

def zbMacFillMhr (mhr : MacMhr) : List UInt8 :=
  mhr.frameControl0 :: mhr.frameControl1 :: mhr.seqNumber :: (fillDst mhr ++ fillSrc mhr)

theorem getNextLetoh16_eq_some {bytes rest : List UInt8} {val : ℕ}
    (hnext : getNextLetoh16 bytes = some (val, rest)) :
    bytes = htole16 val ++ rest := by
  match bytes, hnext with
  | byte0 :: byte1 :: ptr, hnext =>
    simp only [getNextLetoh16, some.injEq, Prod.mk.injEq] at hnext
    rw [← hnext.1, ← hnext.2, htole16_letoh16]
    rfl

theorem getNextAddr_eq_some {mode : UInt8} {bytes rest : List UInt8} {address : AddrU}
    (hnext : getNextAddr mode bytes = some (address, rest)) :
    bytes = addrBytes mode address ++ rest := by
  unfold getNextAddr at hnext
  unfold addrBytes
  split at hnext
  · split at hnext
    · rename_i hmode
      simp only [some.injEq, Prod.mk.injEq] at hnext
      rw [if_pos hmode, ← hnext.1, ← hnext.2, AddrU.addrShort, htole16_letoh16]
      rfl
    · rename_i hmode
      split at hnext
      · simp only [some.injEq, Prod.mk.injEq] at hnext
        rw [if_neg hmode, ← hnext.1, ← hnext.2]
        rfl
      · contradiction
  · contradiction

theorem parseDst_eq_some {mhr mhr' : MacMhr} {ptr rest : List UInt8}
    (hparse : parseDst mhr ptr = some (mhr', rest)) :
    mhr'.frameControl0 = mhr.frameControl0 ∧ mhr'.frameControl1 = mhr.frameControl1 ∧
      mhr'.seqNumber = mhr.seqNumber ∧ ptr = fillDst mhr' ++ rest := by
  unfold parseDst at hparse
  split at hparse
  · rename_i hmode
    obtain ⟨⟨pan, ptr₁⟩, hpan, hrest⟩ := bind_eq_some_iff.mp hparse
    obtain ⟨⟨addr, ptr₂⟩, haddr, hlast⟩ := bind_eq_some_iff.mp hrest
    simp only [some.injEq, Prod.mk.injEq] at hlast
    obtain ⟨rfl, rfl⟩ := hlast
    refine ⟨rfl, rfl, rfl, ?_⟩
    change ptr = (if mhr.dstAddressingMode ≠ 0 then
        htole16 pan ++ addrBytes mhr.dstAddressingMode addr else []) ++ ptr₂
    rw [if_pos hmode, List.append_assoc, getNextLetoh16_eq_some hpan,
      getNextAddr_eq_some haddr]
  · rename_i hmode
    simp only [some.injEq, Prod.mk.injEq] at hparse
    obtain ⟨rfl, rfl⟩ := hparse
    refine ⟨rfl, rfl, rfl, ?_⟩
    rw [fillDst, if_neg hmode, List.nil_append]

theorem parseSrc_eq_some {mhr mhr' : MacMhr} {ptr rest : List UInt8}
    (hparse : parseSrc mhr ptr = some (mhr', rest)) :
    mhr'.frameControl0 = mhr.frameControl0 ∧ mhr'.frameControl1 = mhr.frameControl1 ∧
      mhr'.seqNumber = mhr.seqNumber ∧ fillDst mhr' = fillDst mhr ∧
      ptr = fillSrc mhr' ++ rest := by
  unfold parseSrc at hparse
  split at hparse
  · rename_i hmode
    obtain ⟨⟨pan, ptr₁⟩, hpan, hrest⟩ := bind_eq_some_iff.mp hparse
    obtain ⟨⟨addr, ptr₂⟩, haddr, hlast⟩ := bind_eq_some_iff.mp hrest
    simp only [some.injEq, Prod.mk.injEq] at hlast
    obtain ⟨rfl, rfl⟩ := hlast
    refine ⟨rfl, rfl, rfl, rfl, ?_⟩
    have hpanBytes : ptr =
        (if !mhr.panidCompression then htole16 pan else []) ++ ptr₁ := by
      unfold parseSrcPanId at hpan
      split at hpan
      · rename_i hbit
        rw [if_pos hbit]
        exact getNextLetoh16_eq_some hpan
      · rename_i hbit
        simp only [some.injEq, Prod.mk.injEq] at hpan
        rw [if_neg hbit, hpan.2, List.nil_append]
    change ptr = (if mhr.srcAddressingMode ≠ 0 then
        (if !mhr.panidCompression then htole16 pan else []) ++
          addrBytes mhr.srcAddressingMode addr else []) ++ ptr₂
    rw [if_pos hmode, List.append_assoc, hpanBytes, getNextAddr_eq_some haddr]
  · rename_i hmode
    simp only [some.injEq, Prod.mk.injEq] at hparse
    obtain ⟨rfl, rfl⟩ := hparse
    refine ⟨rfl, rfl, rfl, rfl, ?_⟩
    rw [fillSrc, if_neg hmode, List.nil_append]

theorem zbMacFillMhr_of_parse {bytes rest : List UInt8} {mhr : MacMhr}
    (hparse : zbParseMhr bytes = some (mhr, rest)) :
    bytes = zbMacFillMhr mhr ++ rest := by
  match bytes, hparse with
  | frameControl0 :: frameControl1 :: seqNumber :: ptr, hparse =>
    unfold zbParseMhr at hparse
    obtain ⟨⟨mhr₁, ptr₁⟩, hdst, hsrc⟩ := bind_eq_some_iff.mp hparse
    obtain ⟨hfc0, hfc1, hseq, hdstBytes⟩ := parseDst_eq_some hdst
    obtain ⟨hfc0', hfc1', hseq', hkept, hsrcBytes⟩ := parseSrc_eq_some hsrc
    dsimp only at hfc0 hfc1 hseq
    rw [zbMacFillMhr, hfc0', hfc1', hseq', hfc0, hfc1, hseq, hkept, hdstBytes, hsrcBytes]
    simp

/-- `zb_nwk_hdr_size`, from the second byte of the frame control: short
header, multicast control, auxiliary header and long addresses. -/
def zbNwkHdrSize (fctl : UInt8) : ℕ :=
  8 + (fctl &&& 1).toNat + (if (fctl >>> 1) &&& 1 ≠ 0 then 14 else 0) +
    (((fctl >>> 3) &&& 1).toNat + ((fctl >>> 4) &&& 1).toNat) * 8

/-- `ZB_NWK_FRAMECTL_GET_SECURITY` -/
def nwkSecurity (fctl : UInt8) : Bool := (fctl >>> 1) &&& 1 ≠ 0

theorem le_zbNwkHdrSize {fctl : UInt8} (hsecurity : nwkSecurity fctl = true) :
    22 ≤ zbNwkHdrSize fctl := by
  simp only [nwkSecurity, decide_eq_true_eq] at hsecurity
  rw [zbNwkHdrSize, if_pos hsecurity]
  omega

structure NwkAuxFrameHdr where
  securControl : UInt8
  frameCounter : UInt32
  sourceAddress : IeeeAddr
  keySeqNumber : UInt8

/-- `sizeof(zb_nwk_aux_frame_hdr_t)` -/
def auxFrameHdrSize : ℕ := 14

def nwkStdSecurControl : UInt8 := 0x2D

def nwkStdSecurControlZeroedLevel : UInt8 := 0x28

def NwkAuxFrameHdr.toBytes (aux : NwkAuxFrameHdr) : List UInt8 :=
  aux.securControl :: (htole32 aux.frameCounter ++ (aux.sourceAddress.toBytes ++
      [aux.keySeqNumber]))

def NwkAuxFrameHdr.ofBytes : List UInt8 → Option NwkAuxFrameHdr
  | [securControl, c0, c1, c2, c3, a0, a1, a2, a3, a4, a5, a6, a7, keySeqNumber] =>
      some
        { securControl := securControl
          frameCounter := letoh32 c0 c1 c2 c3
          sourceAddress := ⟨⟨a0, a1, a2⟩, ⟨a3, a4, a5, a6, a7⟩⟩
          keySeqNumber := keySeqNumber }
  | _ => none

theorem length_toBytes (aux : NwkAuxFrameHdr) : aux.toBytes.length = auxFrameHdrSize := rfl

theorem ofBytes_toBytes (aux : NwkAuxFrameHdr) :
    NwkAuxFrameHdr.ofBytes aux.toBytes = some aux := by
  have hcounter := letoh32_htole32 aux.frameCounter
  simp only [NwkAuxFrameHdr.ofBytes, NwkAuxFrameHdr.toBytes, htole32,
    IeeeAddr.toBytes, List.cons_append, List.nil_append, hcounter]

def loadAux {size : ℕ} (mem : Vector UInt8 size) (aux : ℕ) :
    Option NwkAuxFrameHdr :=
  (BoundedMemory.load mem aux auxFrameHdrSize).bind NwkAuxFrameHdr.ofBytes

end Zboss
