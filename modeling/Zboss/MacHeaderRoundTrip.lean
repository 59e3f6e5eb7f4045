import Zboss.FrontReaders
import Zboss.NwkFrame

/-!
# Round trip of MAC headers

The length of a MAC header, its writer and its parser agree on every
combination of legal addressing modes.
-/

namespace Zboss

open Option List MacMhr

def addr64BitDev : UInt8 := 3

/-- The bytes of an address which is there; `none` is the assertion. -/
def mhrAddrLength (mode : UInt8) : Option ℕ :=
  if mode = addr16BitDevOrBroadcast ∨ mode = addr64BitDev then
    some (2 + if mode = addr64BitDev then 6 else 0)
  else none

def zbMacCalculateMhrLength
    (srcAddrMode dstAddrMode : UInt8) (panidCompression : Bool) : Option ℕ := do
  let len := 3
  let len ←
    if srcAddrMode ≠ 0 then do
      let addr ← mhrAddrLength srcAddrMode
      some (len + (if !panidCompression then 2 else 0) + addr)
    else some len
  if dstAddrMode ≠ 0 then do
    let addr ← mhrAddrLength dstAddrMode
    some (len + 2 + addr)
  else some len

def LegalAddrMode (mode : UInt8) : Prop :=
  mode = 0 ∨ mode = addr16BitDevOrBroadcast ∨ mode = addr64BitDev

structure MacMhr.Legal (mhr : MacMhr) : Prop where
  dstMode : LegalAddrMode mhr.dstAddressingMode
  srcMode : LegalAddrMode mhr.srcAddressingMode
  dstPanId : mhr.dstPanId < 2 ^ 16
  srcPanId : mhr.srcPanId < 2 ^ 16

def AddrU.SameFor (mode : UInt8) (address other : AddrU) : Prop :=
  if mode = addr16BitDevOrBroadcast then address.addrShort = other.addrShort
  else address = other

structure MacMhr.Carries (parsed mhr : MacMhr) : Prop where
  frameControl : parsed.frameControl0 = mhr.frameControl0 ∧
    parsed.frameControl1 = mhr.frameControl1
  seqNumber : parsed.seqNumber = mhr.seqNumber
  dstPanId : mhr.dstAddressingMode ≠ 0 → parsed.dstPanId = mhr.dstPanId
  dstAddr : mhr.dstAddressingMode ≠ 0 →
    AddrU.SameFor mhr.dstAddressingMode parsed.dstAddr mhr.dstAddr
  srcPanId : mhr.srcAddressingMode ≠ 0 → parsed.srcPanId =
      if mhr.panidCompression then parsed.dstPanId else mhr.srcPanId
  srcAddr : mhr.srcAddressingMode ≠ 0 →
    AddrU.SameFor mhr.srcAddressingMode parsed.srcAddr mhr.srcAddr

section Fields

variable {mode : UInt8} {address : AddrU}

theorem letoh16_htole16 {val : ℕ} (hval : val < 2 ^ 16) :
    letoh16 (UInt8.ofNat val) (UInt8.ofNat (val / 256)) = val := by
  rw [letoh16, UInt8.toNat_ofNat', UInt8.toNat_ofNat']
  omega

theorem takes_getNextLetoh16 {val : ℕ} (hval : val < 2 ^ 16) :
    FrontReader.Takes getNextLetoh16 (htole16 val) val := by
  intro rest
  rw [htole16, cons_append, cons_append, nil_append, getNextLetoh16, letoh16_htole16 hval]

def AddrU.read (mode : UInt8) (address : AddrU) : AddrU :=
  if mode = addr16BitDevOrBroadcast then
    ⟨⟨address.deviceManufacturer.byte0, address.deviceManufacturer.byte1, 0⟩, .zero⟩
  else address

theorem AddrU.sameFor_read (mode : UInt8) (address : AddrU) :
    AddrU.SameFor mode (address.read mode) address := by
  unfold AddrU.SameFor AddrU.read
  split
  · rfl
  · rfl

theorem takes_getNextAddr (mode : UInt8) (address : AddrU) :
    FrontReader.Takes (getNextAddr mode) (addrBytes mode address) (address.read mode) := by
  intro rest
  unfold addrBytes AddrU.read
  by_cases hmode : mode = addr16BitDevOrBroadcast
  · rw [if_pos hmode, if_pos hmode, AddrU.addrShort, htole16_letoh16]
    simp only [cons_append, nil_append]
    unfold getNextAddr
    exact if_pos hmode
  · rw [if_neg hmode, if_neg hmode]
    simp only [IeeeAddr.toBytes, cons_append, nil_append, getNextAddr, if_neg hmode]

theorem length_addrBytes
    (address : AddrU) (hlegal : LegalAddrMode mode) (hpresent : mode ≠ 0) :
    mhrAddrLength mode = some (addrBytes mode address).length := by
  rcases hlegal with rfl | rfl | rfl
  · contradiction
  · rfl
  · rfl

end Fields

section Headers

variable {mhr : MacMhr}

theorem zbMacCalculateMhrLength_eq (hlegal : mhr.Legal) :
    zbMacCalculateMhrLength mhr.srcAddressingMode mhr.dstAddressingMode
      mhr.panidCompression = some (zbMacFillMhr mhr).length := by
  have hpan : (if !mhr.panidCompression then htole16 mhr.srcPanId
      else []).length = if !mhr.panidCompression then 2 else 0 := by
    split <;> rfl
  have hdst : (fillDst mhr).length = if mhr.dstAddressingMode ≠ 0 then
      2 + (addrBytes mhr.dstAddressingMode mhr.dstAddr).length else 0 := by
    unfold fillDst
    split
    · exact length_append
    · rfl
  have hsrc : (fillSrc mhr).length = if mhr.srcAddressingMode ≠ 0 then
      (if !mhr.panidCompression then 2 else 0) +
        (addrBytes mhr.srcAddressingMode mhr.srcAddr).length else 0 := by
    unfold fillSrc
    split
    · rw [length_append, hpan]
    · rfl
  have hsum : (zbMacFillMhr mhr).length =
      3 + (fillSrc mhr).length + (fillDst mhr).length := by
    rw [zbMacFillMhr, length_cons, length_cons, length_cons, length_append]
    omega
  rw [hsum, hdst, hsrc, zbMacCalculateMhrLength]
  by_cases hs : mhr.srcAddressingMode ≠ 0
  · have hsrcLen := length_addrBytes mhr.srcAddr hlegal.srcMode hs
    by_cases hd : mhr.dstAddressingMode ≠ 0
    · have hdstLen := length_addrBytes mhr.dstAddr hlegal.dstMode hd
      simp only [if_pos hs, if_pos hd, hsrcLen, hdstLen, bind_eq_bind,
        bind_some, add_assoc]
    · simp only [if_pos hs, if_neg hd, hsrcLen, bind_eq_bind,
        bind_some, add_assoc, add_zero]
  · by_cases hd : mhr.dstAddressingMode ≠ 0
    · have hdstLen := length_addrBytes mhr.dstAddr hlegal.dstMode hd
      simp only [if_neg hs, if_pos hd, hdstLen, bind_eq_bind,
        bind_some, add_assoc, zero_add]
    · simp only [if_neg hs, if_neg hd]
      rfl

/-- The destination which is parsed where the one of `mhr` has been written. -/
def MacMhr.withDst (old mhr : MacMhr) : MacMhr :=
  if mhr.dstAddressingMode ≠ 0 then
    { old with
      dstPanId := mhr.dstPanId
      dstAddr := mhr.dstAddr.read mhr.dstAddressingMode }
  else old

/-- The source which is parsed where the one of `mhr` has been written. -/
def MacMhr.withSrc (old mhr : MacMhr) : MacMhr :=
  if mhr.srcAddressingMode ≠ 0 then
    { old with
      srcPanId := if mhr.panidCompression then old.dstPanId else mhr.srcPanId
      srcAddr := mhr.srcAddr.read mhr.srcAddressingMode }
  else old

theorem takes_parseDst (old : MacMhr) (hpan : mhr.dstPanId < 2 ^ 16)
    (hmode : old.dstAddressingMode = mhr.dstAddressingMode) :
    FrontReader.Takes (parseDst old) (fillDst mhr) (old.withDst mhr) := by
  intro rest
  unfold parseDst fillDst withDst
  rw [hmode]
  split
  · rw [append_assoc, takes_getNextLetoh16 hpan]
    simp only [bind_eq_bind, bind_some]
    rw [takes_getNextAddr mhr.dstAddressingMode mhr.dstAddr]
    rfl
  · rfl

theorem takes_parseSrc (old : MacMhr) (hpan : mhr.srcPanId < 2 ^ 16)
    (hmode : old.srcAddressingMode = mhr.srcAddressingMode)
    (hcompression : old.panidCompression = mhr.panidCompression) :
    FrontReader.Takes (parseSrc old) (fillSrc mhr) (old.withSrc mhr) := by
  intro rest
  have hsrcPan : FrontReader.Takes (parseSrcPanId old)
      (if !mhr.panidCompression then htole16 mhr.srcPanId else [])
      (if mhr.panidCompression then old.dstPanId else mhr.srcPanId) := by
    intro rest
    unfold parseSrcPanId
    rw [hcompression]
    cases mhr.panidCompression with
    | true => rfl
    | false => exact takes_getNextLetoh16 hpan rest
  unfold parseSrc fillSrc withSrc
  rw [hmode]
  split
  · rw [append_assoc, hsrcPan]
    simp only [bind_eq_bind, bind_some]
    rw [takes_getNextAddr mhr.srcAddressingMode mhr.srcAddr]
    rfl
  · rfl

def MacMhr.unaddressed (mhr : MacMhr) : MacMhr :=
  ⟨mhr.frameControl0, mhr.frameControl1, mhr.seqNumber, 0, .zero, 0, .zero⟩

def MacMhr.parsed (mhr : MacMhr) : MacMhr :=
  (mhr.unaddressed.withDst mhr).withSrc mhr

theorem MacMhr.withDst_front (old mhr : MacMhr) :
    (old.withDst mhr).frameControl0 = old.frameControl0 ∧
      (old.withDst mhr).frameControl1 = old.frameControl1 ∧
      (old.withDst mhr).seqNumber = old.seqNumber := by
  unfold withDst
  split <;> exact ⟨rfl, rfl, rfl⟩

theorem MacMhr.withSrc_front (old mhr : MacMhr) :
    (old.withSrc mhr).frameControl0 = old.frameControl0 ∧
      (old.withSrc mhr).frameControl1 = old.frameControl1 ∧
      (old.withSrc mhr).seqNumber = old.seqNumber ∧
      (old.withSrc mhr).dstPanId = old.dstPanId ∧
      (old.withSrc mhr).dstAddr = old.dstAddr := by
  unfold withSrc
  split <;> exact ⟨rfl, rfl, rfl, rfl, rfl⟩

theorem takes_zbParseMhr (hlegal : mhr.Legal) :
    FrontReader.Takes zbParseMhr (zbMacFillMhr mhr) mhr.parsed := by
  intro rest
  obtain ⟨hfc0, hfc1, -⟩ := mhr.unaddressed.withDst_front mhr
  have hdst := takes_parseDst mhr.unaddressed hlegal.dstPanId rfl (fillSrc mhr ++ rest)
  have hsrc := takes_parseSrc (mhr.unaddressed.withDst mhr) hlegal.srcPanId
    (by rw [srcAddressingMode, hfc1]; rfl)
    (by rw [panidCompression, hfc0]; rfl) rest
  rw [zbMacFillMhr, cons_append, cons_append, cons_append, append_assoc]
  change (parseDst mhr.unaddressed _).bind _ = _
  rw [hdst]
  exact hsrc

theorem MacMhr.parsed_carries (mhr : MacMhr) : mhr.parsed.Carries mhr := by
  obtain ⟨hfc0, hfc1, hseq⟩ := mhr.unaddressed.withDst_front mhr
  obtain ⟨hfc0', hfc1', hseq', hpan, haddr⟩ :=
    (mhr.unaddressed.withDst mhr).withSrc_front mhr
  constructor
  case frameControl => exact ⟨hfc0'.trans hfc0, hfc1'.trans hfc1⟩
  case seqNumber => exact hseq'.trans hseq
  case dstPanId =>
    intro hpresent
    refine hpan.trans ?_
    rw [withDst, if_pos hpresent]
  case dstAddr =>
    intro hpresent
    rw [parsed, haddr, withDst, if_pos hpresent]
    exact AddrU.sameFor_read _ _
  case srcPanId =>
    intro hpresent
    rw [parsed, hpan, withSrc, if_pos hpresent]
  case srcAddr =>
    intro hpresent
    rw [parsed, withSrc, if_pos hpresent]
    exact AddrU.sameFor_read _ _

end Headers

/-- The header which is written has the length which is calculated, and is
parsed as the header it was written from. -/
theorem mhr_roundTrips (mhr : MacMhr) (payload : List UInt8) (hlegal : mhr.Legal) :
    zbMacCalculateMhrLength mhr.srcAddressingMode mhr.dstAddressingMode
        mhr.panidCompression = some (zbMacFillMhr mhr).length ∧
      ∃ parsed, zbParseMhr (zbMacFillMhr mhr ++ payload) =
        some (parsed, payload) ∧ parsed.Carries mhr :=
  ⟨zbMacCalculateMhrLength_eq hlegal,
    mhr.parsed, takes_zbParseMhr hlegal payload, mhr.parsed_carries⟩

/-- An association request: a long source address, and one PAN identifier for
both addresses. -/
def associationMhr : MacMhr where
  frameControl0 := 0x63
  frameControl1 := 0xC8
  seqNumber := 7
  dstPanId := 0x1AAA
  dstAddr := ⟨⟨0, 0, 0⟩, .zero⟩
  srcPanId := 0x1AAA
  srcAddr := ⟨⟨1, 2, 3⟩, ⟨4, 5, 6, 7, 8⟩⟩

theorem mhr_roundTrips_association : zbMacCalculateMhrLength 3 2 true =
        some (zbMacFillMhr associationMhr).length ∧
      ∃ parsed, zbParseMhr (zbMacFillMhr associationMhr ++ [1, 0x8E]) =
        some (parsed, [1, 0x8E]) ∧ parsed.Carries associationMhr :=
  mhr_roundTrips associationMhr [1, 0x8E]
    ⟨.inr (.inl rfl), .inr (.inr rfl), by decide, by decide⟩

end Zboss
