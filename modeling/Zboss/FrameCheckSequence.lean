import Zboss.BufferGeometry
import Zboss.CyclicCode
import Zboss.NwkFrame

/-!
# The frame check sequence

`zb_mac_fcs_add` computes the CRC of IEEE 802.15.4 byte by byte with a table.
-/

namespace Zboss

open BoundedMemory CyclicCode List

/-- `table` -/
def fcsTable : List (BitVec 16) :=
  [ 0x0000, 0x1189, 0x2312, 0x329B, 0x4624, 0x57AD, 0x6536, 0x74BF,
    0x8C48, 0x9DC1, 0xAF5A, 0xBED3, 0xCA6C, 0xDBE5, 0xE97E, 0xF8F7,
    0x1081, 0x0108, 0x3393, 0x221A, 0x56A5, 0x472C, 0x75B7, 0x643E,
    0x9CC9, 0x8D40, 0xBFDB, 0xAE52, 0xDAED, 0xCB64, 0xF9FF, 0xE876,
    0x2102, 0x308B, 0x0210, 0x1399, 0x6726, 0x76AF, 0x4434, 0x55BD,
    0xAD4A, 0xBCC3, 0x8E58, 0x9FD1, 0xEB6E, 0xFAE7, 0xC87C, 0xD9F5,
    0x3183, 0x200A, 0x1291, 0x0318, 0x77A7, 0x662E, 0x54B5, 0x453C,
    0xBDCB, 0xAC42, 0x9ED9, 0x8F50, 0xFBEF, 0xEA66, 0xD8FD, 0xC974,
    0x4204, 0x538D, 0x6116, 0x709F, 0x0420, 0x15A9, 0x2732, 0x36BB,
    0xCE4C, 0xDFC5, 0xED5E, 0xFCD7, 0x8868, 0x99E1, 0xAB7A, 0xBAF3,
    0x5285, 0x430C, 0x7197, 0x601E, 0x14A1, 0x0528, 0x37B3, 0x263A,
    0xDECD, 0xCF44, 0xFDDF, 0xEC56, 0x98E9, 0x8960, 0xBBFB, 0xAA72,
    0x6306, 0x728F, 0x4014, 0x519D, 0x2522, 0x34AB, 0x0630, 0x17B9,
    0xEF4E, 0xFEC7, 0xCC5C, 0xDDD5, 0xA96A, 0xB8E3, 0x8A78, 0x9BF1,
    0x7387, 0x620E, 0x5095, 0x411C, 0x35A3, 0x242A, 0x16B1, 0x0738,
    0xFFCF, 0xEE46, 0xDCDD, 0xCD54, 0xB9EB, 0xA862, 0x9AF9, 0x8B70,
    0x8408, 0x9581, 0xA71A, 0xB693, 0xC22C, 0xD3A5, 0xE13E, 0xF0B7,
    0x0840, 0x19C9, 0x2B52, 0x3ADB, 0x4E64, 0x5FED, 0x6D76, 0x7CFF,
    0x9489, 0x8500, 0xB79B, 0xA612, 0xD2AD, 0xC324, 0xF1BF, 0xE036,
    0x18C1, 0x0948, 0x3BD3, 0x2A5A, 0x5EE5, 0x4F6C, 0x7DF7, 0x6C7E,
    0xA50A, 0xB483, 0x8618, 0x9791, 0xE32E, 0xF2A7, 0xC03C, 0xD1B5,
    0x2942, 0x38CB, 0x0A50, 0x1BD9, 0x6F66, 0x7EEF, 0x4C74, 0x5DFD,
    0xB58B, 0xA402, 0x9699, 0x8710, 0xF3AF, 0xE226, 0xD0BD, 0xC134,
    0x39C3, 0x284A, 0x1AD1, 0x0B58, 0x7FE7, 0x6E6E, 0x5CF5, 0x4D7C,
    0xC60C, 0xD785, 0xE51E, 0xF497, 0x8028, 0x91A1, 0xA33A, 0xB2B3,
    0x4A44, 0x5BCD, 0x6956, 0x78DF, 0x0C60, 0x1DE9, 0x2F72, 0x3EFB,
    0xD68D, 0xC704, 0xF59F, 0xE416, 0x90A9, 0x8120, 0xB3BB, 0xA232,
    0x5AC5, 0x4B4C, 0x79D7, 0x685E, 0x1CE1, 0x0D68, 0x3FF3, 0x2E7A,
    0xE70E, 0xF687, 0xC41C, 0xD595, 0xA12A, 0xB0A3, 0x8238, 0x93B1,
    0x6B46, 0x7ACF, 0x4854, 0x59DD, 0x2D62, 0x3CEB, 0x0E70, 0x1FF9,
    0xF78F, 0xE606, 0xD49D, 0xC514, 0xB1AB, 0xA022, 0x92B9, 0x8330,
    0x7BC7, 0x6A4E, 0x58D5, 0x495C, 0x3DE3, 0x2C6A, 0x1EF1, 0x0F78
  ]

def fcsByte (crc : BitVec 16) (byte : UInt8) : BitVec 16 :=
  fcsTable.getD ((crc ^^^ byte.toBitVec.setWidth 16) &&& 0xff).toNat 0 ^^^ (crc >>> 8)

def zbMacFcsAdd (zbbuf : Buf) : Option Buf := do
  let bytes ← load zbbuf.buf zbbuf.dataOffset.toNat zbbuf.len.toNat
  let crc := bytes.foldl fcsByte 0
  let (zbbuf, p) ← zbBufSmartAllocRight zbbuf 2
  zbbuf.store p (htole16 crc.toNat)

/-- `x^16 + x^12 + x^5 + 1` without its highest term -/
def fcsPolynomial : BitVec 16 := 0x8408

def lowBitsFirst (byte : UInt8) : List Bool :=
  (List.range 8).map byte.toBitVec.getLsbD

def ituCrc (bytes : List UInt8) : BitVec 16 :=
  remainder fcsPolynomial 0#16 (bytes.flatMap lowBitsFirst)

def wrongBits (sent received : List UInt8) : ℕ :=
  ((sent.flatMap lowBitsFirst).zipWith xor (received.flatMap lowBitsFirst)).count true

theorem fcsTable_getD (byte : BitVec 8) : fcsTable.getD byte.toNat 0 =
      (shift fcsPolynomial)^[8] (byte.setWidth 16) := by
  have hall : ∀ i < 256, fcsTable.getD i 0 =
      (shift fcsPolynomial)^[8] ((BitVec.ofNat 8 i).setWidth 16) := by
    decide +kernel
  have hbyte := hall byte.toNat byte.isLt
  rwa [BitVec.ofNat_toNat, BitVec.setWidth_eq] at hbyte

theorem remainder_bitsOf (byte : UInt8) :
    remainder fcsPolynomial 0#16 (lowBitsFirst byte) =
      (shift fcsPolynomial)^[8] (byte.toBitVec.setWidth 16) := by
  have hall : ∀ i < 256, remainder fcsPolynomial 0#16 (lowBitsFirst (.ofNat i)) =
      (shift fcsPolynomial)^[8] ((UInt8.ofNat i).toBitVec.setWidth 16) := by
    decide +kernel
  have hbyte := hall byte.toNat byte.toNat_lt
  rwa [UInt8.ofNat_toNat] at hbyte

theorem shift_high (byte : BitVec 8) :
    (shift fcsPolynomial)^[8] (byte.setWidth 16 <<< 8) = byte.setWidth 16 := by
  have hall : ∀ i < 256, (shift fcsPolynomial)^[8] ((BitVec.ofNat 8 i).setWidth 16 <<< 8) =
        (BitVec.ofNat 8 i).setWidth 16 := by
    decide +kernel
  have hbyte := hall byte.toNat byte.isLt
  rwa [BitVec.ofNat_toNat, BitVec.setWidth_eq] at hbyte

theorem xor_byte (crc : BitVec 16) (byte : BitVec 8) :
    crc ^^^ byte.setWidth 16 = ((crc >>> 8).setWidth 8).setWidth 16 <<< 8 ^^^
        (crc.setWidth 8 ^^^ byte).setWidth 16 := by
  apply BitVec.eq_of_getLsbD_eq
  intro i hi
  simp only [BitVec.getLsbD_xor, BitVec.getLsbD_setWidth, BitVec.getLsbD_shiftLeft,
    BitVec.getLsbD_ushiftRight]
  by_cases hlow : i < 8
  · simp [hlow, hi]
  · have hbyte : byte.getLsbD i = false := BitVec.getLsbD_of_ge _ _ (by omega)
    have hback : 8 + (i - 8) = i := by omega
    have hhigh : i - 8 < 8 := by omega
    simp [hlow, hi, hbyte, hback, hhigh, Nat.lt_of_lt_of_le hhigh]

theorem low_xor_byte (crc : BitVec 16) (byte : BitVec 8) :
    ((crc ^^^ byte.setWidth 16) &&& 0xff).toNat = (crc.setWidth 8 ^^^ byte).toNat := by
  have hmask : (crc ^^^ byte.setWidth 16) &&& (BitVec.allOnes 8).setWidth 16 =
      (crc.setWidth 8 ^^^ byte).setWidth 16 := by
    apply BitVec.eq_of_getLsbD_eq
    intro i hi
    simp only [BitVec.getLsbD_and, BitVec.getLsbD_xor, BitVec.getLsbD_setWidth,
      BitVec.getLsbD_allOnes]
    by_cases hlow : i < 8
    · simp [hlow, hi]
    · simp [hlow, BitVec.getLsbD_of_ge byte i (by omega)]
  rw [show (0xff : BitVec 16) = (BitVec.allOnes 8).setWidth 16 from rfl, hmask,
    BitVec.toNat_setWidth]
  exact Nat.mod_eq_of_lt (by omega)

theorem high_byte (crc : BitVec 16) :
    ((crc >>> 8).setWidth 8).setWidth 16 = crc >>> 8 := by
  apply BitVec.eq_of_getLsbD_eq
  intro i hi
  simp only [BitVec.getLsbD_setWidth, BitVec.getLsbD_ushiftRight]
  by_cases hlow : i < 8
  · simp [hlow, hi]
  · have hout : crc.getLsbD (8 + i) = false :=
      BitVec.getLsbD_of_ge _ _ (by omega)
    simp [hlow, hout]

/-- The recurrence of the table is eight steps of the register. -/
theorem fcsByte_eq (crc : BitVec 16) (byte : UInt8) :
    fcsByte crc byte = remainder fcsPolynomial crc (lowBitsFirst byte) := by
  have hlength : (lowBitsFirst byte).length = 8 := rfl
  rw [remainder_split, hlength, remainder_bitsOf, ← iterate_shift_xor, xor_byte,
    iterate_shift_xor, shift_high, high_byte, fcsByte, low_xor_byte,
    fcsTable_getD, BitVec.xor_comm]

theorem foldl_fcsByte (crc : BitVec 16) (bytes : List UInt8) : bytes.foldl fcsByte crc =
      remainder fcsPolynomial crc (bytes.flatMap lowBitsFirst) := by
  induction bytes generalizing crc with
  | nil => rfl
  | cons byte rest ih =>
    rw [foldl_cons, ih, fcsByte_eq, flatMap_cons, remainder,
      remainder, remainder, foldl_append]

theorem length_flatMap_bitsOf (bytes : List UInt8) :
    (bytes.flatMap lowBitsFirst).length = 8 * bytes.length := by
  induction bytes with
  | nil => rfl
  | cons byte rest ih =>
    have hbyte : (lowBitsFirst byte).length = 8 := rfl
    rw [flatMap_cons, length_append, ih, hbyte, length_cons]
    omega

theorem fcsByte_low {crc : BitVec 16} (byte : UInt8)
    (hbyte : byte.toBitVec = crc.setWidth 8) :
    fcsByte crc byte = crc >>> 8 := by
  rw [fcsByte, low_xor_byte, hbyte, BitVec.xor_self]
  exact BitVec.zero_xor

/-- The register is empty after its own two bytes, the lower one first. -/
theorem ituCrc_append_htole16 (bytes : List UInt8) :
    ituCrc (bytes ++ htole16 (ituCrc bytes).toNat) = 0 := by
  have hcrc : ∀ bytes, ituCrc bytes = bytes.foldl fcsByte 0 :=
    fun bytes => (foldl_fcsByte 0 bytes).symm
  rw [hcrc (bytes ++ _), foldl_append, ← hcrc]
  generalize ituCrc bytes = crc
  have hlow : BitVec.ofNat 8 crc.toNat = crc.setWidth 8 := by rw [BitVec.ofNat_toNat]
  have hhigh : BitVec.ofNat 8 (crc.toNat / 256) = (crc >>> 8).setWidth 8 := by
    rw [← BitVec.ofNat_toNat, BitVec.toNat_ushiftRight, Nat.shiftRight_eq_div_pow]
  have hsecond : crc >>> 8 >>> 8 = 0 := by
    rw [← BitVec.shiftRight_add]
    exact BitVec.ushiftRight_eq_zero (Nat.le_refl 16)
  rw [htole16, foldl_cons, foldl_cons, foldl_nil, fcsByte_low (.ofNat crc.toNat) hlow,
    fcsByte_low (.ofNat (crc.toNat / 256)) hhigh, hsecond]

theorem remainder_wrongBits {sent received : List UInt8} (hsent : ituCrc sent = 0)
    (hlength : received.length = sent.length) : remainder fcsPolynomial 0#16
      ((sent.flatMap lowBitsFirst).zipWith xor (received.flatMap lowBitsFirst)) =
        ituCrc received := by
  have hbits : (sent.flatMap lowBitsFirst).length =
      (received.flatMap lowBitsFirst).length := by
    rw [length_flatMap_bitsOf, length_flatMap_bitsOf, hlength]
  have hxor := @remainder_xor 16 fcsPolynomial 0#16 0#16 _ _ hbits
  rw [BitVec.xor_zero] at hxor
  rw [hxor]
  exact (congrArg (· ^^^ ituCrc received) hsent).trans BitVec.zero_xor

theorem ituCrc_ne_zero {sent received : List UInt8} (hsent : ituCrc sent = 0)
    (hlength : received.length = sent.length) (hmax : sent.length ≤ 127)
    (hwrong : wrongBits sent received = 1 ∨ wrongBits sent received = 2) :
    ituCrc received ≠ 0 := by
  rw [← remainder_wrongBits hsent hlength]
  refine remainder_ne_zero rfl (by decide) (fun n hn hpos => ?_) hwrong
  rw [length_zipWith, length_flatMap_bitsOf, length_flatMap_bitsOf] at hn
  have havoids : avoids fcsPolynomial (unit true) 1015
      (shift fcsPolynomial (unit true)) = true := by
    decide +kernel
  obtain ⟨k, rfl⟩ := Nat.exists_eq_add_of_le' hpos
  rw [Function.iterate_succ_apply]
  exact iterate_ne_of_avoids havoids (by omega)

/-- A sequence with room for the FCS behind it is followed by its CRC; the frame
has the CRC zero, and loses it by one or two wrong bits. -/
theorem zbMacFcsAdd_conforms (zbbuf : Buf) (hassert : 2 + zbbuf.len.toNat < ioBufSize)
    (hroom : zbbuf.dataOffset.toNat + zbbuf.len.toNat + 2 ≤ ioBufSize) :
    ∃ next, zbMacFcsAdd zbbuf = some next ∧ next.content =
        zbbuf.content ++ htole16 (ituCrc zbbuf.content).toNat ∧
      ituCrc next.content = 0 ∧
      (next.content.length ≤ 127 → ∀ received : List UInt8,
        received.length = next.content.length → wrongBits next.content received = 1 ∨
            wrongBits next.content received = 2 →
          ituCrc received ≠ 0) := by
  have hload : load zbbuf.buf zbbuf.dataOffset.toNat zbbuf.len.toNat =
      some zbbuf.content := load_of_le (by omega)
  have hcrc := foldl_fcsByte 0 zbbuf.content
  have hlen : (zbbuf.len + 2).toNat = zbbuf.len.toNat + 2 := by
    rw [UInt8.toNat_add]
    simp only [ioBufSize] at hassert
    exact Nat.mod_eq_of_lt (by simp; omega)
  let grown : Buf := { zbbuf with len := zbbuf.len + 2 }
  have halloc : zbBufSmartAllocRight zbbuf 2 = some
      (grown, zbbuf.dataOffset.toNat + zbbuf.len.toNat) := if_pos hassert
  obtain ⟨next, hnext⟩ := @Buf.store_of_le grown (zbbuf.dataOffset.toNat + zbbuf.len.toNat)
    (htole16 (ituCrc zbbuf.content).toNat) hroom
  obtain ⟨hstore, hlength, hoffset, -⟩ := Buf.store_eq_some hnext
  have hcontent : next.content =
      zbbuf.content ++ htole16 (ituCrc zbbuf.content).toNat := by
    have hsame := window_store_same hstore
    rw [Buf.content, hlength, hoffset, show grown.len = zbbuf.len + 2 from rfl,
      hlen, window_add]
    exact congrArg₂ (· ++ ·) (window_store_disjoint hstore (.inl (Nat.le_refl _))) hsame
  have hzero : ituCrc next.content = 0 := by rw [hcontent, ituCrc_append_htole16]
  refine ⟨next, ?_, hcontent, hzero, fun hmax received hlength hwrong =>
    ituCrc_ne_zero hzero hlength hmax hwrong⟩
  rw [zbMacFcsAdd, hload]
  simp only [Option.bind_eq_bind, Option.bind_some, halloc, hcrc]
  exact hnext

def threeBytes : Buf := ⟨3, 1, 0, false, .ofFn fun i => .ofNat i⟩

theorem zbMacFcsAdd_conforms_threeBytes : ∃ next, zbMacFcsAdd threeBytes = some next ∧
      next.content = [1, 2, 3, 0xF7, 0x5B] := by
  obtain ⟨next, hnext, hcontent, -⟩ :=
    zbMacFcsAdd_conforms threeBytes (by decide) (by decide)
  exact ⟨next, hnext, hcontent.trans (by decide +kernel)⟩

theorem ituCrc_of_zbMacFcsAdd {zbbuf next : Buf}
    (hadd : zbMacFcsAdd zbbuf = some next) : ituCrc next.content = 0 := by
  obtain ⟨bytes, hload, hrest⟩ := Option.bind_eq_some_iff.mp hadd
  obtain ⟨⟨grown, p⟩, halloc, hstore⟩ := Option.bind_eq_some_iff.mp hrest
  obtain ⟨-, rfl⟩ := load_eq_some_iff.mp hload
  unfold zbBufSmartAllocRight at halloc
  split at halloc
  · rename_i hassert
    obtain ⟨rfl, rfl⟩ := Prod.mk.inj (Option.some.inj halloc)
    obtain ⟨hstored, hlen, hoffset, -⟩ := Buf.store_eq_some hstore
    have htotal : (zbbuf.len + 2).toNat = zbbuf.len.toNat + 2 := by
      rw [UInt8.toNat_add]
      simp only [ioBufSize] at hassert
      exact Nat.mod_eq_of_lt (by simp; omega)
    have hbefore := window_store_disjoint hstored (.inl (Nat.le_refl _))
    have hbehind := window_store_same hstored
    rw [Buf.content, hlen, hoffset, htotal, window_add,
      ← ituCrc_append_htole16 (window zbbuf.buf _ zbbuf.len.toNat)]
    refine congrArg ituCrc (congrArg₂ _ hbefore (hbehind.trans ?_))
    rw [foldl_fcsByte]
    rfl
  · cases halloc

/-- Whatever is changed within 16 bits in succession is detected. -/
theorem zbMacFcsAdd_detectsBurst {zbbuf next : Buf} {received : List UInt8} {k : ℕ}
    (hadd : zbMacFcsAdd zbbuf = some next)
    (hlength : received.length = next.content.length)
    (hwrong : wrongBits next.content received ≠ 0)
    (hburst : ∀ i, ((next.content.flatMap lowBitsFirst).zipWith xor
      (received.flatMap lowBitsFirst))[i]? = some true → k ≤ i ∧ i < k + 16) :
    ituCrc received ≠ 0 := by
  rw [← remainder_wrongBits (ituCrc_of_zbMacFcsAdd hadd) hlength]
  exact remainder_ne_zero_of_burst rfl hburst
    (count_pos_iff.mp (Nat.pos_of_ne_zero hwrong))

/-- Eight bits of the second and the third byte are wrong. -/
theorem zbMacFcsAdd_detectsBurst_threeBytes : ∃ next, zbMacFcsAdd threeBytes = some next ∧
      ituCrc [1, 0xA8, 0x56, 0xF7, 0x5B] ≠ 0 := by
  have hresult : (zbMacFcsAdd threeBytes).map Buf.content =
      some [1, 2, 3, 0xF7, 0x5B] := by
    decide +kernel
  obtain ⟨next, hadd, hcontent⟩ := Option.map_eq_some_iff.mp hresult
  refine ⟨next, hadd, @zbMacFcsAdd_detectsBurst threeBytes next _ 9 hadd ?_ ?_ ?_⟩
  · rw [hcontent]
    rfl
  · rw [hcontent]
    decide +kernel
  · rw [hcontent]
    intro i hi
    have hburst : ∀ i < 40, (([1, 2, 3, 0xF7, 0x5B].flatMap lowBitsFirst).zipWith xor
        ([1, 0xA8, 0x56, 0xF7, 0x5B].flatMap lowBitsFirst))[i]? = some true →
          9 ≤ i ∧ i < 9 + 16 := by
      decide +kernel
    exact hburst i (List.getElem?_eq_some_iff.mp hi).1 hi

end Zboss
