import Zboss.CcmRoundTrip
import Zboss.NwkSecurity

/-!
# Round trip of a secured network frame

A frame which one node secures is restored by another one which holds the same
key, whatever keys are active on the two sides.  Frames are given by their
parts: MAC header, network header, auxiliary header and payload.
-/

namespace Zboss

open Option List NwkAuxFrameHdr BoundedMemory

/-- The look-up finds this key whichever slot is active. -/
structure Nib.Holds (nib : Nib) (keySeqNumber : UInt8) (key : CcmKey) : Prop where
  stored : ∃ i, (nib.securMaterialSet i).keySeqNumber = keySeqNumber
  same : ∀ i, (nib.securMaterialSet i).keySeqNumber = keySeqNumber →
    (nib.securMaterialSet i).key = key

variable {key : CcmKey} {nwkHdr macHdr payload auxRoom : List UInt8}
  {aux : NwkAuxFrameHdr} {fctl : UInt8} {nsdu : Buf}

theorem Nib.Holds.lookup {nib : Nib} {keySeqNumber : UInt8}
    (hholds : nib.Holds keySeqNumber key) :
    securNwkKeyBySeq nib keySeqNumber = some key := by
  cases hfound : securNwkKeyBySeq nib keySeqNumber with
  | none =>
    obtain ⟨i, hi⟩ := hholds.stored
    exact absurd hi (securNwkKeyBySeq_eq_none hfound i)
  | some found =>
    obtain ⟨i, hi, hkey⟩ := securNwkKeyBySeq_eq_some hfound
    rw [← hkey, hholds.same i hi]

/-- The headers and the payload of a frame with network security, before the
auxiliary header `auxRoom` is filled. -/
structure SecuredParts (fctl : UInt8) (nwkHdr auxRoom : List UInt8) : Prop where
  frameControl : nwkHdr[1]? = some fctl
  security : nwkSecurity fctl = true
  length_nwkHdr : nwkHdr.length + auxFrameHdrSize = zbNwkHdrSize fctl
  length_aux : auxRoom.length = auxFrameHdrSize

def NwkAuxFrameHdr.zeroedLevel (aux : NwkAuxFrameHdr) : NwkAuxFrameHdr :=
  { aux with securControl := nwkStdSecurControlZeroedLevel }

theorem getElem?_frameControl
    {zbbuf : Buf} (hfits : zbbuf.Fits) {macHdr nwkHdr rest : List UInt8}
    (hcontent : zbbuf.content = macHdr ++ (nwkHdr ++ rest)) {i : ℕ}
    (hi : i < nwkHdr.length) :
    zbbuf.buf[zbbuf.dataOffset.toNat + macHdr.length + i]? = nwkHdr[i]? := by
  have hlength := Buf.length_content hfits
  rw [hcontent] at hlength
  simp only [length_append] at hlength
  rw [Nat.add_assoc, Buf.getElem?_content (by omega), hcontent,
    List.getElem?_append_right (by omega), Nat.add_sub_cancel_left,
    List.getElem?_append_left hi]

theorem auxPlace_eq {hdrSize place : ℕ}
    (hlength : nwkHdr.length + auxFrameHdrSize = hdrSize) :
    auxPlace place hdrSize = some (place + nwkHdr.length) := by
  rw [auxPlace, if_pos (by omega)]
  congr 1
  omega

theorem sealFrame_spec (aes128 : Aes128) {src : Buf} (dst : Buf) (key : CcmKey)
    {hdrSize : ℕ}
    (hfits : src.Fits)
    (hcontent : src.content = macHdr ++ (nwkHdr ++ (aux.toBytes ++ payload)))
    (hhdr : nwkHdr.length + auxFrameHdrSize = hdrSize)
    (hroom : hdrSize + payload.length + zbCcmM ≤ 125)
    (hmacRoom : src.len.toNat + zbCcmM < ioBufSize) :
    ∃ dst', sealFrame aes128 src macHdr.length hdrSize dst key aux = some dst' ∧
        dst'.Fits ∧
        dst'.content = macHdr ++ (nwkHdr ++ (aux.zeroedLevel.toBytes ++
            ccmCiphertext aes128 key (ccmNonce aux) (nwkHdr ++ aux.toBytes) payload)) := by
  have hlen := Buf.length_content hfits
  rw [hcontent] at hlen
  simp only [length_append, length_toBytes] at hlen
  have hhdrLength : (nwkHdr ++ aux.toBytes).length = hdrSize := by
    rw [length_append, length_toBytes, hhdr]
  -- the strings in `src`
  have hgrouped : src.content =
      macHdr ++ ((nwkHdr ++ aux.toBytes) ++ payload) := by
    rw [hcontent, append_assoc]
  have hstringA := Buf.load_content hfits hgrouped
  rw [hhdrLength] at hstringA
  have hpayload : src.content =
      (macHdr ++ (nwkHdr ++ aux.toBytes)) ++ (payload ++ []) := by
    rw [hgrouped, append_nil, ← append_assoc]
  have hstringM := Buf.load_content hfits hpayload
  rw [length_append, hhdrLength, ← Nat.add_assoc] at hstringM
  have hmac : src.content = [] ++ (macHdr ++
      ((nwkHdr ++ aux.toBytes) ++ payload)) := hgrouped
  have hmacHdr := Buf.load_content hfits hmac
  rw [length_nil, Nat.add_zero] at hmacHdr
  have hrest : src.len.toNat - hdrSize - macHdr.length = payload.length := by omega
  -- encryption
  have hccmRoom : (nwkHdr ++ aux.toBytes).length + payload.length + zbCcmM ≤ 125 := by
    rw [hhdrLength]
    exact hroom
  obtain ⟨crypted, hcrypted, hcfits, hclen, hccontent⟩ :=
    zbCcmEncryptNAuth_spec aes128 key (ccmNonce aux) dst hccmRoom
  rw [hhdrLength] at hclen
  -- the MAC header in front
  have hmacByte : (UInt8.ofNat macHdr.length).toNat = macHdr.length := by
    simp only [ioBufSize] at hmacRoom
    rw [UInt8.toNat_ofNat']
    omega
  have hleft : (UInt8.ofNat macHdr.length).toNat + crypted.len.toNat <
      ioBufSize := by
    rw [hmacByte, hclen]
    omega
  obtain ⟨alloc, halloc, hafits, halen, hawindow⟩ := zbBufSmartAllocLeft_of_lt hcfits hleft
  rw [hmacByte] at halen hawindow
  have hfront : (window alloc.buf alloc.dataOffset.toNat
      macHdr.length).length = macHdr.length :=
    length_window (by unfold Buf.Fits at hafits; omega)
  have hacontent : alloc.content =
      [] ++ (window alloc.buf alloc.dataOffset.toNat macHdr.length ++
        crypted.content) := by
    rw [nil_append, Buf.content, halen, window_add, hawindow]
  obtain ⟨headed, hheaded, hhlen, hhoffset, hhcontent⟩ :=
    Buf.store_content hafits hacontent hfront.symm
  have hhfits : headed.Fits := by
    rw [Buf.Fits, hhlen, hhoffset]
    exact hafits
  rw [length_nil, Nat.add_zero] at hheaded
  -- the level is zeroed
  have hheadedContent : headed.content = (macHdr ++ nwkHdr) ++ ([aux.securControl] ++
        ((htole32 aux.frameCounter ++ (aux.sourceAddress.toBytes ++ [aux.keySeqNumber])) ++
          ccmCiphertext aes128 key (ccmNonce aux) (nwkHdr ++ aux.toBytes) payload)) := by
    rw [hhcontent, hccontent]
    simp [toBytes]
  obtain ⟨dst', hdst, hdlen, hdoffset, hdcontent⟩ :=
    @Buf.store_content _ hhfits _ _ _ [nwkStdSecurControlZeroedLevel] hheadedContent rfl
  rw [length_append, ← Nat.add_assoc] at hdst
  refine ⟨dst', ?_, ?_, ?_⟩
  · have hlong : ¬ src.len.toNat < macHdr.length + hdrSize := by
      omega
    simp only [sealFrame, hstringA, hlong, if_false, hrest, hstringM,
      hcrypted, halloc, hmacHdr, hheaded,
      auxPlace_eq hhdr, bind_eq_bind, bind_some, hdst]
  · rw [Buf.Fits, hdlen, hdoffset]
    exact hhfits
  · rw [hdcontent]
    simp [toBytes, zeroedLevel]

theorem zbNwkSecureFrame_spec (aes128 : Aes128) {zg : Globals} {src : Buf} (dst : Buf)
    {old : NwkAuxFrameHdr}
    (hfits : src.Fits)
    (hcontent : src.content = macHdr ++ (nwkHdr ++ (auxRoom ++ payload)))
    (hparts : SecuredParts fctl nwkHdr auxRoom)
    (hold : ofBytes auxRoom = some old)
    (hroom : zbNwkHdrSize fctl + payload.length + zbCcmM ≤ 125)
    (hmacRoom : src.len.toNat + zbCcmM < ioBufSize)
    (hkey : securNwkKeyBySeq zg.nib
      (fillAux zg src.useSameKey old.keySeqNumber).2.keySeqNumber = some key) :
    ∃ src' dst', zbNwkSecureFrame aes128 zg src macHdr.length dst = some
            ({ zg with
                nib := (fillAux zg src.useSameKey old.keySeqNumber).1 },
              src', dst', .ok ()) ∧
        src'.content = macHdr ++ (nwkHdr ++
            ((fillAux zg src.useSameKey old.keySeqNumber).2.toBytes ++ payload)) ∧
        dst'.Fits ∧
        dst'.content = macHdr ++ (nwkHdr ++
            ((fillAux zg src.useSameKey old.keySeqNumber ).2.zeroedLevel.toBytes ++
              ccmCiphertext aes128 key
                (ccmNonce (fillAux zg src.useSameKey old.keySeqNumber).2)
                (nwkHdr ++ (fillAux zg src.useSameKey old.keySeqNumber).2.toBytes)
                payload)) := by
  have hsize := le_zbNwkHdrSize hparts.security
  have hlength := hparts.length_nwkHdr
  have hfctl : src.buf[src.dataOffset.toNat + macHdr.length + 1]? =
      some fctl := by
    rw [getElem?_frameControl hfits hcontent
      (by simp only [auxFrameHdrSize] at hlength; omega)]
    exact hparts.frameControl
  have hgrouped : src.content = (macHdr ++ nwkHdr) ++ (auxRoom ++ payload) := by
    rw [hcontent, append_assoc]
  have hload := Buf.load_content hfits hgrouped
  rw [hparts.length_aux, length_append, ← Nat.add_assoc] at hload
  have haux : loadAux src.buf
      (src.dataOffset.toNat + macHdr.length + nwkHdr.length) = some old := by
    rw [loadAux, hload]
    exact hold
  have hsameKeys : (fillAux zg src.useSameKey old.keySeqNumber
      ).1.securMaterialSet = zg.nib.securMaterialSet ∧
      (fillAux zg src.useSameKey old.keySeqNumber).1.activeSecurMaterialI =
        zg.nib.activeSecurMaterialI := by
    unfold fillAux nextFrameCounter
    split
    · exact ⟨rfl, rfl⟩
    · exact ⟨rfl, rfl⟩
  obtain ⟨nib, aux, hfilled⟩ :
      ∃ nib aux, fillAux zg src.useSameKey old.keySeqNumber = (nib, aux) :=
    ⟨_, _, rfl⟩
  rw [hfilled] at hkey hsameKeys ⊢
  dsimp only at hkey hsameKeys ⊢
  rw [← securNwkKeyBySeq_congr hsameKeys.1 hsameKeys.2] at hkey
  obtain ⟨src', hsrc, hslen, hsoffset, hscontent⟩ :=
    @Buf.store_content _ hfits _ _ _ aux.toBytes hgrouped
      (by rw [length_toBytes, hparts.length_aux])
  rw [length_append, ← Nat.add_assoc] at hsrc
  have hsfits : src'.Fits := by
    rw [Buf.Fits, hslen, hsoffset]
    exact hfits
  have hsparts : src'.content =
      macHdr ++ (nwkHdr ++ (aux.toBytes ++ payload)) := by
    rw [hscontent, append_assoc]
  obtain ⟨dst', hdst, hdfits, hdcontent⟩ :=
    sealFrame_spec aes128 dst key hsfits hsparts hlength hroom
      (by rw [hslen]; exact hmacRoom)
  refine ⟨src', dst', ?_, hsparts, hdfits, hdcontent⟩
  simp only [zbNwkSecureFrame, hfctl, auxPlace_eq hlength, haux, hfilled, hsrc,
    hkey, hdst, bind_eq_bind, bind_some]

/-! ## The receiver -/

def nwkSrcAddr (nwkHdr : List UInt8) : ℕ :=
  letoh16 (nwkHdr.getD 4 0) (nwkHdr.getD 5 0)

theorem readNwkHdr_spec {nwkHdr auxRoom rest : List UInt8} (hfits : nsdu.Fits)
    (hcontent : nsdu.content = nwkHdr ++ (aux.toBytes ++ rest))
    (hparts : SecuredParts fctl nwkHdr auxRoom) :
    readNwkHdr nsdu = some
        { hdrSize := zbNwkHdrSize fctl
          auxPos := nsdu.dataOffset.toNat + nwkHdr.length
          aux := aux
          srcAddr := nwkSrcAddr nwkHdr } := by
  have hsize := le_zbNwkHdrSize hparts.security
  have hlength := hparts.length_nwkHdr
  have hshort : 8 ≤ nwkHdr.length := by
    simp only [auxFrameHdrSize] at hlength
    omega
  have hread : ∀ i, i < nwkHdr.length →
      nsdu.buf[nsdu.dataOffset.toNat + i]? = nwkHdr[i]? := by
    intro i hi
    have hnil : nsdu.content = [] ++ (nwkHdr ++ (aux.toBytes ++ rest)) := hcontent
    exact getElem?_frameControl hfits hnil hi
  have hbyte : ∀ i, i < 8 →
      nsdu.buf[nsdu.dataOffset.toNat + i]? = some (nwkHdr.getD i 0) := by
    intro i hi
    have hlt : i < nwkHdr.length := by omega
    rw [hread i hlt, getD_eq_getElem?_getD, List.getElem?_eq_getElem hlt, getD_some]
  have hfctl := hread 1 (by omega)
  rw [hparts.frameControl] at hfctl
  have hload := Buf.load_content hfits hcontent
  rw [length_toBytes] at hload
  have haux : loadAux nsdu.buf (nsdu.dataOffset.toNat + nwkHdr.length) =
      some aux := by
    rw [loadAux, hload]
    exact ofBytes_toBytes aux
  simp only [readNwkHdr, hfctl, auxPlace_eq hlength, haux,
    hbyte 4 (by omega), hbyte 5 (by omega), bind_eq_bind,
    bind_some, nwkSrcAddr]

theorem openFrame_spec (aes128 : Aes128) {nsdu : Buf} {key : CcmKey} {hdr : NwkFrameHdr}
    {aux : NwkAuxFrameHdr} {nwkHdr payload : List UInt8}
    (hfits : nsdu.Fits)
    (hcontent : nsdu.content = nwkHdr ++ (aux.zeroedLevel.toBytes ++
        ccmCiphertext aes128 key (ccmNonce aux) (nwkHdr ++ aux.toBytes) payload))
    (hlevel : aux.securControl = nwkStdSecurControl)
    (haux : hdr.aux = aux.zeroedLevel)
    (hpos : hdr.auxPos = nsdu.dataOffset.toNat + nwkHdr.length)
    (hsize : hdr.hdrSize = nwkHdr.length + auxFrameHdrSize)
    (hroom : payload.length + 16 ≤ ioBufSize) :
    ∃ nsdu', openFrame aes128 nsdu hdr key = some (nsdu', .ok ()) ∧
      nsdu'.Fits ∧ nsdu'.dataOffset = nsdu.dataOffset ∧
      nsdu'.len.toNat = hdr.hdrSize + payload.length ∧
      nsdu'.content = nwkHdr ++ (aux.toBytes ++ payload) := by
  have htagLength : (xorStream (ccmStream aes128 key (ccmNonce aux) 0)
        (ccmTag aes128 key (ccmNonce aux) (nwkHdr ++ aux.toBytes)
          payload)).length = zbCcmM := by
    rw [length_xorStream, length_ccmTag]
  have htextLength : (xorStream (ccmStream aes128 key (ccmNonce aux) 1) payload).length =
        payload.length := length_xorStream _ _
  have hcipherLength : (ccmCiphertext aes128 key (ccmNonce aux) (nwkHdr ++ aux.toBytes)
        payload).length = payload.length + zbCcmM := by
    rw [ccmCiphertext, length_append, htagLength, htextLength]
  have hlen := Buf.length_content hfits
  rw [hcontent] at hlen
  simp only [length_append, length_toBytes, hcipherLength] at hlen
  -- the level is restored
  have hlevelByte : nsdu.content = nwkHdr ++ ([nwkStdSecurControlZeroedLevel] ++
        ((htole32 aux.frameCounter ++ (aux.sourceAddress.toBytes ++ [aux.keySeqNumber])) ++
          ccmCiphertext aes128 key (ccmNonce aux) (nwkHdr ++ aux.toBytes) payload)) := by
    rw [hcontent]
    simp [toBytes, zeroedLevel]
  obtain ⟨restored, hrestored, hrlen, hroffset, hrcontent⟩ :=
    @Buf.store_content _ hfits _ _ _ [nwkStdSecurControl] hlevelByte rfl
  have hrfits : restored.Fits := by
    rw [Buf.Fits, hrlen, hroffset]
    exact hfits
  have hstrings : restored.content = (nwkHdr ++ aux.toBytes) ++
        (xorStream (ccmStream aes128 key (ccmNonce aux) 1) payload ++
          xorStream (ccmStream aes128 key (ccmNonce aux) 0)
            (ccmTag aes128 key (ccmNonce aux) (nwkHdr ++ aux.toBytes) payload)) := by
    rw [hrcontent, ← hlevel, ← ccmCiphertext]
    simp [toBytes]
  obtain ⟨nsdu', ret, hdecrypt, hfits', hoffset', hlen', hret⟩ :=
    zbCcmDecryptNAuth_spec aes128 key (ccmNonce aux) hrfits hstrings htagLength
      (by rw [htextLength]; exact hroom)
  rw [xorStream_xorStream, xorStream_xorStream, if_pos rfl] at hret
  obtain ⟨rfl, hafter⟩ := hret
  have hhdrLength : (nwkHdr ++ aux.toBytes).length = hdr.hdrSize := by
    rw [length_append, length_toBytes, hsize]
  rw [hhdrLength, htextLength] at hdecrypt hlen'
  refine ⟨nsdu', ?_, hfits', hoffset'.trans hroffset, hlen', ?_⟩
  · have hnonce : { hdr.aux with securControl := nwkStdSecurControl } = aux := by
      rw [haux, zeroedLevel, ← hlevel]
    have hlong : ¬ nsdu.len.toNat < hdr.hdrSize := by omega
    have htag : ¬ nsdu.len.toNat - hdr.hdrSize < zbCcmM := by omega
    have hrest : restored.len.toNat - hdr.hdrSize = payload.length + zbCcmM := by
      rw [hrlen]
      omega
    simp only [openFrame, hlong, htag, if_false, hpos, hrestored, hnonce, hrest,
      hdecrypt, bind_eq_bind, bind_some]
  · rw [hafter, append_assoc]

theorem reinsertMhr_spec {mhr : MacMhr} {mhrLen : UInt8}
    (hfits : nsdu.Fits) (hmhr : (zbMacFillMhr mhr).length = mhrLen.toNat)
    (hroom : mhrLen.toNat + 1 + nsdu.len.toNat < ioBufSize) :
    ∃ nsdu', reinsertMhr nsdu mhr mhrLen = some nsdu' ∧ nsdu'.content = nsdu.content := by
  have hsize : (mhrLen + 1).toNat = mhrLen.toNat + 1 := by
    simp only [ioBufSize] at hroom
    rw [UInt8.toNat_add]
    simp
    omega
  have hleft : (mhrLen + 1).toNat + nsdu.len.toNat < ioBufSize := by
    rw [hsize]
    exact hroom
  obtain ⟨alloc, halloc, hafits, halen, hawindow⟩ := zbBufSmartAllocLeft_of_lt hfits hleft
  unfold Buf.Fits at hafits
  rw [hsize] at halen hawindow
  have hinside : alloc.dataOffset.toNat + 1 + (zbMacFillMhr mhr).length ≤
      ioBufSize := by
    rw [hmhr]
    omega
  obtain ⟨filled, hfilled⟩ := alloc.store_of_le hinside
  obtain ⟨hstore, hflen, hfoffset, _⟩ := Buf.store_eq_some hfilled
  have hffits : Buf.Fits { filled with macHdrOffset := filled.dataOffset + 1 } := by
    rw [Buf.Fits, hflen, hfoffset]
    exact hafits
  have hcut : mhrLen + 1 ≤ filled.len := by
    rw [UInt8.le_iff_toNat_le, hsize, hflen]
    omega
  obtain ⟨nsdu', hnsdu, hbuf, hlen, hoffset⟩ := zbBufCutLeft_of_le hffits hcut
  dsimp only at hbuf hlen hoffset
  refine ⟨nsdu', ?_, ?_⟩
  · simp only [reinsertMhr, halloc, hfilled, hnsdu, bind_eq_bind, bind_some]
  · have hshort : nsdu'.len.toNat = nsdu.len.toNat := by
      rw [hlen, hflen, hsize]
      omega
    rw [Buf.content, hshort, hoffset, hbuf, hfoffset, hsize,
      window_store_disjoint hstore (Or.inr (by omega)), hawindow]

def FindsSender (zg zg₁ : Globals) (n : ℕ) (sourceAddress : IeeeAddr)
    (shortAddr srcAddr : ℕ) : Prop :=
  ∃ addr ref, zbAddressUpdate zg.addr sourceAddress shortAddr false =
        some (addr, .ok ref) ∧
      zbNwkNeighborGet { zg with addr := addr } ref (srcAddr = shortAddr) =
        some (zg₁, .ok n)

theorem checkFrame_of_fresh {row : NeighborTblEnt} (key : CcmKey)
    (hcounter : row.keySeqNumber = aux.keySeqNumber →
      row.incomingFrameCounter ≤ aux.frameCounter ∧
        row.incomingFrameCounter ≠ 0xFFFFFFFF) :
    ∃ nbe, checkFrame row (some key) aux.zeroedLevel = (nbe, .ok key) := by
  have hcheck : ¬ ((row.expectFrame aux.keySeqNumber).incomingFrameCounter >
          aux.frameCounter ∨
        (row.expectFrame aux.keySeqNumber).incomingFrameCounter = 0xFFFFFFFF) := by
    by_cases hsame : row.keySeqNumber = aux.keySeqNumber
    · obtain ⟨hle, hlast⟩ := hcounter hsame
      have hkept : (row.expectFrame aux.keySeqNumber).incomingFrameCounter =
          row.incomingFrameCounter := by
        unfold NeighborTblEnt.expectFrame
        split <;> simp [hsame]
      rw [hkept]
      rintro (hgt | hmax)
      · exact absurd hle (UInt32.not_le.mpr hgt)
      · exact hlast hmax
    · have hreset : (row.expectFrame aux.keySeqNumber).incomingFrameCounter =
          0 := by
        unfold NeighborTblEnt.expectFrame
        split <;> simp [hsame]
      rw [hreset]
      rintro (hgt | hmax)
      · exact absurd hgt (by simp)
      · contradiction
  refine ⟨{ row.expectFrame aux.keySeqNumber with
    incomingFrameCounter := aux.frameCounter }, ?_⟩
  dsimp only [checkFrame, zeroedLevel]
  rw [if_neg hcheck]

theorem zbNwkUnsecureFrame_spec (aes128 : Aes128) {zg zg₁ : Globals} {mhr : MacMhr}
    {mhrLen : UInt8} (junkRef : ℕ) (random : CcmKey) {n : ℕ}
    (hauth : zg.authenticated = true)
    (hfits : nsdu.Fits)
    (hcontent : nsdu.content = nwkHdr ++ (aux.zeroedLevel.toBytes ++
        ccmCiphertext aes128 key (ccmNonce aux) (nwkHdr ++ aux.toBytes) payload))
    (hparts : SecuredParts fctl nwkHdr auxRoom)
    (hlevel : aux.securControl = nwkStdSecurControl)
    (hroom : payload.length + 16 ≤ ioBufSize)
    (hmode : mhr.srcAddressingMode = addr16BitDevOrBroadcast)
    (hmhr : (zbMacFillMhr mhr).length = mhrLen.toNat)
    (hmacRoom : mhrLen.toNat + 1 + zbNwkHdrSize fctl + payload.length < ioBufSize)
    (hsender : FindsSender zg zg₁ n aux.sourceAddress mhr.srcAddr.addrShort
      (nwkSrcAddr nwkHdr))
    (hkey : securNwkKeyBySeq zg.nib aux.keySeqNumber = some key)
    (hcounter : (zg₁.neighbor.baseNeighbor n).keySeqNumber = aux.keySeqNumber →
      (zg₁.neighbor.baseNeighbor n).incomingFrameCounter ≤ aux.frameCounter ∧
        (zg₁.neighbor.baseNeighbor n).incomingFrameCounter ≠ 0xFFFFFFFF) :
    ∃ zg' nsdu', zbNwkUnsecureFrame aes128 zg nsdu mhr mhrLen junkRef random =
          some (zg', nsdu', .ok ()) ∧
        nsdu'.content = nwkHdr ++ (aux.toBytes ++ payload) := by
  have hread := readNwkHdr_spec hfits hcontent hparts
  have hlength := hparts.length_nwkHdr
  obtain ⟨addr, ref, hupdate, hget⟩ := hsender
  -- the keys are not touched by the search for the sender
  have hnib : zg₁.nib = zg.nib := by
    rcases zbNwkNeighborGet_eq_some hget with ⟨rfl, _⟩ | ⟨_, _, _, _, _, locked, _, rfl⟩
    · rfl
    · rfl
  have hlookup : securNwkKeyBySeq zg₁.nib aux.keySeqNumber = some key := by
    rw [hnib]
    exact hkey
  obtain ⟨nbe, hcheck⟩ := checkFrame_of_fresh key hcounter
  -- decryption
  obtain ⟨opened, hopened, hofits, hooffset, holen, hocontent⟩ :=
    @openFrame_spec aes128 nsdu key
      { hdrSize := zbNwkHdrSize fctl
        auxPos := nsdu.dataOffset.toNat + nwkHdr.length
        aux := aux.zeroedLevel
        srcAddr := nwkSrcAddr nwkHdr }
      aux nwkHdr payload hfits hcontent hlevel rfl rfl hlength.symm hroom
  dsimp only at holen
  obtain ⟨nsdu', hmhrBack, hcontent'⟩ :=
    reinsertMhr_spec hofits hmhr (by rw [holen]; omega)
  have hkeyByte : ∃ keySeqNumber, nsdu'.buf[nsdu.dataOffset.toNat + nwkHdr.length + 13]? =
        some keySeqNumber := by
    have hroom' := hfits
    unfold Buf.Fits at hroom'
    have hlen := Buf.length_content hfits
    rw [hcontent] at hlen
    simp only [length_append, length_toBytes, auxFrameHdrSize] at hlen
    exact ⟨_, Vector.getElem?_eq_getElem (by omega)⟩
  obtain ⟨keySeqNumber, hkeyByte⟩ := hkeyByte
  refine ⟨implicitKeySwitch (zg₁.setRow n nbe.confirmChild) keySeqNumber random,
    nsdu', ?_, hcontent'.trans hocontent⟩
  have hlocate : locateSender zg mhr
      { hdrSize := zbNwkHdrSize fctl
        auxPos := nsdu.dataOffset.toNat + nwkHdr.length
        aux := aux.zeroedLevel
        srcAddr := nwkSrcAddr nwkHdr } junkRef = some (zg₁, .ok n) := by
    simp only [locateSender, senderRef, if_pos hmode,
      zeroedLevel, hupdate, map_some, bind_eq_bind,
      bind_some, hget]
  have hzeroedKey : aux.zeroedLevel.keySeqNumber = aux.keySeqNumber := rfl
  simp only [zbNwkUnsecureFrame, if_pos hauth, hread, hlocate, unsecureFrom,
    hzeroedKey, hlookup, hcheck, hopened, hmhrBack, hkeyByte,
    bind_eq_bind, bind_some]

/-- Every frame with security which fits is secured by `A`, and restored by
`B` with the filled auxiliary header, if `B` is authenticated, finds the key
which `A` used, knows `A` or can create its neighbor entry, and has stored for
this key neither a higher counter nor the last one. -/
theorem nwkSecurity_roundTrip
    (aes128 : Aes128) {zgA zgB zg₁ : Globals} {src : Buf} (dst : Buf)
    {mhr : MacMhr} {mhrLen : UInt8} (junkRef : ℕ) (random : CcmKey) {n : ℕ}
    {key : CcmKey} {fctl : UInt8} {old : NwkAuxFrameHdr}
    {macHdr nwkHdr auxRoom payload : List UInt8}
    (hfits : src.Fits)
    (hcontent : src.content = macHdr ++ (nwkHdr ++ (auxRoom ++ payload)))
    (hparts : SecuredParts fctl nwkHdr auxRoom)
    (hold : ofBytes auxRoom = some old)
    (hroom : zbNwkHdrSize fctl + payload.length + zbCcmM ≤ 125)
    (hmacRoom : src.len.toNat + zbCcmM < ioBufSize)
    (hmac : zbParseMhr macHdr = some (mhr, []))
    (hmhrLen : mhrLen.toNat = macHdr.length)
    (hmode : mhr.srcAddressingMode = addr16BitDevOrBroadcast)
    (hkeyA : securNwkKeyBySeq zgA.nib
      (fillAux zgA src.useSameKey old.keySeqNumber).2.keySeqNumber = some key)
    (hauth : zgB.authenticated = true)
    (hkeyB : securNwkKeyBySeq zgB.nib
      (fillAux zgA src.useSameKey old.keySeqNumber).2.keySeqNumber = some key)
    (hsender : FindsSender zgB zg₁ n zgA.extendedAddress mhr.srcAddr.addrShort
      (nwkSrcAddr nwkHdr))
    (hcounter : (zg₁.neighbor.baseNeighbor n).keySeqNumber =
        (fillAux zgA src.useSameKey old.keySeqNumber).2.keySeqNumber →
      (zg₁.neighbor.baseNeighbor n).incomingFrameCounter ≤
          (fillAux zgA src.useSameKey old.keySeqNumber).2.frameCounter ∧
        (zg₁.neighbor.baseNeighbor n).incomingFrameCounter ≠ 0xFFFFFFFF) :
    ∃ zgA' src' dst', zbNwkSecureFrame aes128 zgA src macHdr.length dst =
          some (zgA', src', dst', .ok ()) ∧
        src'.content = macHdr ++ (nwkHdr ++
            ((fillAux zgA src.useSameKey old.keySeqNumber).2.toBytes ++ payload)) ∧
        ∀ nsdu : Buf, nsdu.Fits → nsdu.content = dst'.content.drop macHdr.length →
          ∃ zgB' nsdu', zbNwkUnsecureFrame aes128 zgB nsdu mhr mhrLen junkRef random =
                some (zgB', nsdu', .ok ()) ∧
              nsdu'.content = src'.content.drop macHdr.length := by
  obtain ⟨src', dst', hsecure, hsrc', hdfits, hdst'⟩ :=
    zbNwkSecureFrame_spec aes128 dst hfits hcontent hparts hold hroom hmacRoom
      hkeyA
  refine ⟨_, src', dst', hsecure, hsrc', ?_⟩
  intro nsdu hnfits hnsdu
  rw [hdst', drop_left] at hnsdu
  have hmhr : (zbMacFillMhr mhr).length = mhrLen.toNat := by
    have hbytes := zbMacFillMhr_of_parse hmac
    rw [append_nil] at hbytes
    rw [← hbytes, hmhrLen]
  have hlen := Buf.length_content hfits
  rw [hcontent] at hlen
  simp only [length_append, hparts.length_aux] at hlen
  have hnwkLength := hparts.length_nwkHdr
  obtain ⟨zgB', nsdu', hunsecure, hrestored⟩ :=
    zbNwkUnsecureFrame_spec aes128 junkRef random hauth hnfits hnsdu hparts rfl
      (by simp only [ioBufSize]; omega) hmode hmhr
      (by simp only [ioBufSize, zbCcmM] at *; omega) hsender hkeyB hcounter
  refine ⟨zgB', nsdu', hunsecure, ?_⟩
  rw [hrestored, hsrc', drop_left]

def pairedCipher : Aes128 := fun key block => xor16 key block

def pairedKeys (i : Fin 3) : CcmKey := Vector.replicate 16 (i.val + 1).toUInt8

def pairedSender (outgoingFrameCounter : UInt32) : Globals :=
  { Globals.init ⟨⟨1, 2, 3⟩, ⟨4, 5, 6, 7, 8⟩⟩ with
    authenticated := true
    nib :=
      { securGenerateKeys .zeroed pairedKeys with
        outgoingFrameCounter := outgoingFrameCounter } }

def pairedReceiver : Globals :=
  { Globals.init ⟨⟨9, 9, 9⟩, .zero⟩ with
    authenticated := true
    nib :=
      { securGenerateKeys .zeroed pairedKeys with
        activeSecurMaterialI := 1
        activeKeySeqNumber := 1 } }

def pairedMacHdr : List UInt8 := [0x41, 0x88, 1, 0xCD, 0xAB, 0, 0, 1, 0]

def pairedMhr : MacMhr :=
  ⟨0x41, 0x88, 1, 0xABCD, .zero, 0xABCD, ⟨⟨1, 0, 0⟩, .zero⟩⟩

def pairedNwkHdr : List UInt8 := [0x08, 0x02, 0, 0, 1, 0, 5, 7]

def pairedFrame : Buf :=
  (Buf.store { Buf.zeroed with len := 32, dataOffset := 20 } 20
    (pairedMacHdr ++ (pairedNwkHdr ++ (List.replicate 14 0 ++ [0xAA])))).getD
    .zeroed

theorem holds_pairedKeys {nib : Nib} (hset : nib.securMaterialSet =
      (securGenerateKeys .zeroed pairedKeys).securMaterialSet) :
    nib.Holds 0 (pairedKeys 0) := by
  constructor
  · rw [hset]
    exact ⟨0, rfl⟩
  · rw [hset]
    decide +kernel

theorem findsSender_of_observed
    {zg : Globals} {sourceAddress : IeeeAddr} {shortAddr ref n : ℕ}
    {counter : UInt32}
    (hobserved : ((zbAddressUpdate zg.addr sourceAddress shortAddr false).bind
          fun updated =>
        (zbNwkNeighborGet { zg with addr := updated.1 } ref
            (decide (shortAddr = shortAddr))).map fun got =>
          (updated.2.toOption, got.2.toOption,
            (got.1.neighbor.baseNeighbor n).incomingFrameCounter)) =
        some (some ref, some n, counter)) :
    ∃ zg₁, FindsSender zg zg₁ n sourceAddress shortAddr shortAddr ∧
      (zg₁.neighbor.baseNeighbor n).incomingFrameCounter = counter := by
  obtain ⟨⟨addr, ret⟩, hupdate, hrest⟩ := bind_eq_some_iff.mp hobserved
  obtain ⟨⟨zg₁, got⟩, hget, hrow⟩ := map_eq_some_iff.mp hrest
  simp only [Prod.mk.injEq] at hrow
  obtain ⟨hret, hgot, hcounter⟩ := hrow
  cases ret with
  | error err => contradiction
  | ok ref' =>
    cases got with
    | error err => contradiction
    | ok n' =>
      simp only [Except.toOption, some.injEq] at hret hgot
      subst hret hgot
      exact ⟨zg₁, ⟨addr, _, hupdate, hget⟩, hcounter⟩

theorem nwkSecurity_roundTrip_paired : ∃ zgA' src' dst',
      zbNwkSecureFrame pairedCipher (pairedSender 5) pairedFrame 9 .zeroed =
          some (zgA', src', dst', .ok ()) ∧
        src'.content = pairedMacHdr ++ (pairedNwkHdr ++
            ((fillAux (pairedSender 5) false 0).2.toBytes ++ [0xAA])) ∧
        ∀ nsdu : Buf, nsdu.Fits → nsdu.content = dst'.content.drop 9 → ∃ zgB' nsdu',
            zbNwkUnsecureFrame pairedCipher pairedReceiver nsdu pairedMhr 9 0 emptyKey =
                some (zgB', nsdu', .ok ()) ∧
              nsdu'.content = src'.content.drop 9 := by
  obtain ⟨zg₁, hsender, hcounter⟩ :=
    @findsSender_of_observed pairedReceiver (pairedSender 5).extendedAddress 1
      82 0 0 (by decide +kernel)
  have hkey : (pairedSender 5).nib.Holds 0 (pairedKeys 0) := holds_pairedKeys rfl
  exact nwkSecurity_roundTrip pairedCipher .zeroed 0 emptyKey
    (show pairedFrame.Fits by decide +kernel)
    (show pairedFrame.content = pairedMacHdr ++ (pairedNwkHdr ++
      (List.replicate 14 0 ++ [0xAA])) by decide +kernel)
    (show SecuredParts 2 pairedNwkHdr (List.replicate 14 0) from ⟨rfl, rfl, rfl, rfl⟩)
    rfl (by decide) (by decide +kernel)
    (show zbParseMhr pairedMacHdr = some (pairedMhr, []) by decide +kernel)
    (show (9 : UInt8).toNat = pairedMacHdr.length from rfl)
    rfl hkey.lookup rfl (holds_pairedKeys rfl).lookup hsender
    (fun _ => by rw [hcounter]; exact ⟨by decide, by decide⟩)

def lastCounterReceiver : Globals :=
  match locateSender pairedReceiver pairedMhr
      ⟨22, 0, (fillAux (pairedSender 0xFFFFFFFF) false 0).2, 1⟩ 0 with
  | some (zg, .ok n) =>
      zg.setRow n { zg.neighbor.baseNeighbor n with incomingFrameCounter := 0xFFFFFFFF }
  | _ => pairedReceiver

/-- The last slot is not filled yet, so that it has number 0 as the first one. -/
def unfilledReceiver : Globals :=
  { pairedReceiver with nib := pairedReceiver.nib.setMaterial 2 ⟨emptyKey, 0⟩ }

/-- The stored counter does not exceed the counter of the frame, and yet the
frame is rejected: both are the last possible counter.  A receiver with the key
in its first slot rejects the frame if its search comes to an unfilled slot first. -/
theorem not_roundTrip_of_last_counter : ∃ zgA' src' dst' nsdu zg₁ zgB' nsdu',
      zbNwkSecureFrame pairedCipher (pairedSender 0xFFFFFFFF) pairedFrame 9
          .zeroed = some (zgA', src', dst', .ok ()) ∧
        nsdu.Fits ∧ nsdu.content = dst'.content.drop 9 ∧
        lastCounterReceiver.authenticated = true ∧
        (pairedSender 0xFFFFFFFF).nib.Holds 0 (pairedKeys 0) ∧
        lastCounterReceiver.nib.Holds 0 (pairedKeys 0) ∧
        FindsSender lastCounterReceiver zg₁ 0
          (pairedSender 0xFFFFFFFF).extendedAddress 1 1 ∧
        (zg₁.neighbor.baseNeighbor 0).incomingFrameCounter ≤
          (fillAux (pairedSender 0xFFFFFFFF) false 0).2.frameCounter ∧
        zbNwkUnsecureFrame pairedCipher lastCounterReceiver nsdu pairedMhr 9 0 emptyKey =
          some (zgB', nsdu', .error .error) ∧
        unfilledReceiver.nib.securMaterialSet 0 = ⟨pairedKeys 0, 0⟩ ∧
        ((zbNwkSecureFrame pairedCipher (pairedSender 5) pairedFrame 9 .zeroed).bind
            fun sent => (zbBufCutLeft sent.2.2.1 9).bind fun nsdu =>
              (zbNwkUnsecureFrame pairedCipher unfilledReceiver nsdu pairedMhr 9 0
                emptyKey).map fun got => got.2.2) = some (.error .error) := by
  have hresult : ((zbNwkSecureFrame pairedCipher (pairedSender 0xFFFFFFFF) pairedFrame 9
          .zeroed).bind fun sent =>
        (zbBufCutLeft sent.2.2.1 9).bind fun nsdu =>
          (zbNwkUnsecureFrame pairedCipher lastCounterReceiver nsdu pairedMhr 9
              0 emptyKey).map fun got =>
            (sent.2.2.2, decide nsdu.Fits,
              decide (nsdu.content = sent.2.2.1.content.drop 9), got.2.2)) =
        some (.ok (), true, true, .error .error) := by
    decide +kernel
  obtain ⟨⟨zgA', src', dst', retA⟩, hsecure, hrest⟩ := bind_eq_some_iff.mp hresult
  obtain ⟨nsdu, _, hrest⟩ := bind_eq_some_iff.mp hrest
  obtain ⟨⟨zgB', nsdu', retB⟩, hunsecure, hobserved⟩ := map_eq_some_iff.mp hrest
  simp only [Prod.mk.injEq, decide_eq_true_eq] at hobserved
  obtain ⟨rfl, hfits, hcontent, rfl⟩ := hobserved
  obtain ⟨zg₁, hsender, hcounter⟩ :=
    @findsSender_of_observed lastCounterReceiver
      (pairedSender 0xFFFFFFFF).extendedAddress 1 82 0 0xFFFFFFFF
      (by decide +kernel)
  refine ⟨zgA', src', dst', nsdu, zg₁, zgB', nsdu', hsecure, hfits, hcontent,
    by decide +kernel, holds_pairedKeys rfl, holds_pairedKeys ?_, hsender, ?_,
    hunsecure, rfl, by decide +kernel⟩
  · funext i
    revert i
    decide +kernel
  · rw [hcounter]
    decide

end Zboss
