import Zboss.BoundedMemory

/-!
# Packet buffers

The buffers of `zb_bufpool.c`: a fixed array of bytes and a header which says
where in it the data of the current layer lie.  Operations return `none` where
the source asserts, or where it accesses memory outside the array.
-/

namespace Zboss

open BoundedMemory

def ioBufSize : ℕ := 148

/-- `zb_buf_t`, with the header fields which the security code uses. -/
structure Buf where
  len : UInt8
  dataOffset : UInt8
  macHdrOffset : UInt8
  useSameKey : Bool
  buf : Vector UInt8 ioBufSize

namespace Buf

def content (zbbuf : Buf) : List UInt8 :=
  window zbbuf.buf zbbuf.dataOffset.toNat zbbuf.len.toNat

def Fits (zbbuf : Buf) : Prop :=
  zbbuf.dataOffset.toNat + zbbuf.len.toNat ≤ ioBufSize

instance (zbbuf : Buf) : Decidable zbbuf.Fits := by
  unfold Fits
  infer_instance

def store (zbbuf : Buf) (offset : ℕ) (bytes : List UInt8) : Option Buf :=
  (BoundedMemory.store zbbuf.buf offset bytes).map fun buf => { zbbuf with buf := buf }

end Buf

def zbBufInitialAlloc (zbbuf : Buf) (size : UInt8) : Option Buf :=
  if size.toNat < ioBufSize then
    some
      { len := size
        dataOffset := UInt8.ofNat ((ioBufSize - size.toNat) / 2)
        macHdrOffset := 0
        useSameKey := false
        buf := zbbuf.buf }
  else none

def zbBufSmartAllocLeft (zbbuf : Buf) (size : UInt8) : Option Buf :=
  if size.toNat + zbbuf.len.toNat < ioBufSize then do
    let zbbuf ←
      if zbbuf.dataOffset < size then do
        -- memmove by `size - data_offset` to the right
        let data ← load zbbuf.buf zbbuf.dataOffset.toNat zbbuf.len.toNat
        let moved ← zbbuf.store size.toNat data
        some { moved with dataOffset := size }
      else some zbbuf
    some
      { zbbuf with
        len := zbbuf.len + size
        dataOffset := zbbuf.dataOffset - size }
  else none

def zbBufCutLeft (zbbuf : Buf) (size : UInt8) : Option Buf :=
  if size ≤ zbbuf.len then
    some
      { zbbuf with
        len := zbbuf.len - size
        dataOffset := zbbuf.dataOffset + size }
  else none

def Buf.zeroed : Buf :=
  { len := 0
    dataOffset := 0
    macHdrOffset := 0
    useSameKey := false
    buf := Vector.replicate ioBufSize 0 }

def zbGetBufTail (zbbuf : Buf) (size : ℕ) : Option ℕ :=
  if zbbuf.len.toNat + zbbuf.dataOffset.toNat + size ≤ ioBufSize then
    some (ioBufSize - size)
  else none

namespace Buf

theorem length_content {zbbuf : Buf} (hfits : zbbuf.Fits) :
    zbbuf.content.length = zbbuf.len.toNat :=
  length_window hfits

theorem store_eq_some {zbbuf zbbuf' : Buf} {offset : ℕ} {bytes : List UInt8}
    (hstore : zbbuf.store offset bytes = some zbbuf') :
    BoundedMemory.store zbbuf.buf offset bytes = some zbbuf'.buf ∧
      zbbuf'.len = zbbuf.len ∧ zbbuf'.dataOffset = zbbuf.dataOffset ∧
      zbbuf'.useSameKey = zbbuf.useSameKey := by
  obtain ⟨buf, hbuf, rfl⟩ := Option.map_eq_some_iff.mp hstore
  exact ⟨hbuf, rfl, rfl, rfl⟩

theorem store_of_le (zbbuf : Buf) {offset : ℕ} {bytes : List UInt8}
    (hroom : offset + bytes.length ≤ ioBufSize) :
    ∃ zbbuf', zbbuf.store offset bytes = some zbbuf' := by
  obtain ⟨buf, hbuf⟩ := @BoundedMemory.store_of_le _ _ zbbuf.buf offset bytes hroom
  exact ⟨_, Option.map_eq_some_iff.mpr ⟨buf, hbuf, rfl⟩⟩

theorem getElem?_content {zbbuf : Buf} {i : ℕ} (hi : i < zbbuf.len.toNat) :
    zbbuf.buf[zbbuf.dataOffset.toNat + i]? = zbbuf.content[i]? := by
  rw [content, getElem?_window, if_pos hi, Vector.getElem?_toList]

theorem load_content {zbbuf : Buf} (hfits : zbbuf.Fits) {xs ys zs : List UInt8}
    (hcontent : zbbuf.content = xs ++ (ys ++ zs)) :
    load zbbuf.buf (zbbuf.dataOffset.toNat + xs.length) ys.length = some ys := by
  have hlength := length_content hfits
  rw [hcontent] at hlength
  simp only [List.length_append] at hlength
  have hroom := hfits
  unfold Fits at hroom
  rw [content, ← hlength, window_add, window_add] at hcontent
  obtain ⟨_, hrest⟩ := List.append_inj hcontent (length_window (by omega))
  obtain ⟨hmiddle, _⟩ := List.append_inj hrest (length_window (by omega))
  exact load_eq_some_iff.mpr ⟨by omega, hmiddle⟩

theorem store_content {zbbuf : Buf} (hfits : zbbuf.Fits) {xs ys zs bytes : List UInt8}
    (hcontent : zbbuf.content = xs ++ (ys ++ zs))
    (hlength : bytes.length = ys.length) :
    ∃ zbbuf', zbbuf.store (zbbuf.dataOffset.toNat + xs.length) bytes = some zbbuf' ∧
      zbbuf'.len = zbbuf.len ∧ zbbuf'.dataOffset = zbbuf.dataOffset ∧
      zbbuf'.content = xs ++ (bytes ++ zs) := by
  have htotal := length_content hfits
  rw [hcontent] at htotal
  simp only [List.length_append] at htotal
  have hroom := hfits
  unfold Fits at hroom
  have hinside : zbbuf.dataOffset.toNat + xs.length + bytes.length ≤
      ioBufSize := by
    omega
  obtain ⟨zbbuf', hstored⟩ := zbbuf.store_of_le hinside
  obtain ⟨hstore, hlen, hoffset, _⟩ := store_eq_some hstored
  refine ⟨zbbuf', hstored, hlen, hoffset, ?_⟩
  rw [content, ← htotal, window_add, window_add] at hcontent
  obtain ⟨hxs, hrest⟩ := List.append_inj hcontent (length_window (by omega))
  obtain ⟨_, hzs⟩ := List.append_inj hrest (length_window (by omega))
  have hsame := window_store_same hstore
  rw [hlength] at hsame
  rw [content, hlen, hoffset, ← htotal, window_add, window_add, hsame,
    window_store_disjoint hstore (Or.inl (Nat.le_refl _)),
    window_store_disjoint hstore (Or.inr (by omega)), hxs, hzs]

end Buf

theorem zbBufInitialAlloc_of_lt (zbbuf : Buf) {size : ℕ} (hsize : size < ioBufSize) :
    ∃ zbbuf', zbBufInitialAlloc zbbuf (UInt8.ofNat size) = some zbbuf' ∧
      zbbuf'.len.toNat = size ∧
      zbbuf'.dataOffset.toNat = (ioBufSize - size) / 2 := by
  have hbyte : (UInt8.ofNat size).toNat = size := by
    simp only [ioBufSize] at hsize
    simp
    omega
  refine ⟨_, if_pos (by rwa [hbyte]), hbyte, ?_⟩
  simp only [hbyte, ioBufSize, UInt8.toNat_ofNat']
  omega

theorem zbBufSmartAllocLeft_of_lt {zbbuf : Buf} {size : UInt8} (hfits : zbbuf.Fits)
    (hsize : size.toNat + zbbuf.len.toNat < ioBufSize) :
    ∃ zbbuf', zbBufSmartAllocLeft zbbuf size = some zbbuf' ∧ zbbuf'.Fits ∧
      zbbuf'.len.toNat = size.toNat + zbbuf.len.toNat ∧
      window zbbuf'.buf (zbbuf'.dataOffset.toNat + size.toNat)
        zbbuf.len.toNat = zbbuf.content := by
  have hassert := hsize
  unfold Buf.Fits at hfits
  simp only [ioBufSize] at hfits hsize
  have hlen : (zbbuf.len + size).toNat = size.toNat + zbbuf.len.toNat := by
    rw [UInt8.toNat_add]
    omega
  by_cases hmove : zbbuf.dataOffset < size
  · have hload : load zbbuf.buf zbbuf.dataOffset.toNat zbbuf.len.toNat =
        some zbbuf.content := load_of_le hfits
    have hcount : zbbuf.content.length = zbbuf.len.toNat := length_window hfits
    have hroom : size.toNat + zbbuf.content.length ≤ ioBufSize := by
      simp only [hcount, ioBufSize]
      omega
    obtain ⟨moved, hmoved⟩ := zbbuf.store_of_le hroom
    obtain ⟨hstore, hmlen, _⟩ := Buf.store_eq_some hmoved
    refine ⟨{ moved with len := moved.len + size, dataOffset := size - size },
      ?_, ?_, ?_, ?_⟩
    · simp [zbBufSmartAllocLeft, hassert, hmove, hload, hmoved]
    · simp only [Buf.Fits, hmlen, hlen, UInt8.sub_self, ioBufSize]
      simp
      omega
    · rw [hmlen, hlen]
    · have hsame := window_store_same hstore
      rw [hcount] at hsame
      simpa using hsame
  · have hle : size ≤ zbbuf.dataOffset := UInt8.not_lt.mp hmove
    have hoffset : (zbbuf.dataOffset - size).toNat =
        zbbuf.dataOffset.toNat - size.toNat := UInt8.toNat_sub_of_le _ _ hle
    have hleNat : size.toNat ≤ zbbuf.dataOffset.toNat := UInt8.le_iff_toNat_le.mp hle
    refine ⟨{ zbbuf with
        len := zbbuf.len + size, dataOffset := zbbuf.dataOffset - size },
      ?_, ?_, ?_, ?_⟩
    · simp [zbBufSmartAllocLeft, hassert, hmove]
    · simp only [Buf.Fits, hlen, hoffset, ioBufSize]
      omega
    · exact hlen
    · simp only [hoffset, Nat.sub_add_cancel hleNat]
      rfl

theorem zbBufCutLeft_of_le
    {zbbuf : Buf} {size : UInt8} (hfits : zbbuf.Fits) (hsize : size ≤ zbbuf.len) :
    ∃ zbbuf', zbBufCutLeft zbbuf size = some zbbuf' ∧ zbbuf'.buf = zbbuf.buf ∧
      zbbuf'.len.toNat = zbbuf.len.toNat - size.toNat ∧
      zbbuf'.dataOffset.toNat = zbbuf.dataOffset.toNat + size.toNat := by
  unfold Buf.Fits at hfits
  simp only [ioBufSize] at hfits
  have hsizeNat := UInt8.le_iff_toNat_le.mp hsize
  refine ⟨_, if_pos hsize, rfl, UInt8.toNat_sub_of_le _ _ hsize, ?_⟩
  rw [UInt8.toNat_add]
  omega

end Zboss
