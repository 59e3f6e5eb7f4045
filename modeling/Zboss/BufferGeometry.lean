import Zboss.PacketBuffer
import Zboss.TransitionSystem

/-!
# The geometry of a packet buffer

Space is taken from the array of a buffer on both sides of the data.  On the
left the data move where it is needed; on the right they do not, and the
assertion of `zb_buf_smart_alloc_right` leaves out where they begin.
-/

namespace Zboss

open Option BoundedMemory TransitionSystem

def zbBufSmartAllocRight (zbbuf : Buf) (size : UInt8) : Option (Buf × ℕ) :=
  if size.toNat + zbbuf.len.toNat < ioBufSize then
    some ({ zbbuf with len := zbbuf.len + size }, zbbuf.dataOffset.toNat + zbbuf.len.toNat)
  else none

def zbBufCutRight (zbbuf : Buf) (size : UInt8) : Option Buf :=
  if size ≤ zbbuf.len then some { zbbuf with len := zbbuf.len - size }
  else none

/-- Returns also the place of the parameter, of which `param` are the bytes. -/
def zbBufAssignParam (zbbuf : Buf) (param : ℕ → UInt8) (size : UInt8) :
    Option (Buf × ℕ) :=
  let dataEnd := zbbuf.dataOffset.toNat + zbbuf.len.toNat
  if zbbuf.len.toNat + size.toNat ≤ ioBufSize then do
    let zbbuf ←
      if ioBufSize < dataEnd + size.toNat then do
        let delta := dataEnd + size.toNat - ioBufSize
        let data ← load zbbuf.buf zbbuf.dataOffset.toNat zbbuf.len.toNat
        let moved ← zbbuf.store (zbbuf.dataOffset.toNat - delta) data
        some
          { moved with
            dataOffset := .ofNat (zbbuf.dataOffset.toNat - delta) }
      else some zbbuf
    let tail ← zbGetBufTail zbbuf size.toNat
    let zbbuf ← zbbuf.store tail ((List.range size.toNat).map param)
    some (zbbuf, tail)
  else none

inductive BufMacro where
  | initialAlloc (size : UInt8)
  | smartAllocLeft (size : UInt8)
  | smartAllocRight (size : UInt8)
  | cutLeft (size : UInt8)
  | cutRight (size : UInt8)
  | assignParam (param : ℕ → UInt8) (size : UInt8)

namespace BufMacro

def exec (zbbuf : Buf) : BufMacro → Option (Buf × ℕ)
  | .initialAlloc size =>
      (zbBufInitialAlloc zbbuf size).map fun next => (next, next.dataOffset.toNat)
  | .smartAllocLeft size =>
      (zbBufSmartAllocLeft zbbuf size).map fun next => (next, next.dataOffset.toNat)
  | .smartAllocRight size => zbBufSmartAllocRight zbbuf size
  | .cutLeft size =>
      (zbBufCutLeft zbbuf size).map fun next => (next, next.dataOffset.toNat)
  | .cutRight size =>
      (zbBufCutRight zbbuf size).map fun next => (next, next.dataOffset.toNat)
  | .assignParam param size => zbBufAssignParam zbbuf param size

def apply (zbbuf : Buf) (call : BufMacro) : Option Buf :=
  (call.exec zbbuf).map Prod.fst

/-- The assertions of the called functions; that of `zb_get_buf_tail` holds
once the data are moved. -/
def Asserts (zbbuf : Buf) : BufMacro → Prop
  | .initialAlloc size => size.toNat < ioBufSize
  | .smartAllocLeft size => size.toNat + zbbuf.len.toNat < ioBufSize
  | .smartAllocRight size => size.toNat + zbbuf.len.toNat < ioBufSize
  | .cutLeft size => size ≤ zbbuf.len
  | .cutRight size => size ≤ zbbuf.len
  | .assignParam _ size => zbbuf.len.toNat + size.toNat ≤ ioBufSize

def size : BufMacro → UInt8
  | .initialAlloc size => size
  | .smartAllocLeft size => size
  | .smartAllocRight size => size
  | .cutLeft _ => 0
  | .cutRight _ => 0
  | .assignParam _ size => size

def Effect (zbbuf next : Buf) (place : ℕ) : BufMacro → Prop
  | .initialAlloc size =>
      place = next.dataOffset.toNat ∧ next.len = size ∧ next.buf = zbbuf.buf
  | .smartAllocLeft size =>
      place = next.dataOffset.toNat ∧ next.len.toNat = size.toNat + zbbuf.len.toNat ∧
        window next.buf (place + size.toNat) zbbuf.len.toNat = zbbuf.content
  | .smartAllocRight size =>
      place = next.dataOffset.toNat + zbbuf.len.toNat ∧
        next.len.toNat = zbbuf.len.toNat + size.toNat ∧
        window next.buf next.dataOffset.toNat zbbuf.len.toNat = zbbuf.content
  | .cutLeft size => next.content = zbbuf.content.drop size.toNat
  | .cutRight size => next.content = zbbuf.content.take (zbbuf.len.toNat - size.toNat)
  | .assignParam param size =>
      next.content = zbbuf.content ∧ next.dataOffset.toNat + next.len.toNat ≤ place ∧
        window next.buf place size.toNat = (List.range size.toNat).map param

/-- A call whose assertions hold leaves data and new space inside the array,
and the old data as they were. -/
def Correct (zbbuf : Buf) (call : BufMacro) : Prop :=
  call.Asserts zbbuf → ∃ next place, call.exec zbbuf = some (next, place) ∧ next.Fits ∧
      place + call.size.toNat ≤ ioBufSize ∧ call.Effect zbbuf next place

def RoomRight (zbbuf : Buf) : BufMacro → Prop
  | .smartAllocRight size =>
      size.toNat + zbbuf.len.toNat < ioBufSize →
        zbbuf.dataOffset.toNat + zbbuf.len.toNat + size.toNat ≤ ioBufSize
  | _ => True

end BufMacro

section Calls

variable {zbbuf : Buf} {size : UInt8}

theorem window_prefix {zbbuf : Buf} (hfits : zbbuf.Fits) {count : ℕ}
    (hcount : count ≤ zbbuf.len.toNat) :
    window zbbuf.buf zbbuf.dataOffset.toNat count = zbbuf.content.take count := by
  rw [Buf.content, ← Nat.add_sub_cancel' hcount, window_add, List.take_left']
  exact length_window (by unfold Buf.Fits at hfits; omega)

theorem window_suffix {zbbuf : Buf} (hfits : zbbuf.Fits) {count : ℕ}
    (hcount : count ≤ zbbuf.len.toNat) :
    window zbbuf.buf (zbbuf.dataOffset.toNat + count)
        (zbbuf.len.toNat - count) = zbbuf.content.drop count := by
  rw [Buf.content, ← Nat.add_sub_cancel' hcount, window_add, List.drop_left',
    Nat.add_sub_cancel_left]
  exact length_window (by unfold Buf.Fits at hfits; omega)

theorem correct_initialAlloc (zbbuf : Buf) (size : UInt8) :
    (BufMacro.initialAlloc size).Correct zbbuf := by
  intro hsize
  have hsize' : size.toNat < ioBufSize := hsize
  have hbyte : UInt8.ofNat size.toNat = size := UInt8.ofNat_toNat
  obtain ⟨next, halloc, hlen, hoffset⟩ := zbBufInitialAlloc_of_lt zbbuf hsize'
  rw [hbyte] at halloc
  have hroom : next.dataOffset.toNat + size.toNat ≤ ioBufSize := by
    rw [hoffset]
    omega
  refine ⟨next, next.dataOffset.toNat, ?_, ?_, hroom, rfl, UInt8.toNat_inj.mp hlen, ?_⟩
  · rw [BufMacro.exec, halloc]
    rfl
  · rw [Buf.Fits, hlen]
    exact hroom
  · rw [zbBufInitialAlloc, if_pos hsize'] at halloc
    exact some.inj halloc ▸ rfl

theorem correct_smartAllocLeft (hfits : zbbuf.Fits) (size : UInt8) :
    (BufMacro.smartAllocLeft size).Correct zbbuf := by
  intro hsize
  obtain ⟨next, halloc, hfits', hlen, hdata⟩ := zbBufSmartAllocLeft_of_lt hfits hsize
  refine ⟨next, next.dataOffset.toNat, ?_, hfits', ?_, rfl, hlen, hdata⟩
  · rw [BufMacro.exec, halloc]
    rfl
  · rw [Buf.Fits, hlen] at hfits'
    rw [BufMacro.size]
    omega

theorem correct_smartAllocRight_iff (zbbuf : Buf) (size : UInt8) :
    (BufMacro.smartAllocRight size).Correct zbbuf ↔
      (BufMacro.smartAllocRight size).RoomRight zbbuf := by
  rw [BufMacro.Correct, BufMacro.Asserts, BufMacro.RoomRight]
  refine forall_congr' fun hsize => ?_
  have hlen : (zbbuf.len + size).toNat = zbbuf.len.toNat + size.toNat := by
    rw [UInt8.toNat_add]
    simp only [ioBufSize] at hsize
    omega
  have hexec : (BufMacro.smartAllocRight size).exec zbbuf =
      some ({ zbbuf with len := zbbuf.len + size },
        zbbuf.dataOffset.toNat + zbbuf.len.toNat) := if_pos hsize
  constructor
  · rintro ⟨next, place, hnext, -, hroom, -⟩
    obtain ⟨-, rfl⟩ := some_pair_inj (hexec.symm.trans hnext)
    exact hroom
  · intro hroom
    refine ⟨_, _, hexec, ?_, hroom, rfl, hlen, rfl⟩
    rw [Buf.Fits, hlen, ← Nat.add_assoc]
    exact hroom

theorem correct_cutLeft (hfits : zbbuf.Fits) (size : UInt8) :
    (BufMacro.cutLeft size).Correct zbbuf := by
  intro hsize
  have hle : size.toNat ≤ zbbuf.len.toNat := UInt8.le_iff_toNat_le.mp hsize
  obtain ⟨next, hcut, hbuf, hlen, hoffset⟩ := zbBufCutLeft_of_le hfits hsize
  have hfits' : next.Fits := by
    rw [Buf.Fits, hlen, hoffset]
    unfold Buf.Fits at hfits
    omega
  refine ⟨next, next.dataOffset.toNat, ?_, hfits', ?_, ?_⟩
  · rw [BufMacro.exec, hcut]
    rfl
  · exact Nat.le_trans (Nat.le_add_right ..) hfits'
  · rw [BufMacro.Effect, Buf.content, hbuf, hlen, hoffset, window_suffix hfits hle]

theorem correct_cutRight (hfits : zbbuf.Fits) (size : UInt8) :
    (BufMacro.cutRight size).Correct zbbuf := by
  intro hsize
  have hle : size.toNat ≤ zbbuf.len.toNat := UInt8.le_iff_toNat_le.mp hsize
  have hlen : (zbbuf.len - size).toNat = zbbuf.len.toNat - size.toNat :=
    UInt8.toNat_sub_of_le _ _ hsize
  have hfits' : Buf.Fits { zbbuf with len := zbbuf.len - size } := by
    rw [Buf.Fits, hlen]
    exact Nat.le_trans (Nat.add_le_add_left (Nat.sub_le ..) _) hfits
  have hcut : zbBufCutRight zbbuf size =
      some { zbbuf with len := zbbuf.len - size } := if_pos hsize
  refine ⟨_, zbbuf.dataOffset.toNat, ?_, hfits', ?_, ?_⟩
  · rw [BufMacro.exec, hcut]
    rfl
  · exact Nat.le_trans (Nat.le_add_right ..) hfits'
  · rw [BufMacro.Effect, Buf.content, hlen, window_prefix hfits (Nat.sub_le ..)]

theorem storeParam_spec (hroom : zbbuf.dataOffset.toNat + zbbuf.len.toNat +
      size.toNat ≤ ioBufSize) (param : ℕ → UInt8) :
    ∃ next, zbbuf.store (ioBufSize - size.toNat)
        ((List.range size.toNat).map param) = some next ∧
      next.len = zbbuf.len ∧ next.dataOffset = zbbuf.dataOffset ∧
      next.content = zbbuf.content ∧
      window next.buf (ioBufSize - size.toNat) size.toNat =
        (List.range size.toNat).map param := by
  have hlength : ((List.range size.toNat).map param).length = size.toNat := by
    rw [List.length_map, List.length_range]
  have hinside : ioBufSize - size.toNat +
      ((List.range size.toNat).map param).length ≤ ioBufSize := by
    omega
  obtain ⟨next, hnext⟩ := zbbuf.store_of_le hinside
  obtain ⟨hstore, hlen, hoffset, -⟩ := Buf.store_eq_some hnext
  refine ⟨next, hnext, hlen, hoffset, ?_, ?_⟩
  · rw [Buf.content, Buf.content, hlen, hoffset]
    exact window_store_disjoint hstore (.inl (by omega))
  · have hsame := window_store_same hstore
    rwa [hlength] at hsame

theorem zbBufAssignParam_eq (hfits : zbbuf.Fits)
    (hsize : zbbuf.len.toNat + size.toNat ≤ ioBufSize) (param : ℕ → UInt8) :
    ∃ moved : Buf, zbBufAssignParam zbbuf param size =
        ((zbGetBufTail moved size.toNat).bind fun tail =>
          (moved.store tail ((List.range size.toNat).map param)).map
            fun next => (next, tail)) ∧
      moved.content = zbbuf.content ∧
      moved.dataOffset.toNat + moved.len.toNat + size.toNat ≤ ioBufSize := by
  have hinside := hfits
  unfold Buf.Fits at hinside
  rw [zbBufAssignParam, if_pos hsize]
  by_cases hmove : ioBufSize < zbbuf.dataOffset.toNat + zbbuf.len.toNat + size.toNat
  case neg =>
    refine ⟨zbbuf, ?_, rfl, Nat.not_lt.mp hmove⟩
    rw [if_neg hmove]
    simp only [bind_eq_bind, bind_some, Option.map_eq_bind]
    rfl
  case pos =>
    have hdelta : zbbuf.dataOffset.toNat -
        (zbbuf.dataOffset.toNat + zbbuf.len.toNat + size.toNat - ioBufSize) =
          ioBufSize - (zbbuf.len.toNat + size.toNat) := by
      omega
    generalize hoffset : ioBufSize - (zbbuf.len.toNat + size.toNat) = offset at hdelta
    have hlength := Buf.length_content hfits
    have hload : load zbbuf.buf zbbuf.dataOffset.toNat zbbuf.len.toNat =
        some zbbuf.content := load_of_le hfits
    have hplace : offset + zbbuf.content.length ≤ ioBufSize := by omega
    obtain ⟨moved, hmoved⟩ := zbbuf.store_of_le hplace
    obtain ⟨hstore, hlen, -⟩ := Buf.store_eq_some hmoved
    have hbyte : (UInt8.ofNat offset).toNat = offset := by
      simp only [ioBufSize] at hplace
      simp
      omega
    refine ⟨{ moved with dataOffset := .ofNat offset }, ?_, ?_, ?_⟩
    · rw [if_pos hmove]
      dsimp only
      rw [hdelta, hload, bind_eq_bind, bind_some, hmoved]
      simp only [bind_eq_bind, bind_some, Option.map_eq_bind]
      rfl
    · have hsame := window_store_same hstore
      rw [hlength] at hsame
      rw [Buf.content, hbyte, hlen]
      exact hsame
    · rw [hbyte, hlen]
      omega

theorem correct_assignParam (hfits : zbbuf.Fits) (param : ℕ → UInt8)
    (size : UInt8) : (BufMacro.assignParam param size).Correct zbbuf := by
  intro hsize
  obtain ⟨moved, hmoved, hcontent, hroom⟩ := zbBufAssignParam_eq hfits hsize param
  have htail : zbGetBufTail moved size.toNat = some (ioBufSize - size.toNat) :=
    if_pos (by omega)
  obtain ⟨next, hstore, hlen', hoffset', hcontent', hparam⟩ := storeParam_spec hroom param
  refine ⟨next, ioBufSize - size.toNat, ?_, ?_, ?_, ?_, ?_, hparam⟩
  · rw [BufMacro.exec, hmoved, htail, bind_some, hstore]
    rfl
  · rw [Buf.Fits, hlen', hoffset']
    omega
  · rw [BufMacro.size]
    omega
  · exact hcontent'.trans hcontent
  · rw [hlen', hoffset']
    omega

theorem correct_iff (hfits : zbbuf.Fits) (call : BufMacro) :
    call.Correct zbbuf ↔ call.RoomRight zbbuf := by
  cases call with
  | initialAlloc size => exact iff_of_true (correct_initialAlloc zbbuf size) trivial
  | smartAllocLeft size => exact iff_of_true (correct_smartAllocLeft hfits size) trivial
  | smartAllocRight size => exact correct_smartAllocRight_iff zbbuf size
  | cutLeft size => exact iff_of_true (correct_cutLeft hfits size) trivial
  | cutRight size => exact iff_of_true (correct_cutRight hfits size) trivial
  | assignParam param size =>
    exact iff_of_true (correct_assignParam hfits param size) trivial

end Calls

def Buf.taken (buf : Vector UInt8 ioBufSize) : Buf :=
  { Buf.zeroed with buf }

theorem BufMacro.Correct.fits {zbbuf next : Buf} {call : BufMacro}
    (hcorrect : call.Correct zbbuf) (hasserts : call.Asserts zbbuf)
    (hnext : call.apply zbbuf = some next) : next.Fits := by
  obtain ⟨next', place, hexec, hfits, -⟩ := hcorrect hasserts
  rw [apply, hexec] at hnext
  exact some.inj hnext ▸ hfits

theorem BufMacro.asserts_of_apply {zbbuf next : Buf} {call : BufMacro}
    (hnext : call.apply zbbuf = some next) : call.Asserts zbbuf := by
  by_contra hasserts
  obtain ⟨result, hexec, -⟩ := map_eq_some_iff.mp hnext
  cases call with
  | initialAlloc size =>
    rw [Asserts] at hasserts
    rw [exec, zbBufInitialAlloc, if_neg hasserts] at hexec
    cases hexec
  | smartAllocLeft size =>
    rw [Asserts] at hasserts
    rw [exec, zbBufSmartAllocLeft, if_neg hasserts] at hexec
    cases hexec
  | smartAllocRight size =>
    rw [Asserts] at hasserts
    rw [exec, zbBufSmartAllocRight, if_neg hasserts] at hexec
    cases hexec
  | cutLeft size =>
    rw [Asserts] at hasserts
    rw [exec, zbBufCutLeft, if_neg hasserts] at hexec
    cases hexec
  | cutRight size =>
    rw [Asserts] at hasserts
    rw [exec, zbBufCutRight, if_neg hasserts] at hexec
    cases hexec
  | assignParam param size =>
    rw [Asserts] at hasserts
    rw [exec, zbBufAssignParam, if_neg hasserts] at hexec
    cases hexec

/-- All calls for a buffer from the pool are correct exactly if space on the
right is only taken where it fits behind the data. -/
theorem geometry_correct_iff (buf : Vector UInt8 ioBufSize) (calls : List BufMacro) :
    AlongRun BufMacro.apply (fun zbbuf call => call.Correct zbbuf) (.taken buf) calls ↔
      AlongRun BufMacro.apply (fun zbbuf call => call.RoomRight zbbuf)
        (.taken buf) calls := by
  refine @alongRun_congr _ _ _ _ _ Buf.Fits ?_ ?_ _ _ (Nat.zero_le _)
  · intro zbbuf call hfits
    exact correct_iff hfits call
  · intro zbbuf call next hfits hroom hnext
    exact ((correct_iff hfits call).mpr hroom).fits (BufMacro.asserts_of_apply hnext) hnext

/-- Space for 40 bytes on the right of 100 bytes in the middle of the array:
the assertion holds, and the data end 16 bytes behind the array. -/
theorem not_correct_hundredBytes :
    ¬ AlongRun BufMacro.apply (fun zbbuf call => call.Correct zbbuf)
      (.taken (Vector.replicate ioBufSize 0))
      [.initialAlloc 100, .smartAllocRight 40] := by
  rw [geometry_correct_iff]
  rintro ⟨-, hrest⟩
  have hroom := (hrest _ rfl).1
  exact absurd (hroom (by decide)) (by decide)

end Zboss
