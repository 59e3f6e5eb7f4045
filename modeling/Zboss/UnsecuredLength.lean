import Zboss.UnauthenticatedFrames

/-!
# The length of what is decrypted

`zb_nwk_unsecure_frame` computes the size of the header from the frame control
and subtracts it from the length of the frame before it compares.  A frame
which is shorter than its header has a payload of almost four gigabytes.
-/

namespace Zboss

open Option

/-- `payload_size`, in the 32 bits of `zb_ushort_t`. -/
def payloadSize (nsdu : Buf) (hdrSize : ℕ) : UInt32 :=
  nsdu.len.toUInt32 - .ofNat hdrSize

def checkedHdr (zg : Globals) (nsdu : Buf) (mhr : MacMhr) (junkRef : ℕ) :
    Option NwkFrameHdr :=
  if zg.authenticated then do
    let hdr ← readNwkHdr nsdu
    match ← locateSender zg mhr hdr junkRef with
    | (_, .error _) => none
    | (zg, .ok n) =>
        match checkFrame (zg.neighbor.baseNeighbor n)
            (securNwkKeyBySeq zg.nib hdr.aux.keySeqNumber) hdr.aux with
        | (_, .error _) => none
        | (_, .ok _) => some hdr
  else none

/-- `string_a_len` and `string_c_len` of the call of
`zb_ccm_decrypt_n_auth_stdsecur`, if there is one. -/
def ccmDecryptCall (zg : Globals) (nsdu : Buf) (mhr : MacMhr) (junkRef : ℕ) :
    Option (ℕ × UInt32) :=
  (checkedHdr zg nsdu mhr junkRef).bind fun hdr =>
    let size := payloadSize nsdu hdr.hdrSize
    if size.toNat < zbCcmM then none else some (hdr.hdrSize, size)

section Lengths

variable {zg : Globals} {nsdu : Buf} {mhr : MacMhr} {junkRef hdrSize : ℕ}

theorem zbNwkHdrSize_le (fctl : UInt8) : zbNwkHdrSize fctl ≤ 39 := by
  have hbit : ∀ byte : UInt8, (byte &&& 1).toNat ≤ 1 := by
    intro byte
    rw [UInt8.toNat_and]
    exact Nat.and_le_right
  have hmulticast := hbit fctl
  have hdst := hbit (fctl >>> 3)
  have hsrc := hbit (fctl >>> 4)
  rw [zbNwkHdrSize]
  split <;> omega

theorem hdrSize_le_of_readNwkHdr {hdr : NwkFrameHdr}
    (hread : readNwkHdr nsdu = some hdr) : hdr.hdrSize ≤ 39 := by
  obtain ⟨fctl, -, hrest⟩ := bind_eq_some_iff.mp hread
  obtain ⟨auxPos, -, hrest⟩ := bind_eq_some_iff.mp hrest
  obtain ⟨aux, -, hrest⟩ := bind_eq_some_iff.mp hrest
  obtain ⟨byte0, -, hrest⟩ := bind_eq_some_iff.mp hrest
  obtain ⟨byte1, -, hrest⟩ := bind_eq_some_iff.mp hrest
  exact some.inj hrest ▸ zbNwkHdrSize_le fctl

theorem readNwkHdr_of_checkedHdr {hdr : NwkFrameHdr}
    (hchecked : checkedHdr zg nsdu mhr junkRef = some hdr) :
    readNwkHdr nsdu = some hdr := by
  rw [checkedHdr] at hchecked
  split at hchecked
  case isFalse => cases hchecked
  case isTrue =>
    obtain ⟨hdr', hread, hrest⟩ := bind_eq_some_iff.mp hchecked
    obtain ⟨⟨zg', located⟩, -, hrest⟩ := bind_eq_some_iff.mp hrest
    cases located with
    | error err => cases hrest
    | ok n =>
      dsimp only at hrest
      split at hrest
      · cases hrest
      · exact some.inj hrest ▸ hread

/-- The difference wraps around exactly below the size of the header. -/
theorem toNat_payloadSize (nsdu : Buf) (hhdr : hdrSize ≤ 39) :
    (payloadSize nsdu hdrSize).toNat =
      if hdrSize ≤ nsdu.len.toNat then nsdu.len.toNat - hdrSize
      else 2 ^ 32 + nsdu.len.toNat - hdrSize := by
  have hlen := nsdu.len.toNat_lt
  rw [payloadSize, UInt32.toNat_sub, UInt8.toNat_toUInt32, UInt32.toNat_ofNat']
  split <;> omega

/-- The header and the payload which are handed over lie inside the frame, which
is long enough for its tag. -/
def WithinFrame (zg : Globals) (nsdu : Buf) (mhr : MacMhr) (junkRef : ℕ) :
    Prop :=
  ∀ hdrSize size, ccmDecryptCall zg nsdu mhr junkRef = some (hdrSize, size) →
    hdrSize + zbCcmM ≤ nsdu.len.toNat ∧ hdrSize + size.toNat ≤ nsdu.len.toNat

/-- No byte behind the frame is decrypted exactly if a frame which passes the
other checks is as long as its header. -/
theorem withinFrame_iff (zg : Globals) (nsdu : Buf) (mhr : MacMhr) (junkRef : ℕ) :
    WithinFrame zg nsdu mhr junkRef ↔ ∀ hdr ∈ checkedHdr zg nsdu mhr junkRef,
        hdr.hdrSize ≤ nsdu.len.toNat := by
  rw [WithinFrame, ccmDecryptCall]
  cases hchecked : checkedHdr zg nsdu mhr junkRef with
  | none => exact iff_of_true nofun nofun
  | some hdr =>
      have hhdr := hdrSize_le_of_readNwkHdr (readNwkHdr_of_checkedHdr hchecked)
      have hsize := toNat_payloadSize nsdu hhdr
      have hmic : zbCcmM = 4 := rfl
      rw [bind_some]
      dsimp only
      constructor
      · intro hwithin hdr' hhdr'
        obtain rfl := some.inj hhdr'
        by_contra hlong
        rw [if_neg hlong] at hsize
        have hcall := hwithin _ _ (if_neg (by omega))
        omega
      · intro hlong hdrSize size hcall
        have hle := hlong hdr rfl
        rw [if_pos hle] at hsize
        split at hcall
        case isTrue => cases hcall
        case isFalse hmin =>
          obtain ⟨rfl, rfl⟩ := Prod.mk.inj (some.inj hcall)
          omega

end Lengths

/-- The frame of ten bytes passes the checks with what an earlier frame has left
in the buffer: its header has 22 bytes. -/
theorem not_withinFrame_tenBytes :
    ¬ WithinFrame childReceiver { forgedFrame with len := 10 } forgedMhr 0 := by
  intro hwithin
  have hcall : ccmDecryptCall childReceiver { forgedFrame with len := 10 }
      forgedMhr 0 = some (22, 4294967284) := by
    decide +kernel
  exact absurd (hwithin _ _ hcall).1 (by decide)

end Zboss
