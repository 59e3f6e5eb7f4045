import Zboss.CcmMode
import Zboss.CcmRoundTrip

/-!
# CCM* conformance

The routines of `secur_ccm.c` compute the transformations of CCM* with 2 octets
for lengths and 4 for tags, over whatever the cipher is.
-/

namespace Zboss

open BlockCipherMode BoundedMemory CcmMode

def standardCcm (aes128 : Aes128) (key : CcmKey) (nonce : CcmNonce) : CcmMode.Ccm where
  l := ccmL
  m := zbCcmM
  encrypt := aes128 key
  nonce := nonce.toList

section Conformance

variable (aes128 : Aes128) (key : CcmKey) (nonce : CcmNonce)

theorem htobe16_ofNat (number : ℕ) :
    htobe16 (.ofNat number) = ByteOrder.bigEndian.bytes 2 number := by
  have hhigh : (UInt16.ofNat number >>> 8).toUInt8 = UInt8.ofNat (number / 256) := by
    apply UInt8.toNat_inj.mp
    simp [Nat.shiftRight_eq_div_pow]
    omega
  have hlow : (UInt16.ofNat number).toUInt8 = UInt8.ofNat number := by
    apply UInt8.toNat_inj.mp
    simp
  rw [htobe16, hhigh, hlow]
  simp [ByteOrder.bytes, ByteOrder.byte, ByteOrder.shift, List.range_succ]

theorem nonceBlock_eq (flags number : ℕ) :
    nonceBlock (.ofNat flags) nonce (.ofNat number) =
      (standardCcm aes128 key nonce).nonceBlock flags number := by
  rw [nonceBlock, htobe16_ofNat, blockAt, paddedBlock, CcmMode.Ccm.nonceBlock, block]
  simp only [Nat.mul_zero, Nat.zero_add]
  rfl

theorem counterBlock_eq (i : ℕ) : counterBlock nonce (.ofNat i) =
      (standardCcm aes128 key nonce).counter i :=
  nonceBlock_eq aes128 key nonce _ i

theorem authTag_eq {stringA : List UInt8} (hne : stringA ≠ []) (stringM : List UInt8) :
    ccmTag aes128 key nonce stringA stringM =
      (standardCcm aes128 key nonce).authTag stringA stringM := by
  have hflags : authFlags zbCcmM =
      .ofNat ((standardCcm aes128 key nonce).authFlags stringA) := by
    rw [CcmMode.Ccm.authFlags, if_neg hne]
    exact (by decide : authFlags zbCcmM =
      .ofNat (64 * 1 + 8 * ((zbCcmM - 2) / 2) + (ccmL - 1)))
  have hwhole : 16 ∣ (addAuthData stringA).length := by
    rw [addAuthData, if_neg hne, length_padded]
    exact Nat.dvd_mul_right ..
  rw [ccmTag, authTrans_eq_chain, hflags, nonceBlock_eq aes128 key,
    htobe16_ofNat, paddedBlocks_eq_blocks,
    paddedBlocks_eq_blocks, CcmMode.Ccm.authTag,
    blocks_append hwhole, addAuthData, if_neg hne]
  rfl

theorem ciphertext_eq (stringM : List UInt8) :
    xorStream (ccmStream aes128 key nonce 1) stringM =
      (standardCcm aes128 key nonce).ciphertext stringM := by
  have hcounter : ∀ k, counterBlock nonce (1 + .ofNat k) =
      (standardCcm aes128 key nonce).counter (k + 1) := by
    intro k
    rw [← counterBlock_eq, Nat.add_comm k 1, UInt16.ofNat_add]
    rfl
  rw [ciphertext_eq_combine, xorStream, ccmStream]
  simp only [hcounter]
  rfl

theorem encryptedTag_eq {stringA : List UInt8} (hne : stringA ≠ [])
    (stringM : List UInt8) :
    xorStream (ccmStream aes128 key nonce 0) (ccmTag aes128 key nonce stringA stringM) =
      (standardCcm aes128 key nonce).encryptedTag stringA stringM := by
  have hshort : (ccmTag aes128 key nonce stringA stringM).length ≤ 16 := by
    rw [length_ccmTag]
    decide
  rw [xorStream, ccmStream, combine_keystream_short _ _ hshort,
    CcmMode.Ccm.encryptedTag, ← authTag_eq aes128 key nonce hne,
    ← counterBlock_eq]
  rfl

/-- Encryption gives `a || C || U` of CCM*, as long as no buffer is overrun,
and decryption accepts the tag of the decrypted text only. -/
theorem zbCcm_conforms {stringA : List UInt8} (hne : stringA ≠ []) :
    (∀ (stringM : List UInt8) (cryptedText : Buf),
      stringA.length + stringM.length + zbCcmM ≤ 125 →
        ∃ buf, zbCcmEncryptNAuth aes128 key nonce stringA stringM cryptedText = some buf ∧
          buf.content = stringA ++ ((standardCcm aes128 key nonce).ciphertext stringM ++
              (standardCcm aes128 key nonce).encryptedTag stringA stringM)) ∧
      ∀ (buf : Buf) (stringC u : List UInt8), buf.Fits →
        buf.content = stringA ++ (stringC ++ u) → u.length = zbCcmM →
          stringC.length + 16 ≤ ioBufSize →
            ∃ buf' ret, zbCcmDecryptNAuth aes128 key nonce buf stringA.length
                (stringC.length + zbCcmM) = some (buf', ret) ∧
              (ret = .ok () ↔ u = (standardCcm aes128 key nonce).encryptedTag stringA
                  ((standardCcm aes128 key nonce).ciphertext stringC)) := by
  constructor
  · intro stringM cryptedText hlength
    obtain ⟨buf, hencrypt, -, -, hcontent⟩ :=
      zbCcmEncryptNAuth_spec aes128 key nonce cryptedText hlength
    refine ⟨buf, hencrypt, ?_⟩
    rw [hcontent, ccmCiphertext, ciphertext_eq, encryptedTag_eq aes128 key nonce hne]
  · intro buf stringC u hfits hcontent hu hroom
    obtain ⟨buf', ret, hdecrypt, -, -, -, hret⟩ :=
      zbCcmDecryptNAuth_spec aes128 key nonce hfits hcontent hu hroom
    refine ⟨buf', ret, hdecrypt, ?_⟩
    rw [← encryptedTag_eq aes128 key nonce hne, ← ciphertext_eq]
    split at hret
    case isTrue htag =>
      refine iff_of_true hret.1 ?_
      rw [← htag, xorStream_xorStream]
    case isFalse htag =>
      refine iff_of_false (hret.1 ▸ nofun) fun heq => htag ?_
      rw [heq, xorStream_xorStream]

end Conformance

/-- One octet is authenticated and another one encrypted. -/
theorem zbCcm_conforms_twoOctets : ∃ buf, zbCcmEncryptNAuth xor16 (Vector.replicate 16 7)
        (Vector.replicate 13 1) [1] [2] .zeroed = some buf ∧
      buf.content = [1] ++ ((standardCcm xor16 (Vector.replicate 16 7)
            (Vector.replicate 13 1)).ciphertext [2] ++
          (standardCcm xor16 (Vector.replicate 16 7)
            (Vector.replicate 13 1)).encryptedTag [1] [2]) :=
  (zbCcm_conforms xor16 _ _ (List.cons_ne_nil 1 [])).1 [2] .zeroed (by decide)

end Zboss
