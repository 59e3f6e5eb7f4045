import Zboss.BlockCipherMode
import Zboss.PacketBuffer
import Zboss.StackGlobals

/-!
# CCM* encryption and authentication

The software routines of `secur_ccm.c`.  Lengths are those of the strings;
`aes128` is a parameter of all of them.  A string which is only read is a
list, the buffers which are written are memories of their size.
-/

namespace Zboss

open BlockCipherMode BoundedMemory

def ccmL : ℕ := 2

def zbCcmM : ℕ := 4

abbrev CcmBlock := Vector UInt8 16

abbrev CcmNonce := Vector UInt8 13

abbrev Aes128 := CcmKey → CcmBlock → CcmBlock

def xor16 (v1 v2 : CcmBlock) : CcmBlock :=
  Vector.zipWith (fun x y => x ^^^ y) v1 v2

def htobe16 (val : UInt16) : List UInt8 := [(val >>> 8).toUInt8, val.toUInt8]

def blockAt (p : List UInt8) : CcmBlock := paddedBlock 16 0 p

def nonceBlock (flags : UInt8) (nonce : CcmNonce) (number : UInt16) : CcmBlock :=
  blockAt (flags :: (nonce.toList ++ htobe16 number))

def authLoop (aes128 : Aes128) (key : CcmKey) (t : CcmBlock) (p : List UInt8) :
    CcmBlock :=
  if 16 ≤ p.length then authLoop aes128 key (aes128 key (xor16 t (blockAt p))) (p.drop 16)
  else if p ≠ [] then aes128 key (xor16 t (blockAt p))
  else t
termination_by p.length
decreasing_by
  simp
  omega

/-- The flags of the first block: `(1 << 6) | (L - 1) | (((M - 2) / 2) << 3)`. -/
def authFlags (ccmM : ℕ) : UInt8 :=
  UInt8.ofNat ((1 <<< 6) ||| (ccmL - 1) ||| (((ccmM - 2) / 2) <<< 3))

def authTrans (ccmM : ℕ) (aes128 : Aes128) (key : CcmKey) (nonce : CcmNonce)
    (stringA stringM : List UInt8) : CcmBlock :=
  let b := nonceBlock (authFlags ccmM) nonce (UInt16.ofNat stringM.length)
  let t := aes128 key b
  -- `L(a)` and as much of `a` as fits
  let tmp := blockAt (htobe16 (UInt16.ofNat stringA.length) ++ stringA.take 14)
  let t := aes128 key (xor16 t tmp)
  let t := authLoop aes128 key t (stringA.drop 14)
  authLoop aes128 key t stringM

def counterBlock (nonce : CcmNonce) (i : UInt16) : CcmBlock :=
  nonceBlock (UInt8.ofNat (ccmL - 1)) nonce i

def encryptLoop {size : ℕ} (aes128 : Aes128) (key : CcmKey) (nonce : CcmNonce)
    (encrypted : Vector UInt8 size) (pe : ℕ) (p : List UInt8) (i : UInt16) :
    Option (Vector UInt8 size × ℕ) :=
  let eai := aes128 key (counterBlock nonce i)
  if 16 ≤ p.length then do
    let encrypted ← store encrypted pe (xor16 eai (blockAt p)).toList
    encryptLoop aes128 key nonce encrypted (pe + 16) (p.drop 16) (i + 1)
  else if p ≠ [] then do
    let encrypted ← store encrypted pe (xor16 eai (blockAt p)).toList
    some (encrypted, pe + p.length)
  else some (encrypted, pe)
termination_by p.length
decreasing_by
  simp
  omega

def encryptTrans {size : ℕ} (ccmM : ℕ) (aes128 : Aes128) (key : CcmKey) (nonce : CcmNonce)
    (stringM t : List UInt8) (encrypted : Vector UInt8 size) (pe : ℕ) :
    Option (Vector UInt8 size) := do
  let (encrypted, pe) ←
    encryptLoop aes128 key nonce encrypted pe stringM 1
  let eai := aes128 key (counterBlock nonce 0)
  store encrypted pe (xor16 eai (blockAt (t.take ccmM))).toList

def zbCcmEncryptNAuth (aes128 : Aes128) (key : CcmKey) (nonce : CcmNonce)
    (stringA stringM : List UInt8) (cryptedText : Buf) : Option Buf := do
  let t := authTrans zbCcmM aes128 key nonce stringA stringM
  let cryptedText ←
    zbBufInitialAlloc cryptedText (UInt8.ofNat (stringA.length + stringM.length + zbCcmM))
  let cText := cryptedText.dataOffset.toNat
  let buf ←
    encryptTrans zbCcmM aes128 key nonce stringM t.toList cryptedText.buf
      (cText + stringA.length)
  { cryptedText with buf := buf }.store cText stringA

def zbCcmDecryptNAuth (aes128 : Aes128) (key : CcmKey) (nonce : CcmNonce) (buf : Buf)
    (stringALen stringCLen : ℕ) : Option (Buf × Except RetError Unit) := do
  let begin := buf.dataOffset.toNat
  -- a shorter string underflows and leaves every buffer
  if stringCLen < zbCcmM then none
  else do
    let decryptedTextLen := stringCLen - zbCcmM
    let stringC ← load buf.buf (begin + stringALen) decryptedTextLen
    let u ← load buf.buf (begin + stringALen + decryptedTextLen) zbCcmM
    let decryptedText : Vector UInt8 ioBufSize ←
      encryptTrans zbCcmM aes128 key nonce stringC u (Vector.replicate _ 0) 0
    let stringA ← load buf.buf begin stringALen
    let stringM ← load decryptedText 0 decryptedTextLen
    let tag ← load decryptedText decryptedTextLen zbCcmM
    let t := authTrans zbCcmM aes128 key nonce stringA stringM
    let buf := { buf with len := buf.len - UInt8.ofNat zbCcmM }
    if tag = t.toList.take zbCcmM then
      let buf ← buf.store (begin + stringALen) stringM
      some (buf, .ok ())
    else
      let buf ←
        buf.store (begin + stringALen) (List.replicate decryptedTextLen 0xeb)
      some (buf, .error .error)

end Zboss
