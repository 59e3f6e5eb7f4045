import Zboss.BlockCipherMode
import Zboss.ByteOrder
import Mathlib.Data.List.GetD

/-!
# The CCM* mode

The transformations of CCM* on octet strings, with a block cipher for blocks of
16 octets: input transformation, authentication and encryption.  A text which
is padded is the text of its padded blocks, and the encrypted text is the text
combined with a stream.
-/

namespace CcmMode

open BlockCipherMode

abbrev Block := Vector UInt8 16

/-- `l` octets for a length, `m` octets for a tag, and the cipher with its
key. -/
structure Ccm where
  l : ℕ
  m : ℕ
  encrypt : Block → Block
  nonce : List UInt8

def padded (text : List UInt8) : List UInt8 :=
  text ++ List.replicate ((16 - text.length % 16) % 16) 0

def block (data : List UInt8) (i : ℕ) : Block :=
  Vector.ofFn fun j => data.getD (16 * i + j) 0

def blocks (data : List UInt8) : List Block :=
  (List.range (data.length / 16)).map (block data)

def xor (x y : Block) : Block := Vector.zipWith (fun s t => s ^^^ t) x y

/-- `L(a) || a` with its padding, for fewer than `2 ^ 16 - 2 ^ 8` octets. -/
def addAuthData (a : List UInt8) : List UInt8 :=
  if a = [] then []
  else padded (ByteOrder.bigEndian.bytes 2 a.length ++ a)

def plaintextData (text : List UInt8) : List UInt8 := padded text

namespace Ccm

/-- `Reserved || Adata || M || L` -/
def authFlags (ccm : Ccm) (a : List UInt8) : ℕ :=
  64 * (if a = [] then 0 else 1) + 8 * ((ccm.m - 2) / 2) + (ccm.l - 1)

/-- `Flags || N || number` -/
def nonceBlock (ccm : Ccm) (flags number : ℕ) : Block :=
  block (.ofNat flags :: (ccm.nonce ++ ByteOrder.bigEndian.bytes ccm.l number)) 0

/-- `B0` -/
def firstBlock (ccm : Ccm) (a text : List UInt8) : Block :=
  ccm.nonceBlock (ccm.authFlags a) text.length

/-- `A_i` -/
def counter (ccm : Ccm) (i : ℕ) : Block := ccm.nonceBlock (ccm.l - 1) i

/-- The leftmost octets of the chain over `B0 || AddAuthData ||
PlaintextData`. -/
def authTag (ccm : Ccm) (a text : List UInt8) : List UInt8 :=
  (chain ccm.encrypt xor (Vector.replicate 16 0) (ccm.firstBlock a text ::
      blocks (addAuthData a ++ plaintextData text))).toList.take ccm.m

def ciphertext (ccm : Ccm) (text : List UInt8) : List UInt8 :=
  ((List.range ((plaintextData text).length / 16)).flatMap fun i =>
    (xor (ccm.encrypt (ccm.counter (i + 1)))
      (block (plaintextData text) i)).toList).take text.length

def encryptedTag (ccm : Ccm) (a text : List UInt8) : List UInt8 :=
  List.zipWith (fun s t => s ^^^ t) (ccm.encrypt (ccm.counter 0)).toList
    (ccm.authTag a text)

end Ccm

theorem length_padded (text : List UInt8) :
    (padded text).length = 16 * ((text.length + 15) / 16) := by
  rw [padded, List.length_append, List.length_replicate]
  omega

theorem getD_padded (text : List UInt8) (i : ℕ) :
    (padded text).getD i 0 = text.getD i 0 := by
  rw [padded]
  by_cases hi : i < text.length
  · rw [List.getD_append _ _ _ _ hi]
  · rw [List.getD_append_right _ _ _ _ (Nat.not_lt.mp hi),
      List.getD_eq_default _ _ (Nat.not_lt.mp hi)]
    rw [List.getD_eq_getElem?_getD]
    exact List.getElem?_getD_replicate_default_eq ..

theorem block_padded (text : List UInt8) (i : ℕ) :
    block (padded text) i = paddedBlock 16 0 (text.drop (16 * i)) := by
  rw [block, paddedBlock]
  refine congrArg Vector.ofFn (funext fun j => ?_)
  rw [getD_padded, List.getD_eq_getElem?_getD, List.getD_eq_getElem?_getD,
    List.getElem?_drop]

theorem paddedBlocks_eq_blocks (text : List UInt8) :
    paddedBlocks 16 0 text = blocks (padded text) := by
  have hcount : (padded text).length / 16 = (text.length + 15) / 16 := by
    rw [length_padded, Nat.mul_div_cancel_left _ (by decide)]
  rw [blocks, hcount]
  clear hcount
  induction hlength : text.length using Nat.strong_induction_on generalizing text with
  | _ n ih =>
    subst hlength
    by_cases hne : text = []
    · subst hne
      rw [paddedBlocks_nil]
      rfl
    have hpos := List.length_pos_of_ne_nil hne
    have hdrop : (text.drop 16).length = text.length - 16 := List.length_drop
    have hcount : (text.length + 15) / 16 = ((text.drop 16).length + 15) / 16 + 1 := by
      omega
    rw [paddedBlocks_of_ne_nil 0 hne, ih _ (by omega) _ rfl, hcount,
      List.range_succ_eq_map, List.map_cons, List.map_map]
    refine congrArg₂ List.cons ?_ (List.map_congr_left fun i _ => ?_)
    · rw [block_padded]
      rfl
    · have hindex : 16 + 16 * i = 16 * (i + 1) := by omega
      rw [Function.comp_apply, block_padded, block_padded, List.drop_drop, hindex]

theorem blocks_append {data rest : List UInt8} (hwhole : 16 ∣ data.length) :
    blocks (data ++ rest) = blocks data ++ blocks rest := by
  obtain ⟨n, hn⟩ := hwhole
  have hcount : (data ++ rest).length / 16 = n + rest.length / 16 := by
    rw [List.length_append, hn, Nat.mul_add_div (by decide)]
  have hfirst : data.length / 16 = n := by rw [hn, Nat.mul_div_cancel_left _ (by decide)]
  rw [blocks, blocks, blocks, hcount, hfirst, List.range_add, List.map_append,
    List.map_map]
  refine congrArg₂ (· ++ ·) (List.map_congr_left fun i hi => ?_)
    (List.map_congr_left fun i _ => ?_)
  · have hlt := List.mem_range.mp hi
    rw [block, block]
    refine congrArg Vector.ofFn (funext fun j => ?_)
    rw [List.getD_append _ _ _ _ (by omega)]
  · rw [Function.comp_apply, block, block]
    refine congrArg Vector.ofFn (funext fun j => ?_)
    have hindex : 16 * (n + i) + j - 16 * n = 16 * i + j := by omega
    rw [List.getD_append_right _ _ _ _ (by omega), hn, hindex]

theorem getElem?_flatMap_range {α : Type*} {n : ℕ} [NeZero n]
    (f : ℕ → Vector α n) {count p : ℕ} (hp : p < n * count) :
    ((List.range count).flatMap fun i => (f i).toList)[p]? =
      some (keystream f p) := by
  have hn := Nat.pos_of_neZero n
  induction count with
  | zero => omega
  | succ count ih =>
    have hlength : ((List.range count).flatMap
        fun i => (f i).toList).length = n * count := by
      simp [List.length_flatMap, Nat.mul_comm]
    rw [List.range_succ, List.flatMap_append]
    by_cases hlt : p < n * count
    · rw [List.getElem?_append_left (hlength ▸ hlt), ih hlt]
    · rw [Nat.mul_succ] at hp
      have hdiv : p / n = count := by
        rw [Nat.div_eq_iff hn]
        constructor
        · rw [Nat.mul_comm]
          omega
        · rw [Nat.mul_comm]
          omega
      have hmod : p % n = p - n * count := by
        have hsplit := Nat.div_add_mod p n
        rw [hdiv] at hsplit
        omega
      rw [List.getElem?_append_right (by omega), hlength,
        List.flatMap_singleton, keystream]
      simp only [hdiv, ← hmod]
      exact List.getElem?_eq_getElem (by simp [Nat.mod_lt p hn])

theorem combine_keystream_short {α : Type*} {n : ℕ} [NeZero n]
    (op : α → α → α) (f : ℕ → Vector α n) {text : List α}
    (hlength : text.length ≤ n) :
    combine op (keystream f) text = List.zipWith op (f 0).toList text := by
  apply List.ext_getElem
  · simp [hlength]
  · intro i hi _
    rw [length_combine] at hi
    have hin : i < n := Nat.lt_of_lt_of_le hi hlength
    simp [combine, keystream, Nat.div_eq_of_lt hin, Nat.mod_eq_of_lt hin]

theorem ciphertext_eq_combine (ccm : Ccm) (text : List UInt8) :
    ccm.ciphertext text = combine (fun s t => s ^^^ t)
        (keystream fun i => ccm.encrypt (ccm.counter (i + 1))) text := by
  have hcount : (plaintextData text).length / 16 = (text.length + 15) / 16 := by
    rw [plaintextData, length_padded, Nat.mul_div_cancel_left _ (by decide)]
  apply List.ext_getElem?
  intro p
  rw [Ccm.ciphertext, hcount, List.getElem?_take]
  by_cases hp : p < text.length
  case neg =>
    rw [if_neg hp, List.getElem?_eq_none]
    rw [length_combine]
    exact Nat.not_lt.mp hp
  case pos =>
    rw [if_pos hp, getElem?_flatMap_range _ (by omega), combine,
      List.getElem?_mapIdx, List.getElem?_eq_getElem hp, Option.map_some]
    refine congrArg some ?_
    have hmod : p % 16 < 16 := Nat.mod_lt p (by decide)
    have hoctet : (block (plaintextData text) (p / 16))[p % 16] = text[p] := by
      rw [block, Vector.getElem_ofFn, plaintextData, getD_padded,
        Nat.div_add_mod, List.getD_eq_getElem _ _ hp]
    rw [← hoctet]
    exact Vector.getElem_zipWith ..

end CcmMode
