import Zboss.CcmStar
import Zboss.Rijndael
import Mathlib.Data.Finite.Prod

/-!
# AES encryption

The software cipher of `secur_ccm.c`, with its lookup tables.  It is the cipher
of the standard, hence a permutation of the blocks for every key.
-/

namespace Zboss.SecurCcm

open Function Rijndael

def shiftRowsTable : Vector (Fin 16) 16 :=
  #v[0, 5, 10, 15, 4, 9, 14, 3, 8, 13, 2, 7, 12, 1, 6, 11]

def lookupRcon : List UInt8 :=
  [0x8d,0x01,0x02,0x04,0x08,0x10,0x20,0x40,0x80,0x1b,0x36,0x6c,0xd8,0xab,0x4d,0x9a]

def lookupSbox : List UInt8 :=
  [0x63,0x7c,0x77,0x7b,0xf2,0x6b,0x6f,0xc5,0x30,0x01,0x67,0x2b,0xfe,0xd7,0xab,0x76,
   0xca,0x82,0xc9,0x7d,0xfa,0x59,0x47,0xf0,0xad,0xd4,0xa2,0xaf,0x9c,0xa4,0x72,0xc0,
   0xb7,0xfd,0x93,0x26,0x36,0x3f,0xf7,0xcc,0x34,0xa5,0xe5,0xf1,0x71,0xd8,0x31,0x15,
   0x04,0xc7,0x23,0xc3,0x18,0x96,0x05,0x9a,0x07,0x12,0x80,0xe2,0xeb,0x27,0xb2,0x75,
   0x09,0x83,0x2c,0x1a,0x1b,0x6e,0x5a,0xa0,0x52,0x3b,0xd6,0xb3,0x29,0xe3,0x2f,0x84,
   0x53,0xd1,0x00,0xed,0x20,0xfc,0xb1,0x5b,0x6a,0xcb,0xbe,0x39,0x4a,0x4c,0x58,0xcf,
   0xd0,0xef,0xaa,0xfb,0x43,0x4d,0x33,0x85,0x45,0xf9,0x02,0x7f,0x50,0x3c,0x9f,0xa8,
   0x51,0xa3,0x40,0x8f,0x92,0x9d,0x38,0xf5,0xbc,0xb6,0xda,0x21,0x10,0xff,0xf3,0xd2,
   0xcd,0x0c,0x13,0xec,0x5f,0x97,0x44,0x17,0xc4,0xa7,0x7e,0x3d,0x64,0x5d,0x19,0x73,
   0x60,0x81,0x4f,0xdc,0x22,0x2a,0x90,0x88,0x46,0xee,0xb8,0x14,0xde,0x5e,0x0b,0xdb,
   0xe0,0x32,0x3a,0x0a,0x49,0x06,0x24,0x5c,0xc2,0xd3,0xac,0x62,0x91,0x95,0xe4,0x79,
   0xe7,0xc8,0x37,0x6d,0x8d,0xd5,0x4e,0xa9,0x6c,0x56,0xf4,0xea,0x65,0x7a,0xae,0x08,
   0xba,0x78,0x25,0x2e,0x1c,0xa6,0xb4,0xc6,0xe8,0xdd,0x74,0x1f,0x4b,0xbd,0x8b,0x8a,
   0x70,0x3e,0xb5,0x66,0x48,0x03,0xf6,0x0e,0x61,0x35,0x57,0xb9,0x86,0xc1,0x1d,0x9e,
   0xe1,0xf8,0x98,0x11,0x69,0xd9,0x8e,0x94,0x9b,0x1e,0x87,0xe9,0xce,0x55,0x28,0xdf,
   0x8c,0xa1,0x89,0x0d,0xbf,0xe6,0x42,0x68,0x41,0x99,0x2d,0x0f,0xb0,0x54,0xbb,0x16]

def lookupG2 : List UInt8 :=
  [0x00,0x02,0x04,0x06,0x08,0x0a,0x0c,0x0e,0x10,0x12,0x14,0x16,0x18,0x1a,0x1c,0x1e,
   0x20,0x22,0x24,0x26,0x28,0x2a,0x2c,0x2e,0x30,0x32,0x34,0x36,0x38,0x3a,0x3c,0x3e,
   0x40,0x42,0x44,0x46,0x48,0x4a,0x4c,0x4e,0x50,0x52,0x54,0x56,0x58,0x5a,0x5c,0x5e,
   0x60,0x62,0x64,0x66,0x68,0x6a,0x6c,0x6e,0x70,0x72,0x74,0x76,0x78,0x7a,0x7c,0x7e,
   0x80,0x82,0x84,0x86,0x88,0x8a,0x8c,0x8e,0x90,0x92,0x94,0x96,0x98,0x9a,0x9c,0x9e,
   0xa0,0xa2,0xa4,0xa6,0xa8,0xaa,0xac,0xae,0xb0,0xb2,0xb4,0xb6,0xb8,0xba,0xbc,0xbe,
   0xc0,0xc2,0xc4,0xc6,0xc8,0xca,0xcc,0xce,0xd0,0xd2,0xd4,0xd6,0xd8,0xda,0xdc,0xde,
   0xe0,0xe2,0xe4,0xe6,0xe8,0xea,0xec,0xee,0xf0,0xf2,0xf4,0xf6,0xf8,0xfa,0xfc,0xfe,
   0x1b,0x19,0x1f,0x1d,0x13,0x11,0x17,0x15,0x0b,0x09,0x0f,0x0d,0x03,0x01,0x07,0x05,
   0x3b,0x39,0x3f,0x3d,0x33,0x31,0x37,0x35,0x2b,0x29,0x2f,0x2d,0x23,0x21,0x27,0x25,
   0x5b,0x59,0x5f,0x5d,0x53,0x51,0x57,0x55,0x4b,0x49,0x4f,0x4d,0x43,0x41,0x47,0x45,
   0x7b,0x79,0x7f,0x7d,0x73,0x71,0x77,0x75,0x6b,0x69,0x6f,0x6d,0x63,0x61,0x67,0x65,
   0x9b,0x99,0x9f,0x9d,0x93,0x91,0x97,0x95,0x8b,0x89,0x8f,0x8d,0x83,0x81,0x87,0x85,
   0xbb,0xb9,0xbf,0xbd,0xb3,0xb1,0xb7,0xb5,0xab,0xa9,0xaf,0xad,0xa3,0xa1,0xa7,0xa5,
   0xdb,0xd9,0xdf,0xdd,0xd3,0xd1,0xd7,0xd5,0xcb,0xc9,0xcf,0xcd,0xc3,0xc1,0xc7,0xc5,
   0xfb,0xf9,0xff,0xfd,0xf3,0xf1,0xf7,0xf5,0xeb,0xe9,0xef,0xed,0xe3,0xe1,0xe7,0xe5]

def lookupG3 : List UInt8 :=
  [0x00,0x03,0x06,0x05,0x0c,0x0f,0x0a,0x09,0x18,0x1b,0x1e,0x1d,0x14,0x17,0x12,0x11,
   0x30,0x33,0x36,0x35,0x3c,0x3f,0x3a,0x39,0x28,0x2b,0x2e,0x2d,0x24,0x27,0x22,0x21,
   0x60,0x63,0x66,0x65,0x6c,0x6f,0x6a,0x69,0x78,0x7b,0x7e,0x7d,0x74,0x77,0x72,0x71,
   0x50,0x53,0x56,0x55,0x5c,0x5f,0x5a,0x59,0x48,0x4b,0x4e,0x4d,0x44,0x47,0x42,0x41,
   0xc0,0xc3,0xc6,0xc5,0xcc,0xcf,0xca,0xc9,0xd8,0xdb,0xde,0xdd,0xd4,0xd7,0xd2,0xd1,
   0xf0,0xf3,0xf6,0xf5,0xfc,0xff,0xfa,0xf9,0xe8,0xeb,0xee,0xed,0xe4,0xe7,0xe2,0xe1,
   0xa0,0xa3,0xa6,0xa5,0xac,0xaf,0xaa,0xa9,0xb8,0xbb,0xbe,0xbd,0xb4,0xb7,0xb2,0xb1,
   0x90,0x93,0x96,0x95,0x9c,0x9f,0x9a,0x99,0x88,0x8b,0x8e,0x8d,0x84,0x87,0x82,0x81,
   0x9b,0x98,0x9d,0x9e,0x97,0x94,0x91,0x92,0x83,0x80,0x85,0x86,0x8f,0x8c,0x89,0x8a,
   0xab,0xa8,0xad,0xae,0xa7,0xa4,0xa1,0xa2,0xb3,0xb0,0xb5,0xb6,0xbf,0xbc,0xb9,0xba,
   0xfb,0xf8,0xfd,0xfe,0xf7,0xf4,0xf1,0xf2,0xe3,0xe0,0xe5,0xe6,0xef,0xec,0xe9,0xea,
   0xcb,0xc8,0xcd,0xce,0xc7,0xc4,0xc1,0xc2,0xd3,0xd0,0xd5,0xd6,0xdf,0xdc,0xd9,0xda,
   0x5b,0x58,0x5d,0x5e,0x57,0x54,0x51,0x52,0x43,0x40,0x45,0x46,0x4f,0x4c,0x49,0x4a,
   0x6b,0x68,0x6d,0x6e,0x67,0x64,0x61,0x62,0x73,0x70,0x75,0x76,0x7f,0x7c,0x79,0x7a,
   0x3b,0x38,0x3d,0x3e,0x37,0x34,0x31,0x32,0x23,0x20,0x25,0x26,0x2f,0x2c,0x29,0x2a,
   0x0b,0x08,0x0d,0x0e,0x07,0x04,0x01,0x02,0x13,0x10,0x15,0x16,0x1f,0x1c,0x19,0x1a]

variable {n : ℕ}

def xor (a b : Vector UInt8 n) : Vector UInt8 n :=
  Vector.zipWith (fun x y => x ^^^ y) a b

def subBytes (a : Vector UInt8 n) : Vector UInt8 n :=
  a.map fun v => lookupSbox.getD v.toNat 0

/-! ## The round keys -/

def keyScheduleCore (a : Vector UInt8 4) (i : ℕ) : Vector UInt8 4 :=
  let a := subBytes #v[a[1], a[2], a[3], a[0]]
  a.set 0 (a[0] ^^^ lookupRcon.getD i 0)

/-- Octets of the array `keys`. -/
def readKeys (keys : ℕ → UInt8) (n start : ℕ) : Vector UInt8 n :=
  Vector.ofFn fun j => keys (start + j)

def writeKeys (keys : ℕ → UInt8) (start : ℕ) (t : Vector UInt8 n) (i : ℕ) :
    UInt8 :=
  if h : start ≤ i ∧ i < start + n then t[i - start] else keys i

/-- The next word, from the previous one and the word 16 octets before. -/
def appendWord (change : Vector UInt8 4 → Vector UInt8 4) (keys : ℕ → UInt8)
    (bytes : ℕ) : ℕ → UInt8 :=
  writeKeys keys bytes
    (xor (change (readKeys keys 4 (bytes - 4))) (readKeys keys 4 (bytes - 16)))

def expandLoop (keys : ℕ → UInt8) (bytes i : ℕ) : ℕ → UInt8 :=
  if bytes < 176 then
    let keys := appendWord (keyScheduleCore · i) keys bytes
    let keys := (List.range 3).foldl
      (fun keys j => appendWord id keys (bytes + 4 + 4 * j)) keys
    expandLoop keys (bytes + 16) (i + 1)
  else keys
termination_by 176 - bytes

/-- `stack` is what the array holds before. -/
def expandKey (stack : ℕ → UInt8) (key : CcmKey) : ℕ → UInt8 :=
  expandLoop (writeKeys stack 0 key) 16 1

/-! ## The rounds -/

def xorRoundKey (state : CcmBlock) (keys : ℕ → UInt8) (round : ℕ) : CcmBlock :=
  xor state (readKeys keys 16 (round * 16))

def shiftRows (state : CcmBlock) : CcmBlock :=
  shiftRowsTable.map fun i => state[i]

def mixCol (state : Vector UInt8 4) : Vector UInt8 4 :=
  let g2 (a : UInt8) := lookupG2.getD a.toNat 0
  let g3 (a : UInt8) := lookupG3.getD a.toNat 0
  let a0 := state[0]
  let a1 := state[1]
  let a2 := state[2]
  let a3 := state[3]
  #v[g2 a0 ^^^ g3 a1 ^^^ a2 ^^^ a3, g2 a1 ^^^ g3 a2 ^^^ a3 ^^^ a0,
    g2 a2 ^^^ g3 a3 ^^^ a0 ^^^ a1, g2 a3 ^^^ g3 a0 ^^^ a1 ^^^ a2]

/-- `mix_col` at `state`, `state + 4`, `state + 8` and `state + 12`. -/
def mixCols (state : CcmBlock) : CcmBlock :=
  Vector.ofFn fun i =>
    (mixCol (Vector.ofFn fun j => state[4 * (i.val / 4) + j.val]))[i.val % 4]

def aes128 (stack : ℕ → UInt8) : Aes128 := fun key msg =>
  let keys := expandKey stack key
  let c := xorRoundKey msg keys 0
  let c := (List.range 9).foldl
    (fun c i => xorRoundKey (mixCols (shiftRows (subBytes c))) keys (i + 1)) c
  xorRoundKey (shiftRows (subBytes c)) keys 10

/-! ## The tables -/

theorem sbox_eq (v : UInt8) : lookupSbox.getD v.toNat 0 = subByte v := by
  revert v
  apply forall_octet
  decide +kernel

theorem g2_eq (v : UInt8) : lookupG2.getD v.toNat 0 = scale 2 v := by
  revert v
  apply forall_octet
  decide +kernel

theorem g3_eq (v : UInt8) : lookupG3.getD v.toNat 0 = scale 3 v := by
  revert v
  apply forall_octet
  decide +kernel

theorem rcon_eq : ∀ i < 11, 0 < i → lookupRcon.getD i 0 = roundConstant i := by
  decide +kernel

theorem subByte_injective : Injective subByte := by
  have hindex : ∀ v : UInt8, (lookupSbox.map UInt8.toNat).findIdx
      (Nat.beq (lookupSbox.getD v.toNat 0).toNat) = v.toNat := by
    apply forall_octet
    decide +kernel
  intro x y heq
  rw [← sbox_eq, ← sbox_eq] at heq
  exact UInt8.toNat_inj.mp ((hindex x).symm.trans (heq ▸ hindex y))

/-! ## Conformance -/

/-- The columns of a block. -/
def columns (v : CcmBlock) : Rijndael.State := fun c r => v[4 * c.val + r.val]

theorem columns_injective : Injective columns := by
  intro v w heq
  refine Vector.ext fun j hj => ?_
  have hcell := congrFun (congrFun heq ⟨j / 4, by omega⟩)
    ⟨j % 4, Nat.mod_lt _ (by decide)⟩
  simpa [columns, Nat.div_add_mod] using hcell

theorem columns_xor (v w : CcmBlock) :
    columns (xor v w) = addRoundKey (columns w) (columns v) := by
  funext c r
  simp [columns, xor, addRoundKey]

theorem columns_subBytes (v : CcmBlock) :
    columns (subBytes v) = Rijndael.subBytes (columns v) := by
  funext c r
  simp only [columns, subBytes, Vector.getElem_map, sbox_eq, Rijndael.subBytes]

theorem columns_shiftRows (v : CcmBlock) :
    columns (shiftRows v) = Rijndael.shiftRows (columns v) := by
  funext c r
  fin_cases c <;> fin_cases r <;>
    simp [columns, shiftRows, shiftRowsTable, Rijndael.shiftRows]

theorem mixCol_eq (a : Vector UInt8 4) (r : Fin 4) :
    (mixCol a)[r] = mixColumn (fun j => a[j]) r := by
  simp only [mixCol, g2_eq, g3_eq, mixColumn]
  fin_cases r <;> rfl

theorem columns_mixCols (v : CcmBlock) : columns (mixCols v) = mixColumns (columns v) := by
  funext c r
  have hcol : (4 * c.val + r.val) / 4 = c.val := by omega
  have hrow : (4 * c.val + r.val) % 4 = r.val := by omega
  refine Eq.trans ?_ (mixCol_eq (Vector.ofFn (columns v c)) r) |>.trans ?_
  · simp [columns, mixCols, hcol, hrow]
    rfl
  · simp [mixColumns]

/-- The first `n` words of the array are those of the expanded key. -/
def Expanded (keys : ℕ → UInt8) (key : CcmKey) (n : ℕ) : Prop :=
  ∀ i < n, ∀ r : Fin 4, keys (4 * i + r.val) = word (columns key) i r

variable {keys : ℕ → UInt8} {key : CcmKey} {i : ℕ}

theorem Expanded.readKeys (hkeys : Expanded keys key n) (hi : i < n)
    (r : Fin 4) : (readKeys keys 4 (4 * i))[r] = word (columns key) i r := by
  simpa [SecurCcm.readKeys] using hkeys i hi r

theorem Expanded.appendWord
    {change : Vector UInt8 4 → Vector UInt8 4} (hkeys : Expanded keys key n)
    (hn : 4 ≤ n)
    (hchange : ∀ (w : Vector UInt8 4) (r : Fin 4),
      (change w)[r] = schedule n (fun j => w[j]) r) :
    Expanded (appendWord change keys (4 * n)) key (n + 1) := by
  intro i hi r
  rw [SecurCcm.appendWord, writeKeys]
  by_cases hlast : i = n
  · subst hlast
    have hprev : 4 * i - 4 = 4 * (i - 1) := by omega
    have hold : 4 * i - 16 = 4 * (i - 4) := by omega
    have hword : word (columns key) i r = word (columns key) (i - 4) r ^^^
          schedule i (word (columns key) (i - 1)) r := by
      rw [word, dif_neg (by omega)]
    have hrow : (fun j : Fin 4 => (SecurCcm.readKeys keys 4 (4 * (i - 1)))[j]) =
        word (columns key) (i - 1) :=
      funext fun j => hkeys.readKeys (by omega) j
    rw [dif_pos ⟨by omega, by omega⟩, hword, ← hrow,
      ← hkeys.readKeys (by omega) r, ← hchange, hprev, hold, UInt8.xor_comm]
    simp [xor]
  · rw [dif_neg (by omega)]
    exact hkeys i (by omega) r

theorem keyScheduleCore_eq (hi : i < 11) (hpos : 0 < i) (w : Vector UInt8 4) (r : Fin 4) :
    (keyScheduleCore w i)[r] = schedule (4 * i) (fun j => w[j]) r := by
  have hrcon := rcon_eq i hi hpos
  rw [schedule, if_pos (by omega), Nat.mul_div_cancel_left i (by decide)]
  fin_cases r <;> simp [keyScheduleCore, subBytes, ← sbox_eq, ← hrcon]

theorem Expanded.expandLoop (hkeys : Expanded keys key (4 * i)) (hi : i ≤ 11)
    (hpos : 0 < i) : Expanded (expandLoop keys (16 * i) i) key 44 := by
  induction hleft : 11 - i generalizing keys i with
  | zero =>
      obtain rfl : i = 11 := by omega
      rw [SecurCcm.expandLoop, if_neg (by decide)]
      exact hkeys
  | succ left ih =>
      rw [SecurCcm.expandLoop, if_pos (by omega)]
      have hcore := hkeys.appendWord (by omega)
        (keyScheduleCore_eq (by omega) hpos)
      have hsame : ∀ k, k % 4 ≠ 0 → ∀ (w : Vector UInt8 4) (r : Fin 4),
          (id w)[r] = schedule k (fun j => w[j]) r := by
        intro k hk w r
        rw [schedule, if_neg hk]
        rfl
      have hnext : Expanded _ key (4 * i + 4) :=
        ((hcore.appendWord (by omega) (hsame (4 * i + 1) (by omega))).appendWord
          (by omega) (hsame (4 * i + 2) (by omega))).appendWord
          (by omega) (hsame (4 * i + 3) (by omega))
      simp only [mul_add, ← mul_assoc, Nat.reduceMul] at hnext
      exact ih (i := i + 1) hnext (by omega) (by omega) (by omega)

theorem expanded_expandKey (stack : ℕ → UInt8) (key : CcmKey) :
    Expanded (expandKey stack key) key 44 := by
  have hkey : Expanded (writeKeys stack 0 key) key 4 := by
    intro i hi r
    rw [writeKeys, dif_pos (by omega), word, dif_pos hi]
    rfl
  exact hkey.expandLoop (i := 1) (by decide) (by decide)

theorem columns_xorRoundKey (hkeys : Expanded keys key 44) (state : CcmBlock)
    {round : ℕ} (hround : round ≤ 10) :
    columns (xorRoundKey state keys round) =
      addRoundKey (roundKey (columns key) round) (columns state) := by
  rw [xorRoundKey, columns_xor]
  congr 1
  funext c r
  have hword := hkeys (4 * round + c) (by omega) r
  rw [roundKey, ← hword]
  simp [columns, readKeys]
  congr 1
  omega

theorem columns_rounds (hkeys : Expanded keys key 44) (hn : n ≤ 9) (c : CcmBlock) :
    columns ((List.range n).foldl (fun c i =>
        xorRoundKey (mixCols (shiftRows (subBytes c))) keys (i + 1)) c) =
      (List.range n).foldl (fun s i =>
        Rijndael.round (roundKey (columns key) (i + 1)) s) (columns c) := by
  induction n with
  | zero => rfl
  | succ n ih =>
      simp only [List.range_succ, List.foldl_append, List.foldl_cons, List.foldl_nil]
      rw [columns_xorRoundKey hkeys _ (by omega), columns_mixCols,
        columns_shiftRows, columns_subBytes, ih (by omega), Rijndael.round]

theorem columns_aes128 (stack : ℕ → UInt8) (key : CcmKey) (msg : CcmBlock) :
    columns (aes128 stack key msg) = cipher (columns key) (columns msg) := by
  have hkeys := expanded_expandKey stack key
  rw [aes128, columns_xorRoundKey hkeys _ (by decide), columns_shiftRows,
    columns_subBytes, columns_rounds hkeys (by decide),
    columns_xorRoundKey hkeys _ (by decide), cipher]

/-- The software cipher is the cipher of the standard, whatever the stack held
before. -/
theorem aes128_conforms (stack : ℕ → UInt8) (key : CcmKey) (msg : CcmBlock) :
    aes128 stack key msg = .ofFn fun i =>
      cipher (columns key) (columns msg) ⟨i / 4, by omega⟩
        ⟨i % 4, Nat.mod_lt _ (by decide)⟩ := by
  ext i hi
  rw [← columns_aes128 stack]
  simp [columns, Nat.div_add_mod]

theorem aes128_injective (stack : ℕ → UInt8) (key : CcmKey) :
    Injective (aes128 stack key) := by
  intro v w heq
  have hcolumns := congrArg columns heq
  rw [columns_aes128, columns_aes128] at hcolumns
  exact columns_injective (cipher_injective subByte_injective _ hcolumns)

instance finite_block : Finite CcmBlock :=
  have : Finite UInt8 := Finite.of_injective UInt8.toFin fun _ _ => UInt8.toFin_inj.mp
  Finite.of_injective columns columns_injective

/-- Distinct blocks have distinct images, and every block is one. -/
theorem aes128_bijective (stack : ℕ → UInt8) (key : CcmKey) :
    Bijective (aes128 stack key) :=
  Finite.injective_iff_bijective.mp (aes128_injective stack key)

theorem nonceBlock_injective
    {flags flags' : UInt8} {nonce nonce' : CcmNonce} {number number' : UInt16}
    (heq : nonceBlock flags nonce number = nonceBlock flags' nonce' number') :
    flags = flags' ∧ nonce = nonce' ∧ number = number' := by
  have hbytes : ∀ (flags : UInt8) (nonce : CcmNonce) (number : UInt16),
      (nonceBlock flags nonce number).toList =
        flags :: (nonce.toList ++ htobe16 number) := by
    intro flags nonce number
    apply List.ext_getElem <;>
      simp [nonceBlock, blockAt, BlockCipherMode.paddedBlock, htobe16]
  have hlists := congrArg Vector.toList heq
  rw [hbytes, hbytes, List.cons.injEq] at hlists
  obtain ⟨hnonce, hnumber⟩ := List.append_inj hlists.2 (by simp)
  simp only [htobe16, List.cons.injEq] at hnumber
  refine ⟨hlists.1, Vector.toList_inj.mp hnonce, ?_⟩
  have hhigh := congrArg UInt8.toNat hnumber.1
  have hlow := congrArg UInt8.toNat hnumber.2.1
  simp only [UInt16.toNat_toUInt8, UInt16.toNat_shiftRight] at hhigh hlow
  apply UInt16.toNat_inj.mp
  have hlt := number.toNat_lt
  have hlt' := number'.toNat_lt
  simp at hhigh
  rw [Nat.shiftRight_eq_div_pow, Nat.shiftRight_eq_div_pow] at hhigh
  omega

/-- Two counters for which the cipher gives the same block of key stream are
those of the same nonce, and none gives a block of the authentication. -/
theorem aes128_counterBlock_inj
    (stack stack' : ℕ → UInt8) (key : CcmKey) (flags flags' : UInt8)
    (nonce nonce' : CcmNonce) (i j : UInt16) :
    aes128 stack key (nonceBlock flags nonce i) =
        aes128 stack' key (nonceBlock flags' nonce' j) ↔
      flags = flags' ∧ nonce = nonce' ∧ i = j := by
  constructor
  · intro heq
    have hcolumns := congrArg columns heq
    rw [columns_aes128, columns_aes128] at hcolumns
    exact nonceBlock_injective
      (columns_injective (cipher_injective subByte_injective _ hcolumns))
  · rintro ⟨rfl, rfl, rfl⟩
    apply columns_injective
    rw [columns_aes128, columns_aes128]

end Zboss.SecurCcm
