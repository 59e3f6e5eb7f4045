import Mathlib.Algebra.Order.Ring.Nat

/-!
# Numbers in memory

The bytes of a number in one of the two orders.  A number which fits is read
back from its bytes, and any bytes are those of the number read from them.
-/

inductive ByteOrder where
  | littleEndian
  | bigEndian
  deriving DecidableEq

namespace ByteOrder

open List

def shift (order : ByteOrder) (size k : ℕ) : ℕ :=
  match order with
  | littleEndian => k
  | bigEndian => size - 1 - k

def byte (order : ByteOrder) (size val k : ℕ) : UInt8 :=
  UInt8.ofNat (val / 256 ^ order.shift size k)

def bytes (order : ByteOrder) (size val : ℕ) : List UInt8 :=
  (List.range size).map (order.byte size val)

def ofBytes (order : ByteOrder) (cells : List UInt8) : ℕ :=
  match order with
  | littleEndian => cells.foldr (fun byte val => byte.toNat + 256 * val) 0
  | bigEndian => cells.foldl (fun val byte => byte.toNat + 256 * val) 0

variable {order : ByteOrder} {size val : ℕ} {cells : List UInt8}

@[simp] theorem length_bytes (order : ByteOrder) (size val : ℕ) :
    (order.bytes size val).length = size := by
  rw [bytes, length_map, length_range]

theorem getElem_bytes {k : ℕ} (hk : k < (order.bytes size val).length) :
    (order.bytes size val)[k] = order.byte size val k := by
  simp [bytes]

theorem bytes_littleEndian_succ (size val : ℕ) : littleEndian.bytes (size + 1) val =
      UInt8.ofNat val :: littleEndian.bytes size (val / 256) := by
  rw [bytes, range_succ_eq_map, map_cons, map_map, bytes]
  congr 1
  · rw [byte, shift, Nat.pow_zero, Nat.div_one]
  · apply map_congr_left
    intro k _
    rw [Function.comp_apply, byte, byte, shift, shift, Nat.pow_succ', Nat.div_div_eq_div_mul]

theorem ofBytes_littleEndian_cons (cell : UInt8) (rest : List UInt8) :
    littleEndian.ofBytes (cell :: rest) =
      cell.toNat + 256 * littleEndian.ofBytes rest := rfl

theorem ofBytes_littleEndian_lt (cells : List UInt8) :
    littleEndian.ofBytes cells < 256 ^ cells.length := by
  induction cells with
  | nil => exact Nat.one_pos
  | cons cell rest ih =>
    have hcell : cell.toNat < 256 := cell.toNat_lt
    rw [ofBytes_littleEndian_cons, length_cons, Nat.pow_succ']
    omega

theorem ofBytes_bytes_littleEndian (hval : val < 256 ^ size) :
    littleEndian.ofBytes (littleEndian.bytes size val) = val := by
  induction size generalizing val with
  | zero =>
    rw [Nat.pow_zero, Nat.lt_one_iff] at hval
    rw [hval]
    rfl
  | succ size ih =>
    have hrest : val / 256 < 256 ^ size := by
      rw [Nat.pow_succ'] at hval
      exact Nat.div_lt_of_lt_mul hval
    rw [bytes_littleEndian_succ, ofBytes_littleEndian_cons, ih hrest]
    exact Nat.mod_add_div val 256

theorem bytes_ofBytes_littleEndian (cells : List UInt8) :
    littleEndian.bytes cells.length (littleEndian.ofBytes cells) = cells := by
  induction cells with
  | nil => rfl
  | cons cell rest ih =>
    have hcell : cell.toNat < 256 := cell.toNat_lt
    have hrest : (cell.toNat + 256 * littleEndian.ofBytes rest) / 256 =
        littleEndian.ofBytes rest := by
      omega
    rw [length_cons, bytes_littleEndian_succ, ofBytes_littleEndian_cons, hrest, ih]
    congr 1
    apply UInt8.toNat_inj.mp
    rw [UInt8.toNat_ofNat']
    omega

theorem bytes_bigEndian (size val : ℕ) :
    bigEndian.bytes size val = (littleEndian.bytes size val).reverse := by
  refine ext_getElem (by simp) fun k hk hk' => ?_
  rw [getElem_bytes, getElem_reverse, getElem_bytes, length_bytes]
  rfl

theorem ofBytes_bigEndian (cells : List UInt8) :
    bigEndian.ofBytes cells = littleEndian.ofBytes cells.reverse :=
  foldr_reverse.symm

theorem ofBytes_bytes (order : ByteOrder) (hval : val < 256 ^ size) :
    order.ofBytes (order.bytes size val) = val := by
  cases order with
  | littleEndian => exact ofBytes_bytes_littleEndian hval
  | bigEndian =>
    rw [ofBytes_bigEndian, bytes_bigEndian, reverse_reverse]
    exact ofBytes_bytes_littleEndian hval

theorem bytes_ofBytes (order : ByteOrder) (hlength : cells.length = size) :
    order.bytes size (order.ofBytes cells) = cells := by
  subst hlength
  cases order with
  | littleEndian => exact bytes_ofBytes_littleEndian cells
  | bigEndian =>
    rw [ofBytes_bigEndian, bytes_bigEndian, ← length_reverse,
      bytes_ofBytes_littleEndian, reverse_reverse]

theorem ofBytes_lt (order : ByteOrder) (hlength : cells.length = size) :
    order.ofBytes cells < 256 ^ size := by
  subst hlength
  cases order with
  | littleEndian => exact ofBytes_littleEndian_lt cells
  | bigEndian =>
    rw [ofBytes_bigEndian, ← length_reverse]
    exact ofBytes_littleEndian_lt _

theorem forall_uint8 {p : UInt8 → Prop} (hp : ∀ bits : BitVec 8, p ⟨bits⟩)
    (byte : UInt8) : p byte :=
  hp byte.toBitVec

theorem or_and (a b mask : UInt8) : (a ||| b) &&& mask = a &&& mask ||| b &&& mask :=
  UInt8.toBitVec_inj.mp BitVec.and_or_distrib_right

theorem or_shift (a b n : UInt8) : (a ||| b) >>> n = a >>> n ||| b >>> n :=
  UInt8.toBitVec_inj.mp (BitVec.ushiftRight_or_distrib _ _ _)

end ByteOrder
