import Mathlib.Data.List.Basic
import Mathlib.Logic.Function.Iterate

/-!
# Cyclic codes

A register of `w` bits is shifted towards its lowest bit, which is fed back
through the polynomial. The remainder of a message is what the register holds
after its bits; it is linear, so that an error is detected exactly if its own
remainder is not zero.
-/

namespace CyclicCode

open Function List

variable {w : ℕ} (poly : BitVec w)

def shift (x : BitVec w) : BitVec w :=
  (x >>> 1) ^^^ (if x.getLsbD 0 then poly else 0#w)

def unit (bit : Bool) : BitVec w := (BitVec.ofBool bit).setWidth w

def feed (x : BitVec w) (bit : Bool) : BitVec w := shift poly (x ^^^ unit bit)

def remainder (x : BitVec w) (bits : List Bool) : BitVec w :=
  bits.foldl (feed poly) x

/-- The register does not hold `y` in the first `n` states from `x` on. -/
def avoids (y : BitVec w) : ℕ → BitVec w → Bool
  | 0, _ => true
  | n + 1, x => x != y && avoids y n (shift poly x)

variable {poly} {x y : BitVec w} {bits bits' : List Bool}

theorem iterate_ne_of_avoids {n k : ℕ} (havoids : avoids poly y n x = true)
    (hk : k < n) : (shift poly)^[k] x ≠ y := by
  induction n generalizing x k with
  | zero => exact absurd hk (Nat.not_lt_zero _)
  | succ n ih =>
    rw [avoids, Bool.and_eq_true, bne_iff_ne] at havoids
    cases k with
    | zero => exact havoids.1
    | succ k =>
      have hrest : (shift poly)^[k] (shift poly x) ≠ y :=
        ih havoids.2 (Nat.lt_of_succ_lt_succ hk)
      exact hrest

theorem xor_xor_xor_comm (x x' y y' : BitVec w) :
    (x ^^^ x') ^^^ (y ^^^ y') = (x ^^^ y) ^^^ (x' ^^^ y') := by
  ac_rfl

theorem shift_xor : shift poly (x ^^^ y) = shift poly x ^^^ shift poly y := by
  rw [shift, shift, shift, BitVec.ushiftRight_xor_distrib, BitVec.getLsbD_xor,
    xor_xor_xor_comm (x >>> 1)]
  cases x.getLsbD 0 <;> cases y.getLsbD 0 <;> simp

@[simp] theorem shift_zero : shift poly 0#w = 0#w := by
  simp [shift]

theorem unit_xor (bit bit' : Bool) :
    (unit (bit ^^ bit') : BitVec w) = unit bit ^^^ unit bit' := by
  cases bit <;> cases bit' <;> simp [unit]

theorem remainder_xor (hlength : bits.length = bits'.length) :
    remainder poly (x ^^^ y) (bits.zipWith xor bits') =
      remainder poly x bits ^^^ remainder poly y bits' := by
  induction bits generalizing bits' x y with
  | nil =>
    obtain rfl := length_eq_zero_iff.mp hlength.symm
    rfl
  | cons bit rest ih =>
    cases bits' with
    | nil => contradiction
    | cons bit' rest' =>
      have hfeed : feed poly (x ^^^ y) (bit ^^ bit') =
          feed poly x bit ^^^ feed poly y bit' := by
        rw [feed, feed, feed, unit_xor, ← shift_xor, xor_xor_xor_comm]
      rw [zipWith_cons_cons, remainder, foldl_cons, hfeed]
      exact ih (Nat.succ.inj hlength)

theorem iterate_shift_xor (n : ℕ) :
    (shift poly)^[n] (x ^^^ y) = (shift poly)^[n] x ^^^ (shift poly)^[n] y := by
  induction n generalizing x y with
  | zero => rfl
  | succ n ih => rw [iterate_succ_apply, shift_xor, ih]; rfl

theorem iterate_shift_zero (n : ℕ) : (shift poly)^[n] 0#w = 0#w :=
  Function.iterate_fixed shift_zero n

theorem eq_zero_of_shift (hpoly : poly.msb = true)
    (hshift : shift poly x = 0#w) : x = 0#w := by
  rw [shift, BitVec.xor_eq_zero_iff] at hshift
  cases hlow : x.getLsbD 0 with
  | true =>
    rw [hlow, if_pos rfl] at hshift
    have hmsb := congrArg BitVec.msb hshift
    rw [hpoly] at hmsb
    simp [BitVec.msb_ushiftRight] at hmsb
  | false =>
    rw [hlow, if_neg Bool.false_ne_true] at hshift
    apply BitVec.eq_of_getLsbD_eq
    intro i hi
    cases i with
    | zero => simpa using hlow
    | succ i =>
      have hbit := congrArg (fun x => x.getLsbD i) hshift
      simpa [Nat.add_comm] using hbit

theorem eq_zero_of_iterate (hpoly : poly.msb = true) {n : ℕ}
    (hshift : (shift poly)^[n] x = 0#w) : x = 0#w := by
  induction n with
  | zero => exact hshift
  | succ n ih =>
    rw [iterate_succ_apply'] at hshift
    exact ih (eq_zero_of_shift hpoly hshift)

theorem remainder_of_count_zero (hcount : bits.count true = 0) :
    remainder poly x bits = (shift poly)^[bits.length] x := by
  induction bits generalizing x with
  | nil => rfl
  | cons bit rest ih =>
    cases bit with
    | true => simp at hcount
    | false =>
      have hfeed : feed poly x false = shift poly x := by simp [feed, unit]
      rw [remainder, foldl_cons, hfeed]
      exact ih (by simpa using hcount)

theorem remainder_split : remainder poly x bits =
      (shift poly)^[bits.length] x ^^^ remainder poly 0#w bits := by
  have hzero : (List.replicate bits.length false).zipWith xor bits = bits := by
    induction bits with
    | nil => rfl
    | cons bit rest ih => simp [replicate_succ, ih]
  have hsplit := @remainder_xor w poly x 0#w (List.replicate bits.length false)
    bits length_replicate
  have hnone : (List.replicate bits.length false).count true = 0 := by
    simp [count_replicate]
  rw [hzero, BitVec.xor_zero, @remainder_of_count_zero w poly x _ hnone,
    length_replicate] at hsplit
  exact hsplit

theorem remainder_succ {n : ℕ} (hcount : bits.count true = n + 1) :
    ∃ rest : List Bool, rest.length < bits.length ∧ rest.count true = n ∧
      remainder poly 0#w bits = (shift poly)^[rest.length + 1] (unit true) ^^^
          remainder poly 0#w rest := by
  induction bits with
  | nil => simp at hcount
  | cons bit rest ih =>
    cases bit with
    | true =>
      refine ⟨rest, Nat.lt_succ_self _, by simpa using hcount, ?_⟩
      rw [remainder, foldl_cons, feed, BitVec.zero_xor, iterate_succ_apply]
      exact remainder_split
    | false =>
      obtain ⟨last, hlength, hlast, heq⟩ := ih (by simpa using hcount)
      refine ⟨last, Nat.lt_succ_of_lt hlength, hlast, ?_⟩
      have hfeed : feed poly 0#w false = 0#w := by simp [feed, unit]
      rw [← heq, remainder, foldl_cons, hfeed, remainder]

/-- One or two wrong bits are detected, as long as the register does not come
back to its lowest bit within the length of the message. -/
theorem remainder_ne_zero (hpoly : poly.msb = true) (hw : 0 < w)
    (hperiod : ∀ n < bits.length, 0 < n → (shift poly)^[n] (unit true) ≠ unit true)
    (hcount : bits.count true = 1 ∨ bits.count true = 2) :
    remainder poly 0#w bits ≠ 0#w := by
  have hunit : (unit true : BitVec w) ≠ 0#w := by
    intro hzero
    have hbit := congrArg (fun x => x.getLsbD 0) hzero
    simp [unit, hw] at hbit
  rcases hcount with hone | htwo
  · obtain ⟨rest, -, hrest, heq⟩ := remainder_succ hone
    rw [heq, remainder_of_count_zero hrest, iterate_shift_zero, BitVec.xor_zero]
    exact fun hzero => hunit (eq_zero_of_iterate hpoly hzero)
  · obtain ⟨rest, hlength, hrest, heq⟩ := remainder_succ htwo
    obtain ⟨last, hlast, hnone, heq'⟩ := remainder_succ hrest
    rw [heq, heq', remainder_of_count_zero hnone, iterate_shift_zero, BitVec.xor_zero]
    obtain ⟨n, hn⟩ := Nat.exists_eq_add_of_lt hlast
    intro hzero
    rw [hn, show last.length + n + 1 + 1 = (last.length + 1) + (n + 1) by omega,
      iterate_add_apply, ← iterate_shift_xor] at hzero
    refine hperiod (n + 1) (by omega) n.succ_pos ?_
    exact BitVec.xor_eq_zero_iff.mp (eq_zero_of_iterate hpoly hzero)

/-- A register which is empty after at most `w` bits has held these bits. -/
theorem getLsbD_of_remainder (hpoly : poly.msb = true) (hlength : bits.length ≤ w)
    (hzero : remainder poly x bits = 0#w) (i : ℕ) :
    x.getLsbD i = bits[i]?.getD false := by
  induction bits generalizing x i with
  | nil =>
    obtain rfl : x = 0#w := hzero
    simp
  | cons bit rest ih =>
    have hrest := ih (Nat.le_of_succ_le hlength) hzero
    have hlow : (x ^^^ unit bit).getLsbD 0 = false := by
      have hmsb := hrest (w - 1)
      rw [getElem?_eq_none (Nat.le_sub_one_of_lt hlength), Option.getD_none,
        ← BitVec.msb_eq_getLsbD_last] at hmsb
      by_contra hset
      rw [Bool.not_eq_false] at hset
      simp [feed, shift, hset, hpoly, BitVec.msb_ushiftRight] at hmsb
    rw [feed, shift, hlow, if_neg Bool.false_ne_true, BitVec.xor_zero] at hrest
    have hw : 0 < w := Nat.lt_of_lt_of_le (Nat.succ_pos _) hlength
    cases i with
    | zero => cases bit <;> simpa [unit, hw] using hlow
    | succ i =>
      have hbit := hrest i
      rw [BitVec.getLsbD_ushiftRight, BitVec.getLsbD_xor] at hbit
      cases bit <;> simpa [unit, Nat.add_comm] using hbit

/-- Wrong bits are detected if they lie within `w` bits in succession. -/
theorem remainder_ne_zero_of_burst (hpoly : poly.msb = true) {k : ℕ}
    (hburst : ∀ i, bits[i]? = some true → k ≤ i ∧ i < k + w)
    (hwrong : true ∈ bits) : remainder poly 0#w bits ≠ 0#w := by
  intro hzero
  induction k generalizing bits with
  | zero =>
    have hrest : (bits.drop w).count true = 0 := by
      rw [count_eq_zero]
      intro hmem
      obtain ⟨i, hi⟩ := mem_iff_getElem?.mp hmem
      rw [getElem?_drop] at hi
      have := hburst _ hi
      omega
    rw [← take_append_drop w bits, remainder, foldl_append] at hzero
    have hfirst := eq_zero_of_iterate hpoly
      ((remainder_of_count_zero hrest).symm.trans hzero)
    obtain ⟨i, hi⟩ := mem_iff_getElem?.mp hwrong
    have hnone := getLsbD_of_remainder hpoly (length_take_le w bits) hfirst i
    rw [getElem?_take_of_lt (by simpa using (hburst i hi).2), hi] at hnone
    simp at hnone
  | succ k ih =>
    cases bits with
    | nil => simp at hwrong
    | cons bit rest =>
      obtain rfl : bit = false := by
        by_contra hbit
        have := (hburst 0 (by simpa using hbit)).1
        omega
      refine ih (fun i hi => ?_) (by simpa using hwrong) (by
        simpa [remainder, feed, unit] using hzero)
      have := hburst (i + 1) hi
      omega

end CyclicCode
