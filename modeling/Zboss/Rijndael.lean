import Mathlib.Data.UInt
import Mathlib.Tactic.FinCases

/-!
# The block cipher Rijndael

The arithmetic of octets, the transformations of a state of four columns and
the expansion of a key of four columns.  If the substitution of octets is
injective, the cipher is injective for every key.
-/

namespace Rijndael

open Function

/-! ## Octets -/

/-- Multiplication by `x` modulo `x ^ 8 + x ^ 4 + x ^ 3 + x + 1`; the bits of
an octet are the coefficients of its polynomial. -/
def xtime (n : ℕ) : ℕ := 2 * n ^^^ n / 128 * 0x11b

def mul (m n : ℕ) : ℕ :=
  (List.range 8).foldr (fun i sum => xtime sum ^^^ m / 2 ^ i % 2 * n) 0

/-- The power `n ^ 254`, which is the inverse of `n ≠ 0`. -/
def inverse (n : ℕ) : ℕ := (fun y => mul (mul y n) (mul y n))^[7] 1

def rotate (n k : ℕ) : ℕ := (n <<< k ||| n >>> (8 - k)) % 256

def affine (n : ℕ) : ℕ :=
  n ^^^ rotate n 1 ^^^ rotate n 2 ^^^ rotate n 3 ^^^ rotate n 4 ^^^ 0x63

def subByte (x : UInt8) : UInt8 := UInt8.ofNat (affine (inverse x.toNat))

/-- The multiple of an octet by a constant. -/
def scale (m : ℕ) (x : UInt8) : UInt8 := UInt8.ofNat (mul m x.toNat)

theorem forall_octet {p : UInt8 → Prop} (h : ∀ n < 256, p (UInt8.ofNat n))
    (x : UInt8) : p x := by
  have hx := h x.toNat x.toNat_lt
  rwa [UInt8.ofNat_toNat] at hx

theorem scale_two (x : UInt8) :
    scale 2 x = x <<< 1 ^^^ if x.toBitVec.getLsbD 7 then 0x1b else 0 := by
  revert x
  apply forall_octet
  decide +kernel

theorem scale_three (x : UInt8) : scale 3 x = scale 2 x ^^^ x := by
  revert x
  apply forall_octet
  decide +kernel

section

theorem xor_xor_self (x y : UInt8) : x ^^^ (x ^^^ y) = y := by
  rw [← UInt8.xor_assoc, UInt8.xor_self, UInt8.zero_xor]

theorem xor_left_comm (x y z : UInt8) : x ^^^ (y ^^^ z) = y ^^^ (x ^^^ z) := by
  rw [← UInt8.xor_assoc, UInt8.xor_comm x, UInt8.xor_assoc]

attribute [local simp] UInt8.xor_assoc UInt8.xor_comm xor_left_comm
  xor_xor_self

theorem scale_two_xor (x y : UInt8) : scale 2 (x ^^^ y) = scale 2 x ^^^ scale 2 y := by
  simp only [scale_two, UInt8.toBitVec_xor, BitVec.getLsbD_xor, UInt8.shiftLeft_xor]
  cases x.toBitVec.getLsbD 7 <;> cases y.toBitVec.getLsbD 7 <;> simp

/-! ## Columns and states -/

abbrev Column := Fin 4 → UInt8

abbrev State := Fin 4 → Column

/-- Multiplication by the polynomial with the coefficients 3, 1, 1 and 2
modulo `x ^ 4 + 1`. -/
def mixColumn (a : Column) : Column := fun r =>
  scale 2 (a r) ^^^ scale 3 (a (r + 1)) ^^^ a (r + 2) ^^^ a (r + 3)

def subBytes (s : State) : State := fun c r => subByte (s c r)

def shiftRows (s : State) : State := fun c r => s (c + r) r

def mixColumns (s : State) : State := fun c => mixColumn (s c)

def addRoundKey (key s : State) : State := fun c r => s c r ^^^ key c r

/-- The square of the polynomial of `mixColumn` is `4 * x ^ 2 + 5`. -/
def mixTwice (a : Column) : Column := fun r =>
  scale 2 (scale 2 (a r ^^^ a (r + 2))) ^^^ a r

theorem mixColumn_xor_next (a : Column) (r : Fin 4) :
    mixColumn a r ^^^ mixColumn a (r + 1) =
      scale 2 (a r ^^^ a (r + 2)) ^^^ (a r ^^^ a (r + 1)) := by
  fin_cases r <;> simp [mixColumn, scale_three, scale_two_xor]

theorem mixColumn_xor_others (a : Column) (r : Fin 4) :
    mixColumn a (r + 1) ^^^ mixColumn a (r + 2) ^^^ mixColumn a (r + 3) =
      scale 2 (a r ^^^ a (r + 1)) ^^^ a r := by
  fin_cases r <;> simp [mixColumn, scale_three, scale_two_xor]

theorem mixColumn_mixColumn (a : Column) : mixColumn (mixColumn a) = mixTwice a := by
  funext r
  calc mixColumn (mixColumn a) r = scale 2 (mixColumn a r ^^^ mixColumn a (r + 1)) ^^^
          (mixColumn a (r + 1) ^^^ mixColumn a (r + 2) ^^^
            mixColumn a (r + 3)) := by
        rw [mixColumn, scale_three, scale_two_xor]
        simp only [UInt8.xor_assoc]
    _ = mixTwice a r := by
        rw [mixColumn_xor_next, mixColumn_xor_others]
        simp [mixTwice, scale_two_xor]

theorem mixTwice_mixTwice (a : Column) : mixTwice (mixTwice a) = a := by
  funext r
  fin_cases r <;> simp [mixTwice, scale_two_xor]

end

theorem mixColumn_injective : Injective mixColumn := by
  intro a b heq
  have htwice : mixTwice a = mixTwice b := by
    rw [← mixColumn_mixColumn, heq, mixColumn_mixColumn]
  rw [← mixTwice_mixTwice a, htwice, mixTwice_mixTwice]

/-! ## The cipher -/

def roundConstant (i : ℕ) : UInt8 := UInt8.ofNat (xtime^[i - 1] 1)

/-- What is added for word `i`, from the previous word. -/
def schedule (i : ℕ) (w : Column) : Column :=
  if i % 4 = 0 then fun r =>
    subByte (w (r + 1)) ^^^ if r = 0 then roundConstant (i / 4) else 0
  else w

def word (key : State) (i : ℕ) : Column :=
  if h : i < 4 then key ⟨i, h⟩
  else fun r => word key (i - 4) r ^^^ schedule i (word key (i - 1)) r

def roundKey (key : State) (n : ℕ) : State := fun c => word key (4 * n + c)

def round (key s : State) : State :=
  addRoundKey key (mixColumns (shiftRows (subBytes s)))

def cipher (key s : State) : State :=
  addRoundKey (roundKey key 10) (shiftRows (subBytes
    ((List.range 9).foldl (fun s i => round (roundKey key (i + 1)) s)
      (addRoundKey (roundKey key 0) s))))

theorem addRoundKey_injective (key : State) : Injective (addRoundKey key) := by
  intro s t heq
  funext c r
  exact (UInt8.xor_left_inj _).mp (congrFun (congrFun heq c) r)

theorem shiftRows_injective : Injective shiftRows := by
  intro s t heq
  funext c r
  simpa [shiftRows] using congrFun (congrFun heq (c - r)) r

theorem foldl_injective {α β : Type*} {f : α → β → α}
    (hf : ∀ b, Injective fun a => f a b) (l : List β) :
    Injective fun a => l.foldl f a := by
  induction l with
  | nil => exact injective_id
  | cons b l ih => exact ih.comp (hf b)

theorem cipher_injective (hsub : Injective subByte) (key : State) :
    Injective (cipher key) := by
  have hbytes : Injective subBytes := hsub.comp_left.comp_left
  have hround : ∀ key, Injective (round key) := fun key =>
    (addRoundKey_injective key).comp
      (mixColumn_injective.comp_left.comp (shiftRows_injective.comp hbytes))
  intro s t heq
  have hlast := hbytes (shiftRows_injective (addRoundKey_injective _ heq))
  exact addRoundKey_injective _
    (foldl_injective (fun i => hround (roundKey key (i + 1))) _ hlast)

end Rijndael
