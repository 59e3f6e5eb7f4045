import Mathlib.Data.List.Infix
import Mathlib.Tactic.Ring

/-!
# Addresses in a tree of nested blocks

A node at level `k` owns a block of addresses: its own one, one block for each
of `m` inner children at level `k - 1`, and one address for each of `l` leaves.
A node is known by the path of slots which leads to it, and its address is the
sum of the offsets along the path.
-/

namespace TreeAddressing

open List

inductive Slot where
  | inner (i : ℕ)
  | leaf (j : ℕ)
  deriving DecidableEq

section Blocks

variable (m l : ℕ)

def blockSize : ℕ → ℕ
  | 0 => 1
  | k + 1 => 1 + m * blockSize k + l

/-- The offset of a slot in a block whose inner children are at level `k`. -/
def slotOffset (k : ℕ) : Slot → ℕ
  | .inner i => 1 + i * blockSize m l k
  | .leaf j => 1 + m * blockSize m l k + j

def offset : ℕ → List Slot → ℕ
  | _, [] => 0
  | 0, _ :: _ => 0
  | k + 1, slot :: rest => slotOffset m l k slot + offset k rest

def Valid : ℕ → List Slot → Prop
  | _, [] => True
  | 0, _ :: _ => False
  | k + 1, .inner i :: rest => i < m ∧ Valid k rest
  | _ + 1, .leaf j :: rest => j < l ∧ rest = []

end Blocks

variable {m l k : ℕ} {path other : List Slot}

theorem valid_nil : Valid m l k [] := by
  cases k <;> trivial

theorem offset_nil : offset m l k [] = 0 := by
  cases k <;> rfl

theorem blockSize_pos : 0 < blockSize m l k := by
  cases k with
  | zero => exact Nat.one_pos
  | succ k => rw [blockSize]; omega

theorem blockSize_le_succ : m * blockSize m l k < blockSize m l (k + 1) := by
  rw [blockSize]
  omega

theorem blockSize_mono (hm : 1 ≤ m) {k' : ℕ} (hle : k ≤ k') :
    blockSize m l k ≤ blockSize m l k' := by
  induction hle with
  | refl => exact Nat.le_refl _
  | step _ ih =>
    refine ih.trans ?_
    exact (Nat.le_mul_of_pos_left _ hm).trans blockSize_le_succ.le

theorem inner_block_le {i : ℕ} (hi : i < m) :
    i * blockSize m l k + blockSize m l k ≤ m * blockSize m l k := by
  calc i * blockSize m l k + blockSize m l k = (i + 1) * blockSize m l k := by ring
    _ ≤ m * blockSize m l k := Nat.mul_le_mul_right _ hi

theorem offset_lt_blockSize (hvalid : Valid m l k path) :
    offset m l k path < blockSize m l k := by
  induction path generalizing k with
  | nil =>
    rw [offset]
    exact blockSize_pos
  | cons slot rest ih =>
    cases k with
    | zero => exact absurd hvalid id
    | succ k =>
      rw [offset, blockSize]
      cases slot with
      | inner i =>
        obtain ⟨hi, hrest⟩ := hvalid
        have hblock := @inner_block_le m l k i hi
        have hinside := ih hrest
        rw [slotOffset]
        omega
      | leaf j =>
        obtain ⟨hj, rfl⟩ := hvalid
        rw [slotOffset, offset]
        omega

theorem length_le_of_valid (hvalid : Valid m l k path) : path.length ≤ k := by
  induction path generalizing k with
  | nil => exact Nat.zero_le _
  | cons slot rest ih =>
    cases k with
    | zero => exact absurd hvalid id
    | succ k =>
      cases slot with
      | inner i => exact Nat.succ_le_succ (ih hvalid.2)
      | leaf j =>
        obtain ⟨-, rfl⟩ := hvalid
        exact Nat.succ_le_succ (Nat.zero_le _)

theorem inner_unique
    {i i' a a' : ℕ} (ha : a < blockSize m l k) (ha' : a' < blockSize m l k)
    (heq : i * blockSize m l k + a = i' * blockSize m l k + a') :
    i = i' ∧ a = a' := by
  have hdiv : ∀ n b, b < blockSize m l k →
      (n * blockSize m l k + b) / blockSize m l k = n := by
    intro n b hb
    rw [Nat.add_comm, Nat.add_mul_div_right _ _ blockSize_pos,
      Nat.div_eq_of_lt hb, Nat.zero_add]
  have hi : i = i' := by rw [← hdiv i a ha, heq, hdiv i' a' ha']
  subst hi
  exact ⟨rfl, Nat.add_left_cancel heq⟩

theorem offset_injective (hpath : Valid m l k path) (hother : Valid m l k other)
    (heq : offset m l k path = offset m l k other) :
    path = other := by
  induction path generalizing k other with
  | nil =>
    cases other with
    | nil => rfl
    | cons slot rest =>
      cases k with
      | zero => exact absurd hother id
      | succ k =>
        cases slot with
        | inner i => rw [offset, offset, slotOffset] at heq; omega
        | leaf j => rw [offset, offset, slotOffset] at heq; omega
  | cons slot rest ih =>
    cases k with
    | zero => exact absurd hpath id
    | succ k =>
      cases other with
      | nil =>
        cases slot with
        | inner i => rw [offset, offset, slotOffset] at heq; omega
        | leaf j => rw [offset, offset, slotOffset] at heq; omega
      | cons slot' rest' =>
        rw [offset, offset] at heq
        cases slot with
        | inner i =>
          obtain ⟨hi, hrest⟩ := hpath
          have hinside := offset_lt_blockSize hrest
          cases slot' with
          | inner i' =>
            obtain ⟨hi', hrest'⟩ := hother
            have hinside' := offset_lt_blockSize hrest'
            rw [slotOffset, slotOffset] at heq
            have hsum : i * blockSize m l k + offset m l k rest =
                i' * blockSize m l k + offset m l k rest' := by
              omega
            obtain ⟨rfl, hsame⟩ := inner_unique hinside hinside' hsum
            rw [ih hrest hrest' hsame]
          | leaf j =>
            have hblock := @inner_block_le m l k i hi
            rw [slotOffset, slotOffset] at heq
            omega
        | leaf j =>
          obtain ⟨hj, rfl⟩ := hpath
          cases slot' with
          | inner i' =>
            obtain ⟨hi', hrest'⟩ := hother
            have hinside' := offset_lt_blockSize hrest'
            have hblock := @inner_block_le m l k i' hi'
            rw [slotOffset, slotOffset, offset] at heq
            omega
          | leaf j' =>
            obtain ⟨hj', rfl⟩ := hother
            rw [slotOffset, slotOffset] at heq
            have hsame : j = j' := by omega
            rw [hsame]

def innerPath (slots : List ℕ) : List Slot := slots.map .inner

variable {slots : List ℕ}

@[simp] theorem length_innerPath : (innerPath slots).length = slots.length :=
  length_map _

theorem valid_innerPath_append (hslots : ∀ i ∈ slots, i < m) (hlength : slots.length ≤ k) :
    Valid m l k (innerPath slots ++ other) ↔
      Valid m l (k - slots.length) other := by
  induction slots generalizing k with
  | nil => exact Iff.rfl
  | cons i rest ih =>
    cases k with
    | zero => exact absurd hlength (Nat.not_succ_le_zero _)
    | succ k =>
      rw [length_cons, Nat.add_sub_add_right, ← ih
        (fun i' hi' => hslots i' (mem_cons_of_mem i hi'))
        (Nat.le_of_succ_le_succ hlength)]
      exact and_iff_right (hslots i mem_cons_self)

theorem offset_innerPath_append (hlength : slots.length ≤ k) :
    offset m l k (innerPath slots ++ other) = offset m l k (innerPath slots) +
        offset m l (k - slots.length) other := by
  induction slots generalizing k with
  | nil => simp [innerPath, offset]
  | cons i rest ih =>
    cases k with
    | zero => exact absurd hlength (Nat.not_succ_le_zero _)
    | succ k =>
      rw [length_cons, Nat.add_sub_add_right]
      change slotOffset m l k (.inner i) + offset m l k (innerPath rest ++ other) =
        slotOffset m l k (.inner i) + offset m l k (innerPath rest) + _
      rw [ih (Nat.le_of_succ_le_succ hlength), Nat.add_assoc]

theorem block_le_blockSize (hslots : ∀ i ∈ slots, i < m) (hlength : slots.length ≤ k) :
    offset m l k (innerPath slots) + blockSize m l (k - slots.length) ≤
      blockSize m l k := by
  induction slots generalizing k with
  | nil =>
    change offset m l k [] + blockSize m l (k - 0) ≤ _
    rw [offset_nil, Nat.zero_add, Nat.sub_zero]
  | cons i rest ih =>
    cases k with
    | zero => exact absurd hlength (Nat.not_succ_le_zero _)
    | succ k =>
      have hrest := ih (fun i' hi' => hslots i' (mem_cons_of_mem i hi'))
        (Nat.le_of_succ_le_succ hlength)
      have hblock := @inner_block_le m l k i (hslots i mem_cons_self)
      rw [length_cons, Nat.add_sub_add_right, blockSize]
      change slotOffset m l k (.inner i) + offset m l k (innerPath rest) + _ ≤ _
      rw [slotOffset]
      omega

theorem exists_below_of_offset (hslots : ∀ i ∈ slots, i < m) (hlength : slots.length ≤ k)
    (hvalid : Valid m l k path)
    (hlow : offset m l k (innerPath slots) ≤ offset m l k path)
    (hhigh : offset m l k path <
      offset m l k (innerPath slots) + blockSize m l (k - slots.length)) :
    ∃ rest, path = innerPath slots ++ rest := by
  induction slots generalizing k path with
  | nil => exact ⟨path, rfl⟩
  | cons i others ih =>
    cases k with
    | zero => exact absurd hlength (Nat.not_succ_le_zero _)
    | succ k =>
      have hothers : ∀ i' ∈ others, i' < m := fun i' hi' =>
        hslots i' (mem_cons_of_mem i hi')
      have hlength' : others.length ≤ k := Nat.le_of_succ_le_succ hlength
      have hblock := @inner_block_le m l k i (hslots i mem_cons_self)
      have hinside := @block_le_blockSize m l k others hothers hlength'
      rw [length_cons, Nat.add_sub_add_right] at hhigh
      change slotOffset m l k (.inner i) + offset m l k (innerPath others) ≤ _ at hlow
      change _ < slotOffset m l k (.inner i) + offset m l k (innerPath others) + _ at hhigh
      rw [slotOffset] at hlow hhigh
      cases path with
      | nil =>
        rw [offset] at hlow
        omega
      | cons slot rest =>
        rw [offset] at hlow hhigh
        cases slot with
        | leaf j =>
          rw [slotOffset] at hhigh
          omega
        | inner i' =>
          obtain ⟨hi', hrest⟩ := hvalid
          have hlt := offset_lt_blockSize hrest
          rw [slotOffset] at hlow hhigh
          have hpos : 0 < blockSize m l (k - others.length) := blockSize_pos
          obtain ⟨a, ha⟩ := Nat.exists_eq_add_of_le hlow
          have hsame : i = i' := by
            refine (@inner_unique m l k i i' (offset m l k (innerPath others) + a)
              (offset m l k rest) ?_ hlt ?_).1
            · omega
            · omega
          subst hsame
          obtain ⟨below, hbelow⟩ := ih hothers hlength' hrest (by omega) (by omega)
          exact ⟨below, by rw [hbelow]; rfl⟩

end TreeAddressing
