import Mathlib.Data.List.GetD
import Mathlib.Tactic.Common

/-!
# Flash memories

A cell of a flash memory can only be cleared further when it is programmed, and
an erase makes a whole region blank again.  Programming a blank region stores
the cells, and storing what is there already changes nothing.
-/

namespace FlashMemory

open Function List

variable {α : Type*}

structure Technology (α : Type*) where
  meld : α → α → α
  blank : α
  blank_meld : ∀ cell, meld blank cell = cell
  meld_self : ∀ cell, meld cell cell = cell

variable {tech : Technology α} {mem : ℕ → α} {pos count : ℕ} {cells : List α}

def erase (tech : Technology α) (mem : ℕ → α) (pos count : ℕ) : ℕ → α :=
  fun x => if pos ≤ x ∧ x < pos + count then tech.blank else mem x

def program (tech : Technology α) : (ℕ → α) → ℕ → List α → ℕ → α
  | mem, _, [] => mem
  | mem, pos, cell :: rest =>
      program tech (update mem pos (tech.meld (mem pos) cell)) (pos + 1) rest

def read (mem : ℕ → α) (pos count : ℕ) : List α :=
  (List.range count).map fun i => mem (pos + i)

@[simp] theorem length_read (mem : ℕ → α) (pos count : ℕ) :
    (read mem pos count).length = count := by
  rw [read, length_map, length_range]

theorem getElem_read {i : ℕ} (hi : i < (read mem pos count).length) :
    (read mem pos count)[i] = mem (pos + i) := by
  simp [read]

theorem read_congr {other : ℕ → α} (hsame : ∀ i < count, mem (pos + i) = other (pos + i)) :
    read mem pos count = read other pos count := by
  apply map_congr_left
  intro i hi
  exact hsame i (mem_range.mp hi)

theorem read_eq_iff (hlength : cells.length = count) : read mem pos count = cells ↔
      ∀ i (hi : i < cells.length), mem (pos + i) = cells[i] := by
  subst hlength
  constructor
  · intro hread i hi
    have hread' : i < (read mem pos cells.length).length := by simpa using hi
    rw [← getElem_read hread']
    exact getElem_of_eq hread hread'
  · intro hcells
    refine ext_getElem (length_read _ _ _) fun i hi hi' => ?_
    rw [getElem_read hi, hcells i hi']

theorem read_add (mem : ℕ → α) (pos m n : ℕ) :
    read mem pos (m + n) = read mem pos m ++ read mem (pos + m) n := by
  simp [read, range_add, Nat.add_assoc]

theorem erase_of_mem {x : ℕ} (hfrom : pos ≤ x) (hto : x < pos + count) :
    erase tech mem pos count x = tech.blank :=
  if_pos ⟨hfrom, hto⟩

theorem erase_of_not_mem {x : ℕ} (hx : x < pos ∨ pos + count ≤ x) :
    erase tech mem pos count x = mem x := by
  apply if_neg
  omega

theorem program_of_not_mem {x : ℕ} (hx : x < pos ∨ pos + cells.length ≤ x) :
    program tech mem pos cells x = mem x := by
  induction cells generalizing mem pos with
  | nil => rfl
  | cons cell rest ih =>
    rw [length_cons] at hx
    rw [program, ih (by omega), update_of_ne (by omega)]

theorem program_of_mem {i : ℕ} (hi : i < cells.length) :
    program tech mem pos cells (pos + i) = tech.meld (mem (pos + i)) cells[i] := by
  induction cells generalizing mem pos i with
  | nil => exact absurd hi (Nat.not_lt_zero i)
  | cons cell rest ih =>
    rw [program]
    cases i with
    | zero =>
      refine (program_of_not_mem (.inl (Nat.lt_add_one pos))).trans ?_
      exact update_self _ _ _
    | succ i =>
      have hi' : i < rest.length := Nat.lt_of_succ_lt_succ hi
      rw [← Nat.add_assoc, Nat.add_right_comm, ih hi', update_of_ne (by omega)]
      rfl

theorem read_program_of_disjoint {start : ℕ}
    (hdisjoint : start + count ≤ pos ∨ pos + cells.length ≤ start) :
    read (program tech mem pos cells) start count = read mem start count := by
  apply read_congr
  intro i hi
  apply program_of_not_mem
  omega

theorem read_program_iff : read (program tech mem pos cells) pos cells.length = cells ↔
      ∀ i (hi : i < cells.length), tech.meld (mem (pos + i)) cells[i] = cells[i] := by
  rw [read_eq_iff rfl]
  refine forall₂_congr fun i hi => ?_
  rw [program_of_mem hi]

theorem read_program_of_blank (hblank : ∀ i < cells.length, mem (pos + i) = tech.blank) :
    read (program tech mem pos cells) pos cells.length = cells := by
  rw [read_program_iff]
  intro i hi
  rw [hblank i hi, tech.blank_meld]

theorem program_read (mem : ℕ → α) (pos count : ℕ) :
    program tech mem pos (read mem pos count) = mem := by
  funext x
  by_cases hx : x < pos ∨ pos + count ≤ x
  · apply program_of_not_mem
    rwa [length_read]
  · obtain ⟨i, rfl⟩ := Nat.exists_eq_add_of_le (Nat.le_of_not_lt fun hlt =>
      hx (.inl hlt))
    have hi : i < (read mem pos count).length := by
      rw [length_read]
      omega
    rw [program_of_mem hi, getElem_read hi, tech.meld_self]

theorem program_read_of_saved {saved : ℕ → α} {x : ℕ}
    (hsaved : ∀ y, pos ≤ y → y < pos + count → mem y = tech.blank ∨ mem y = saved y)
    (hfrom : pos ≤ x) (hto : x < pos + count) :
    program tech mem pos (read saved pos count) x = saved x := by
  have hcell := hsaved x hfrom hto
  obtain ⟨i, rfl⟩ := Nat.exists_eq_add_of_le hfrom
  have hi : i < (read saved pos count).length := by
    rw [length_read]
    omega
  rw [program_of_mem hi, getElem_read hi]
  rcases hcell with hblank | hsame
  · rw [hblank, tech.blank_meld]
  · rw [hsame, tech.meld_self]

theorem program_append (mem : ℕ → α) (pos : ℕ) (front back : List α) :
    program tech mem pos (front ++ back) =
      program tech (program tech mem pos front) (pos + front.length) back := by
  induction front generalizing mem pos with
  | nil => rfl
  | cons cell front ih =>
    rw [cons_append, program, ih, length_cons, program, Nat.add_right_comm, Nat.add_assoc]

end FlashMemory
