import Mathlib.Data.List.Basic

/-!
# Memories of a fixed size

A memory is a vector which is read and written in windows.  An access which
leaves the memory fails; what a window holds after a write follows from where
it lies.
-/

namespace BoundedMemory

variable {α : Type*} {size : ℕ}

def window (mem : Vector α size) (offset count : ℕ) : List α :=
  (mem.toList.drop offset).take count

def load (mem : Vector α size) (offset count : ℕ) : Option (List α) :=
  if offset + count ≤ size then some (window mem offset count) else none

def store (mem : Vector α size) (offset : ℕ) (cells : List α) :
    Option (Vector α size) :=
  if hroom : offset + cells.length ≤ size then
    some ⟨(mem.toList.take offset ++
          (cells ++ mem.toList.drop (offset + cells.length))).toArray,
        by
          simp
          omega⟩
  else none

variable {count offset : ℕ} {mem mem' : Vector α size} {cells : List α}

theorem length_window (hroom : offset + count ≤ size) :
    (window mem offset count).length = count := by
  simp [window]
  omega

theorem window_add (mem : Vector α size) (offset m n : ℕ) : window mem offset (m + n) =
      window mem offset m ++ window mem (offset + m) n := by
  simp [window, List.take_add, List.drop_drop]

theorem getElem?_window (mem : Vector α size) (offset count i : ℕ) :
    (window mem offset count)[i]? =
      if i < count then mem.toList[offset + i]? else none := by
  simp [window, List.getElem?_take, List.getElem?_drop]

theorem load_eq_some_iff : load mem offset count = some cells ↔
      offset + count ≤ size ∧ window mem offset count = cells := by
  unfold load
  split
  · rename_i hroom
    simp [hroom]
  · rename_i hroom
    simp [hroom]

theorem load_of_le (hroom : offset + count ≤ size) :
    load mem offset count = some (window mem offset count) :=
  load_eq_some_iff.mpr ⟨hroom, rfl⟩

theorem store_of_le {mem : Vector α size} {offset : ℕ} {cells : List α}
    (hroom : offset + cells.length ≤ size) :
    ∃ mem', store mem offset cells = some mem' :=
  ⟨_, dif_pos hroom⟩

section

variable (hstore : store mem offset cells = some mem')

include hstore

theorem le_of_store :
    offset + cells.length ≤ size := by
  by_contra hover
  simp [store, hover] at hstore

theorem toList_of_store : mem'.toList = mem.toList.take offset ++
        (cells ++ mem.toList.drop (offset + cells.length)) := by
  have hroom := le_of_store hstore
  simp only [store, hroom, dif_pos, Option.some.injEq] at hstore
  rw [← hstore]
  simp [Vector.toList]

theorem getElem?_of_store (i : ℕ) : mem'.toList[i]? =
      if offset ≤ i ∧ i < offset + cells.length then cells[i - offset]?
      else mem.toList[i]? := by
  have hroom := le_of_store hstore
  rw [toList_of_store hstore]
  have hlength : (mem.toList.take offset).length = offset := by
    simp
    omega
  by_cases hbefore : i < offset
  · rw [List.getElem?_append_left (by omega), if_neg (by omega),
      List.getElem?_take_of_lt hbefore]
  · rw [List.getElem?_append_right (by omega), hlength]
    by_cases hinside : i < offset + cells.length
    · rw [List.getElem?_append_left (by omega), if_pos ⟨by omega, hinside⟩]
    · rw [List.getElem?_append_right (by omega), if_neg (by omega), List.getElem?_drop]
      congr 1
      omega

theorem window_store_same : window mem' offset cells.length = cells := by
  apply List.ext_getElem?
  intro i
  rw [getElem?_window, getElem?_of_store hstore]
  by_cases hi : i < cells.length
  · rw [if_pos hi, if_pos ⟨by omega, by omega⟩, Nat.add_sub_cancel_left]
  · rw [if_neg hi, List.getElem?_eq_none (by omega)]

theorem window_store_disjoint {first count : ℕ}
    (hbeside : first + count ≤ offset ∨ offset + cells.length ≤ first) :
    window mem' first count = window mem first count := by
  apply List.ext_getElem?
  intro i
  rw [getElem?_window, getElem?_window]
  by_cases hi : i < count
  · rw [if_pos hi, if_pos hi, getElem?_of_store hstore, if_neg (by omega)]
  · rw [if_neg hi, if_neg hi]

theorem window_store_take (hcount : count ≤ cells.length) :
    window mem' offset count = cells.take count := by
  have hsplit := window_add mem' offset count (cells.length - count)
  rw [Nat.add_sub_cancel' hcount, window_store_same hstore] at hsplit
  have hroom := le_of_store hstore
  have hlength : (window mem' offset count).length = count := length_window (by omega)
  rw [hsplit, List.take_left' hlength]

end

end BoundedMemory
