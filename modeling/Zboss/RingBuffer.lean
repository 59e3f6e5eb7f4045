import Mathlib.Data.List.Basic
import Mathlib.Data.Nat.ModEq

/-!
# RingBuf buffers

A ring buffer of a fixed capacity holds the entries from its read index on, as
many as are counted.  Its operations append an entry and remove the first one.
-/

namespace RingBuffer

open List

variable {α : Type*}

structure RingBuf (α : Type*) where
  ringBuf : ℕ → α
  readI : ℕ
  writeI : ℕ
  written : ℕ

namespace RingBuf

def put (capacity : ℕ) (ring : RingBuf α) (entry : α) : RingBuf α where
  ringBuf := Function.update ring.ringBuf ring.writeI entry
  readI := ring.readI
  writeI := (ring.writeI + 1) % capacity
  written := ring.written + 1

def peek (ring : RingBuf α) : Option α :=
  if ring.written = 0 then none else some (ring.ringBuf ring.readI)

def flushGet (capacity : ℕ) (ring : RingBuf α) : RingBuf α where
  ringBuf := ring.ringBuf
  readI := (ring.readI + 1) % capacity
  writeI := ring.writeI
  written := ring.written - 1

def contents (capacity : ℕ) (ring : RingBuf α) : List α :=
  (List.range ring.written).map fun k => ring.ringBuf ((ring.readI + k) % capacity)

structure Valid (capacity : ℕ) (ring : RingBuf α) : Prop where
  readI : ring.readI < capacity
  written : ring.written ≤ capacity
  writeI : ring.writeI = (ring.readI + ring.written) % capacity

variable {capacity : ℕ} {ring : RingBuf α}

@[simp] theorem contents_length : (ring.contents capacity).length = ring.written := by
  simp [contents]

theorem offset_injective {start i j : ℕ} (hi : i < capacity) (hj : j < capacity)
    (heq : (start + i) % capacity = (start + j) % capacity) :
    i = j := by
  have hmod : i ≡ j [MOD capacity] := Nat.ModEq.add_left_cancel' start heq
  rwa [Nat.ModEq, Nat.mod_eq_of_lt hi, Nat.mod_eq_of_lt hj] at hmod

section

variable (hvalid : ring.Valid capacity)

include hvalid

theorem Valid.put (hroom : ring.written < capacity) (entry : α) :
    (ring.put capacity entry).Valid capacity where
  readI := hvalid.readI
  written := hroom
  writeI := by
    change (ring.writeI + 1) % capacity = (ring.readI + (ring.written + 1)) % capacity
    rw [hvalid.writeI, Nat.mod_add_mod, Nat.add_assoc]

theorem Valid.ringBuf_put (hroom : ring.written < capacity)
    (entry : α) {k : ℕ} (hk : k < ring.written) :
    (ring.put capacity entry).ringBuf ((ring.readI + k) % capacity) =
      ring.ringBuf ((ring.readI + k) % capacity) := by
  apply Function.update_of_ne
  rw [hvalid.writeI]
  intro heq
  have hsame := offset_injective (Nat.lt_trans hk hroom) hroom heq
  omega

theorem Valid.contents_put (hroom : ring.written < capacity) (entry : α) :
    (ring.put capacity entry).contents capacity = ring.contents capacity ++ [entry] := by
  have hlast : (ring.put capacity entry).ringBuf
      ((ring.readI + ring.written) % capacity) = entry := by
    rw [← hvalid.writeI]
    exact Function.update_self _ _ _
  change (List.range (ring.written + 1)).map (fun k =>
    (ring.put capacity entry).ringBuf ((ring.readI + k) % capacity)) = _
  rw [range_succ, map_append, map_singleton, hlast]
  congr 1
  apply map_congr_left
  intro k hk
  exact hvalid.ringBuf_put hroom entry (mem_range.mp hk)

theorem Valid.flushGet (hpos : 0 < ring.written) :
    (ring.flushGet capacity).Valid capacity where
  readI := Nat.mod_lt _ (Nat.zero_lt_of_lt hvalid.readI)
  written := Nat.le_trans (Nat.sub_le _ _) hvalid.written
  writeI := by
    change ring.writeI = ((ring.readI + 1) % capacity + (ring.written - 1)) % capacity
    rw [hvalid.writeI, Nat.mod_add_mod]
    congr 1
    omega

theorem peek_eq_head? : ring.peek = (ring.contents capacity).head? := by
  obtain ⟨ringBuf, readI, writeI, written⟩ := ring
  cases written with
  | zero => rfl
  | succ n =>
    have hread : readI % capacity = readI := Nat.mod_eq_of_lt hvalid.readI
    simp [peek, contents, range_succ_eq_map, hread]

end

theorem contents_flushGet (hpos : 0 < ring.written) :
    (ring.flushGet capacity).contents capacity = (ring.contents capacity).tail := by
  obtain ⟨ringBuf, readI, writeI, written⟩ := ring
  obtain ⟨n, rfl⟩ := Nat.exists_eq_add_one_of_ne_zero (Nat.ne_of_gt hpos)
  simp only [contents, flushGet, Nat.add_sub_cancel, range_succ_eq_map,
    map_cons, tail_cons, map_map]
  apply map_congr_left
  intro k _
  simp [Nat.mod_add_mod, Nat.add_assoc, Nat.add_comm 1 k]

end RingBuf

end RingBuffer
