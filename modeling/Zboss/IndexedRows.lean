import Zboss.PackedArray

/-!
# Rows which refer to a table by index

A relation between values of two types is stored in two arrays: a table of
values of the first type, and rows which hold a value of the second type and an
index into the table.  The lemmas say what the changes of the two arrays do to
the list of pairs which they stand for.
-/

namespace IndexedRows

open PackedArray

variable {α β ρ : Type*}

def resolve (index : ρ → ℕ) (value : ρ → β) (table : ℕ → α)
    (rows : List ρ) : List (α × β) :=
  rows.map fun row => (table (index row), value row)

def shiftDown (s i : ℕ) : ℕ :=
  if s < i then i - 1 else i

variable {index : ρ → ℕ} {value : ρ → β} {table : ℕ → α} {rows : List ρ}

theorem mem_resolve {pair : α × β} : pair ∈ resolve index value table rows ↔
      ∃ row ∈ rows, table (index row) = pair.1 ∧ value row = pair.2 := by
  simp [resolve, Prod.ext_iff]

theorem resolve_append_row (row : ρ) : resolve index value table (rows ++ [row]) =
      resolve index value table rows ++ [(table (index row), value row)] := by
  simp [resolve]

theorem resolve_congr {table' : ℕ → α}
    (heq : ∀ row ∈ rows, table' (index row) = table (index row)) :
    resolve index value table' rows = resolve index value table rows := by
  apply List.map_congr_left
  intro row hrow
  rw [heq row hrow]

theorem resolve_filter [DecidableEq α] [DecidableEq β] {n s : ℕ} {x : β}
    (hdistinct : (live table n).Nodup) (hs : s < n)
    (hindex : ∀ row ∈ rows, index row < n) :
    resolve index value table (rows.filter fun row => ¬ (index row = s ∧ value row = x)) =
      (resolve index value table rows).filter (· ≠ (table s, x)) := by
  rw [resolve, resolve, List.filter_map]
  congr 1
  apply List.filter_congr
  intro row hrow
  have hsame : table (index row) = table s ↔ index row = s := by
    constructor
    · exact nodup_live_iff.mp hdistinct _ _ (hindex row hrow) hs
    · intro heq
      rw [heq]
  simp [hsame]

theorem closeGap_shiftDown {n m s i : ℕ} (hm : n - 1 ≤ m) (hi : i < n) (hne : i ≠ s) :
    closeGap table s m (shiftDown s i) = table i := by
  unfold shiftDown closeGap
  by_cases hlt : s < i
  · rw [if_pos hlt, if_pos (by omega), Nat.sub_add_cancel (by omega)]
  · rw [if_neg hlt, if_neg (by omega)]

theorem resolve_closeGap {n m s : ℕ} {renumber : ρ → ρ} (hm : n - 1 ≤ m)
    (hindex : ∀ row ∈ rows, index row < n)
    (hfree : ∀ row ∈ rows, index row ≠ s)
    (hshift : ∀ row, index (renumber row) = shiftDown s (index row))
    (hvalue : ∀ row, value (renumber row) = value row) :
    resolve index value (closeGap table s m) (rows.map renumber) =
      resolve index value table rows := by
  rw [resolve, resolve, List.map_map]
  apply List.map_congr_left
  intro row hrow
  rw [Function.comp_apply, hshift, hvalue,
    closeGap_shiftDown hm (hindex row hrow) (hfree row hrow)]

end IndexedRows
