import Mathlib.Data.List.Induction
import Mathlib.Data.List.Nodup

/-!
# First occurrences

A loop over a list collects those values whose key is not among the ones which
it has collected.  The result has each key once, with the first value which has
it.
-/

namespace FirstOccurrences

open List

variable {α κ : Type*} [DecidableEq κ] (key : α → κ)

def step (kept : List α) (x : α) : List α :=
  if ∃ y ∈ kept, key y = key x then kept else kept ++ [x]

def collect (values : List α) : List α := values.foldl (step key) []

variable {key} {values : List α} {x y : α} {k : κ}

theorem collect_append_singleton (values : List α) (x : α) :
    collect key (values ++ [x]) = step key (collect key values) x := by
  rw [collect, foldl_append]
  rfl

theorem mem_collect : x ∈ collect key values ↔
      values.find? (fun y => key y = key x) = some x := by
  induction values using List.reverseRecOn generalizing x with
  | nil => exact iff_of_false not_mem_nil nofun
  | append_singleton values y ih =>
    rw [collect_append_singleton, List.find?_append, step]
    cases hfound : values.find? (fun z => key z = key y) with
    | some first =>
      have hkey : key first = key y := by simpa using List.find?_some hfound
      have hkept : ∃ z ∈ collect key values, key z = key y := by
        refine ⟨first, ih.mpr ?_, hkey⟩
        rw [hkey]
        exact hfound
      rw [if_pos hkept, ih]
      cases hold : values.find? (fun z => key z = key x) with
      | some z => simp
      | none =>
        have hne : key y ≠ key x := by
          intro heq
          rw [← heq, hfound] at hold
          contradiction
        simp [hne]
    | none =>
      have hnew : ¬ ∃ z ∈ collect key values, key z = key y := by
        rintro ⟨z, hz, hkey⟩
        rw [ih, hkey, hfound] at hz
        contradiction
      rw [if_neg hnew, mem_append, ih, mem_singleton]
      cases hold : values.find? (fun z => key z = key x) with
      | some z =>
        have hne : x ≠ y := by
          rintro rfl
          rw [hfound] at hold
          contradiction
        simp [hne]
      | none =>
        by_cases heq : x = y
        · simp [heq]
        · have hne : y ≠ x := fun h => heq h.symm
          simp [heq, hne]

theorem exists_mem_collect :
    (∃ y ∈ collect key values, key y = k) ↔ ∃ y ∈ values, key y = k := by
  constructor
  · rintro ⟨y, hy, hkey⟩
    exact ⟨y, mem_of_find?_eq_some (mem_collect.mp hy), hkey⟩
  · rintro ⟨y, hy, hkey⟩
    have hsome : (values.find? (fun z => key z = k)).isSome :=
      List.find?_isSome.mpr ⟨y, hy, by simpa using hkey⟩
    obtain ⟨first, hfirst⟩ := Option.isSome_iff_exists.mp hsome
    have hsame : key first = k := by simpa using List.find?_some hfirst
    refine ⟨first, mem_collect.mpr ?_, hsame⟩
    rw [hsame]
    exact hfirst

theorem nodup_collect : ((collect key values).map key).Nodup := by
  induction values using List.reverseRecOn with
  | nil => exact nodup_nil
  | append_singleton values x ih =>
    rw [collect_append_singleton, step]
    split
    · exact ih
    · rename_i hnew
      rw [map_append, nodup_append]
      refine ⟨ih, nodup_singleton _, ?_⟩
      intro k hk k' hk' heq
      obtain ⟨y, hy, rfl⟩ := mem_map.mp hk
      rw [map_singleton, mem_singleton] at hk'
      exact hnew ⟨y, hy, heq.trans hk'⟩

end FirstOccurrences
