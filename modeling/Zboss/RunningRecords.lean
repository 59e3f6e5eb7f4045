import Mathlib.Data.List.Basic
import Mathlib.Data.List.Induction

/-!
# Running records

A loop over a list keeps one of the values which count, and replaces it by a
later one which overtakes it. A record is a value which counts and overtakes all
records before it.
-/

namespace RunningRecords

open Option List

variable {α : Type*} (counts : α → Prop) (overtakes : α → α → Prop)

def IsRecord (values : List α) (i : ℕ) : Prop :=
  ∃ x, values[i]? = some x ∧ counts x ∧
    ∀ j (_ : j < i), IsRecord values j → ∀ y, values[j]? = some y → overtakes x y
termination_by i

def IsLastRecord (values : List α) (i : ℕ) (x : α) : Prop :=
  values[i]? = some x ∧ IsRecord counts overtakes values i ∧
    ∀ j, IsRecord counts overtakes values j → j ≤ i

variable [DecidablePred counts] [DecidableRel overtakes]

def step (kept : Option α) (x : α) : Option α :=
  if counts x ∧ ∀ old ∈ kept, overtakes x old then some x else kept

def scan (values : List α) : Option α := values.foldl (step counts overtakes) none

variable {counts overtakes} {values : List α} {i j : ℕ} {x kept : α}

theorem scan_append_singleton (values : List α) (x : α) :
    scan counts overtakes (values ++ [x]) =
      step counts overtakes (scan counts overtakes values) x := by
  rw [scan, foldl_append]
  rfl

theorem scan_map {β : Type*} (f : β → α) (values : List β) :
    (scan (fun x => counts (f x)) (fun x y => overtakes (f x) (f y))
      values).map f = scan counts overtakes (values.map f) := by
  induction values using List.reverseRecOn with
  | nil => rfl
  | append_singleton values x ih =>
    rw [map_append, map_singleton, scan_append_singleton, scan_append_singleton, ← ih]
    cases scan (fun x => counts (f x)) (fun x y => overtakes (f x) (f y)) values with
    | none =>
      by_cases hnew : counts (f x)
      · simp [step, hnew]
      · simp [step, hnew]
    | some old =>
      by_cases hnew : counts (f x) ∧ overtakes (f x) (f old)
      · simp [step, hnew]
      · simp only [step, Option.mem_some_iff, map_some, forall_eq', if_neg hnew]

theorem scan_eq_none_iff :
    scan counts overtakes values = none ↔ ∀ x ∈ values, ¬ counts x := by
  induction values using List.reverseRecOn with
  | nil => exact iff_of_true rfl fun x hx => absurd hx not_mem_nil
  | append_singleton values x ih =>
    rw [scan_append_singleton, step]
    constructor
    · intro hnone
      split at hnone
      · contradiction
      · rename_i hnot
        have hrest := ih.mp hnone
        rw [hnone] at hnot
        intro y hy
        rcases mem_append.mp hy with hold | hnew
        · exact hrest y hold
        · rw [mem_singleton.mp hnew]
          exact fun hcounts => hnot ⟨hcounts, fun old hold => nomatch hold⟩
    · intro hall
      have hx := hall x (mem_append_right _ mem_cons_self)
      rw [if_neg fun h => hx h.1]
      exact ih.mpr fun y hy => hall y (mem_append_left _ hy)

theorem scan_eq_some (htrans : ∀ x y z, overtakes x y → overtakes y z → overtakes x z)
    (hirrefl : ∀ x, ¬ overtakes x x)
    (hscan : scan counts overtakes values = some kept) :
    kept ∈ values ∧ counts kept ∧ ∀ x ∈ values, counts x → ¬ overtakes x kept := by
  induction values using List.reverseRecOn generalizing kept with
  | nil => contradiction
  | append_singleton values x ih =>
    rw [scan_append_singleton, step] at hscan
    split at hscan
    · rename_i hnew
      obtain rfl := some.inj hscan
      refine ⟨mem_append_right _ mem_cons_self, hnew.1, ?_⟩
      intro y hy hcounts hover
      rcases mem_append.mp hy with hold | hsame
      · cases hbefore : scan counts overtakes values with
        | none => exact scan_eq_none_iff.mp hbefore y hold hcounts
        | some old =>
          have holder := hnew.2 old (by rw [hbefore]; rfl)
          exact (ih hbefore).2.2 y hold hcounts (htrans y x old hover holder)
      · rw [mem_singleton.mp hsame] at hover
        exact hirrefl x hover
    · rename_i hnot
      obtain ⟨hmem, hkept, hbest⟩ := ih hscan
      refine ⟨mem_append_left _ hmem, hkept, ?_⟩
      intro y hy hcounts hover
      rcases mem_append.mp hy with hold | hsame
      · exact hbest y hold hcounts hover
      · rw [mem_singleton.mp hsame] at hcounts hover
        refine hnot ⟨hcounts, fun old hold => ?_⟩
        rw [hscan] at hold
        obtain rfl := some.inj hold
        exact hover

omit [DecidablePred counts] [DecidableRel overtakes] in
theorem isRecord_iff : IsRecord counts overtakes values i ↔
      ∃ x, values[i]? = some x ∧ counts x ∧ ∀ j < i, IsRecord counts overtakes values j →
          ∀ y, values[j]? = some y → overtakes x y := by
  rw [IsRecord]

omit [DecidablePred counts] [DecidableRel overtakes] in
theorem IsRecord.lt_length (hrecord : IsRecord counts overtakes values i) :
    i < values.length := by
  obtain ⟨x, hx, -⟩ := isRecord_iff.mp hrecord
  exact (List.getElem?_eq_some_iff.mp hx).1

omit [DecidablePred counts] [DecidableRel overtakes] in
theorem isRecord_append (rest : List α) (hi : i < values.length) :
    IsRecord counts overtakes (values ++ rest) i ↔
      IsRecord counts overtakes values i := by
  induction i using Nat.strongRecOn with
  | _ i ih =>
    rw [isRecord_iff, isRecord_iff, List.getElem?_append_left hi]
    refine exists_congr fun x => and_congr_right fun _ =>
      and_congr_right fun _ => forall₂_congr fun j hj => ?_
    have hlt := Nat.lt_trans hj hi
    rw [ih j hj hlt, List.getElem?_append_left hlt]

theorem not_isRecord_of_scan (hnone : scan counts overtakes values = none) (i : ℕ) :
    ¬ IsRecord counts overtakes values i := by
  intro hrecord
  obtain ⟨x, hx, hcounts, -⟩ := isRecord_iff.mp hrecord
  exact scan_eq_none_iff.mp hnone x (mem_of_getElem? hx) hcounts

section

variable (htrans : ∀ x y z, overtakes x y → overtakes y z → overtakes x z)

include htrans

theorem isRecord_length (hlast : ∀ kept, scan counts overtakes values = some kept →
      ∃ i, IsLastRecord counts overtakes values i kept) :
    IsRecord counts overtakes (values ++ [x]) values.length ↔
      counts x ∧ ∀ old ∈ scan counts overtakes values, overtakes x old := by
  have hplace : (values ++ [x])[values.length]? = some x := by simp
  have hbefore (j : ℕ) (hj : j < values.length) :
      (values ++ [x])[j]? = values[j]? := List.getElem?_append_left hj
  rw [isRecord_iff]
  constructor
  · rintro ⟨y, hy, hcounts, hover⟩
    obtain rfl := some.inj (hplace.symm.trans hy)
    refine ⟨hcounts, fun old hold => ?_⟩
    obtain ⟨i, hi, hrecord, -⟩ := hlast old hold
    have hlt := hrecord.lt_length
    exact hover i hlt ((isRecord_append [x] hlt).mpr hrecord) old
      ((hbefore i hlt).trans hi)
  · rintro ⟨hcounts, hover⟩
    refine ⟨x, hplace, hcounts, fun j hj hrecord y hy => ?_⟩
    rw [isRecord_append [x] hj] at hrecord
    rw [hbefore j hj] at hy
    cases hkept : scan counts overtakes values with
    | none => exact absurd hrecord (not_isRecord_of_scan hkept j)
    | some old =>
      have hold := hover old (by rw [hkept]; rfl)
      obtain ⟨i, hi, hlastRecord, hmax⟩ := hlast old hkept
      rcases Nat.lt_or_eq_of_le (hmax j hrecord) with hlt | rfl
      · obtain ⟨z, hz, -, hovers⟩ := isRecord_iff.mp hlastRecord
        obtain rfl := some.inj (hi.symm.trans hz)
        exact htrans x old y hold (hovers j hlt hrecord y hy)
      · obtain rfl := some.inj (hi.symm.trans hy)
        exact hold

theorem scan_eq_some_iff : scan counts overtakes values = some kept ↔
      ∃ i, IsLastRecord counts overtakes values i kept := by
  induction values using List.reverseRecOn generalizing kept with
  | nil =>
    refine iff_of_false nofun ?_
    rintro ⟨i, hi, -⟩
    contradiction
  | append_singleton values x ih =>
    have hlength := isRecord_length htrans (fun old => (@ih old).mp) (x := x)
    have hsplit : ∀ j, IsRecord counts overtakes (values ++ [x]) j →
        j < values.length ∨ j = values.length := by
      intro j hrecord
      have hlt := hrecord.lt_length
      rw [length_append, length_singleton] at hlt
      omega
    rw [scan_append_singleton, step]
    split
    · rename_i hnew
      have hrecord := hlength.mpr hnew
      constructor
      · intro heq
        obtain rfl := some.inj heq
        refine ⟨values.length, by simp, hrecord, fun j hj => ?_⟩
        rcases hsplit j hj with hlt | rfl
        · exact Nat.le_of_lt hlt
        · exact Nat.le_refl _
      · rintro ⟨i, hi, hrecordi, hmax⟩
        have hle := hmax _ hrecord
        rcases hsplit i hrecordi with hlt | rfl
        · omega
        · simpa using hi
    · rename_i hold
      have hnot := mt hlength.mp hold
      rw [ih]
      refine exists_congr fun i => ?_
      constructor
      · rintro ⟨hi, hrecord, hmax⟩
        have hlt := hrecord.lt_length
        refine ⟨(List.getElem?_append_left hlt).trans hi,
          (isRecord_append [x] hlt).mpr hrecord, fun j hj => ?_⟩
        rcases hsplit j hj with hltj | rfl
        · exact hmax j ((isRecord_append [x] hltj).mp hj)
        · exact absurd hj hnot
      · rintro ⟨hi, hrecord, hmax⟩
        rcases hsplit i hrecord with hlt | rfl
        · refine ⟨(List.getElem?_append_left hlt).symm.trans hi,
            (isRecord_append [x] hlt).mp hrecord, fun j hj => ?_⟩
          exact hmax j ((isRecord_append [x] hj.lt_length).mpr hj)
        · exact absurd hrecord hnot

end

end RunningRecords
