import Mathlib.Data.List.Basic

/-!
# Readers of the front of a list

A reader takes a value from the front of a list and leaves the rest, or fails.
It may be known which value it takes from given cells, or only how many cells it
takes from any list which has so many.
-/

abbrev FrontReader (α β : Type) : Type := StateT (List α) Option β

namespace FrontReader

open Option

variable {α β γ : Type}

def next : FrontReader α α
  | [] => none
  | cell :: rest => some (cell, rest)

/-- The cells at the front are read as `val`, whatever follows them. -/
def Takes (reader : FrontReader α β) (front : List α) (val : β) : Prop :=
  ∀ rest, reader (front ++ rest) = some (val, rest)

/-- The reader takes `n` cells, and fails only if there are less. -/
def Consumes (reader : FrontReader α β) (n : ℕ) : Prop :=
  ∀ cells, (reader cells).map Prod.snd =
    if n ≤ cells.length then some (cells.drop n) else none

variable {reader : FrontReader α β} {f : β → FrontReader α γ}

theorem bind_apply (reader : FrontReader α β) (f : β → FrontReader α γ) (cells : List α) :
    (reader >>= f) cells = (reader cells).bind fun read => f read.1 read.2 :=
  rfl

theorem takes_next (cell : α) : (next : FrontReader α α).Takes [cell] cell :=
  fun _ => rfl

theorem takes_pure (val : β) : (pure val : FrontReader α β).Takes [] val :=
  fun _ => rfl

theorem Takes.bind {front front' : List α} {val : β} {val' : γ}
    (hreader : reader.Takes front val) (hf : (f val).Takes front' val') :
    (reader >>= f).Takes (front ++ front') val' := by
  intro rest
  rw [bind_apply, List.append_assoc, hreader, bind_some]
  exact hf rest

theorem Takes.bind_pure {front : List α} {val : β}
    (hreader : reader.Takes front val) (g : β → γ) :
    (reader >>= fun read => pure (g read)).Takes front (g val) := by
  intro rest
  rw [bind_apply, hreader, bind_some]
  rfl

def Yields (reader : FrontReader α β) (p : β → Prop) : Prop :=
  ∀ cells read, reader cells = some read → p read.1

theorem yields_pure {p : β → Prop} {val : β} (hval : p val) :
    (pure val : FrontReader α β).Yields p := by
  intro cells read hread
  rw [← some.inj hread]
  exact hval

theorem Yields.bind {p : β → Prop} {q : γ → Prop} (hreader : reader.Yields p)
    (hf : ∀ val, p val → (f val).Yields q) : (reader >>= f).Yields q := by
  intro cells read hread
  obtain ⟨first, hfirst, hrest⟩ := bind_eq_some_iff.mp hread
  exact hf first.1 (hreader cells first hfirst) first.2 read hrest

theorem yields_bind {q : γ → Prop} (hf : ∀ val, (f val).Yields q) :
    (reader >>= f).Yields q := by
  have hreader : reader.Yields fun _ => True := fun _ _ _ => trivial
  exact hreader.bind fun val _ => hf val

theorem consumes_next : (next : FrontReader α α).Consumes 1 := by
  intro cells
  cases cells with
  | nil => rfl
  | cons cell rest => simp [next]

theorem consumes_pure (val : β) : (pure val : FrontReader α β).Consumes 0 :=
  fun _ => rfl

theorem Consumes.ite {p : Prop} [Decidable p] {other : FrontReader α β}
    {m n : ℕ} (hreader : reader.Consumes m) (hother : other.Consumes n) :
    (if p then reader else other).Consumes (if p then m else n) := by
  split
  · exact hreader
  · exact hother

theorem Consumes.bind {m n : ℕ}
    (hreader : reader.Consumes m) (hf : ∀ val, (f val).Consumes n) :
    (reader >>= f).Consumes (m + n) := by
  intro cells
  rw [bind_apply]
  have hrest := hreader cells
  cases hread : reader cells with
  | none =>
    rw [hread, map_none] at hrest
    have hshort : ¬ m ≤ cells.length := by
      intro hlong
      rw [if_pos hlong] at hrest
      contradiction
    rw [bind_none, map_none, if_neg (by omega)]
  | some read =>
    rw [hread, map_some] at hrest
    split at hrest
    · rename_i hlong
      rw [bind_some, hf, some.inj hrest, List.length_drop, List.drop_drop]
      split
      · rw [if_pos (by omega)]
      · rw [if_neg (by omega)]
    · contradiction

theorem Consumes.bind_pure {n : ℕ} (hreader : reader.Consumes n)
    (g : β → γ) : (reader >>= fun read => pure (g read)).Consumes n :=
  hreader.bind fun val => consumes_pure (g val)

theorem Consumes.next_after {δ : Type} {n : ℕ} {g : γ × List α → δ}
    {h : α → δ} (hreader : reader.Consumes n)
    (hf : ∀ val cells, (f val cells).map g = cells.head?.map h)
    (cells : List α) :
    ((reader >>= f) cells).map g = cells[n]?.map h := by
  rw [bind_apply]
  have hrest := hreader cells
  cases hread : reader cells with
  | none =>
    rw [hread, map_none] at hrest
    have hshort : cells.length ≤ n := by
      by_contra hlong
      rw [if_pos (by omega)] at hrest
      contradiction
    rw [List.getElem?_eq_none hshort]
    rfl
  | some read =>
    rw [hread, map_some] at hrest
    split at hrest
    · rw [bind_some, some.inj hrest, hf, List.head?_drop]
    · contradiction

end FrontReader
