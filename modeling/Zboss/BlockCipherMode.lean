import Mathlib.Algebra.GroupWithZero.Nat
import Mathlib.Data.List.Basic

/-!
# Modes of operation of a block cipher

A text is combined with a stream of values, block by block, and a chain of
encrypted blocks gives a tag.  Blocks are vectors of `n` values; the last block
of a text is padded.
-/

namespace BlockCipherMode

variable {α β : Type*} {n : ℕ}

def paddedBlock (n : ℕ) (pad : α) (text : List α) : Vector α n :=
  Vector.ofFn fun i => text.getD i pad

theorem paddedBlock_take (pad : α) (text : List α) :
    paddedBlock n pad (text.take n) = paddedBlock n pad text := by
  ext i hi
  simp [paddedBlock, List.getD_eq_getElem?_getD]

def paddedBlocks (n : ℕ) [NeZero n] (pad : α) (text : List α) :
    List (Vector α n) :=
  if text = [] then [] else paddedBlock n pad text :: paddedBlocks n pad (text.drop n)
termination_by text.length
decreasing_by
  have hn := Nat.pos_of_neZero n
  have hlength := List.length_pos_of_ne_nil ‹¬ text = []›
  simp
  omega

@[simp] theorem paddedBlocks_nil [NeZero n] (pad : α) : paddedBlocks n pad [] = [] := by
  rw [paddedBlocks, if_pos rfl]

theorem paddedBlocks_of_ne_nil [NeZero n] (pad : α) {text : List α} (hne : text ≠ []) :
    paddedBlocks n pad text =
      paddedBlock n pad text :: paddedBlocks n pad (text.drop n) := by
  rw [paddedBlocks, if_neg hne]

def chain (encrypt : β → β) (mix : β → β → β) (start : β) (blocks : List β) :
    β :=
  blocks.foldl (fun state block => encrypt (mix state block)) start

@[simp] theorem chain_nil (encrypt : β → β) (mix : β → β → β) (start : β) :
    chain encrypt mix start [] = start := rfl

@[simp] theorem chain_cons
    (encrypt : β → β) (mix : β → β → β) (start block : β) (blocks : List β) :
    chain encrypt mix start (block :: blocks) =
      chain encrypt mix (encrypt (mix start block)) blocks := rfl

theorem chain_append (encrypt : β → β) (mix : β → β → β) (start : β) (xs ys : List β) :
    chain encrypt mix start (xs ++ ys) =
      chain encrypt mix (chain encrypt mix start xs) ys :=
  List.foldl_append

def combine (op : α → α → α) (stream : ℕ → α) (text : List α) : List α :=
  text.mapIdx fun i x => op (stream i) x

@[simp] theorem length_combine (op : α → α → α) (stream : ℕ → α) (text : List α) :
    (combine op stream text).length = text.length := by
  simp [combine]

theorem combine_combine
    {op : α → α → α} (hcancel : ∀ s x, op s (op s x) = x) (stream : ℕ → α)
    (text : List α) :
    combine op stream (combine op stream text) = text := by
  apply List.ext_getElem
  · simp
  · intro i hi hi'
    simp [combine, hcancel]

theorem combine_append (op : α → α → α) (stream : ℕ → α) (xs ys : List α) :
    combine op stream (xs ++ ys) = combine op stream xs ++
        combine op (fun i => stream (i + xs.length)) ys := by
  simp [combine, List.mapIdx_append]

def keystream [NeZero n] (blocks : ℕ → Vector α n) (i : ℕ) : α :=
  have hlt : i % n < n := Nat.mod_lt i (Nat.pos_of_neZero n)
  (blocks (i / n))[i % n]

theorem keystream_add [NeZero n] (blocks : ℕ → Vector α n) (i : ℕ) :
    keystream blocks (i + n) = keystream (fun k => blocks (k + 1)) i := by
  simp [keystream, Nat.add_div_right i (Nat.pos_of_neZero n)]

theorem combine_keystream_block [NeZero n]
    (op : α → α → α) (blocks : ℕ → Vector α n) (pad : α) {text : List α}
    (hlength : text.length ≤ n) :
    combine op (keystream blocks) text =
      (Vector.zipWith op (blocks 0) (paddedBlock n pad text)).toList.take text.length := by
  apply List.ext_getElem
  · simp
    omega
  · intro i hi hi'
    simp only [length_combine] at hi
    have hin : i < n := by omega
    simp [combine, keystream, paddedBlock, Nat.div_eq_of_lt hin, Nat.mod_eq_of_lt hin, hi]

end BlockCipherMode
