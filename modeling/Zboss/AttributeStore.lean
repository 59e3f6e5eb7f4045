import Mathlib.Algebra.Group.Nat.Defs
import Mathlib.Data.Sum.Basic
import Mathlib.Tactic.Common

/-!
# Stores of attributes

A store answers requests to get and to set its attributes. The value of an
attribute is a number of bytes; a request which succeeds has the status 0.
-/

def bytesOf {n : ℕ} (mem : Vector UInt8 n) : ℕ → UInt8 :=
  fun i => mem[i]?.getD 0

def takeBytes (n : ℕ) (mem : ℕ → UInt8) : Vector UInt8 n :=
  Vector.ofFn fun i => mem i

structure GetConfirm (ι : Type*) where
  status : UInt8
  attr : ι
  length : ℕ
  value : ℕ → UInt8

structure SetConfirm (ι : Type*) where
  status : UInt8
  attr : ι

structure AttributeStore (σ ι : Type*) where
  width : ι → ℕ
  get : σ → ι → GetConfirm ι
  set : σ → ι → (ℕ → UInt8) → σ × SetConfirm ι

variable {σ τ ι κ : Type*}

theorem bytesOf_takeBytes {n i : ℕ} (mem : ℕ → UInt8) (hi : i < n) :
    bytesOf (takeBytes n mem) i = mem i := by
  simp [bytesOf, takeBytes, hi]

namespace GetConfirm

open Function

def found (attr : ι) (length : ℕ) (value : ℕ → UInt8) : GetConfirm ι :=
  ⟨0, attr, length, value⟩

def map (f : ι → κ) (conf : GetConfirm ι) : GetConfirm κ :=
  ⟨conf.status, f conf.attr, conf.length, conf.value⟩

structure Returns (conf : GetConfirm ι) (attr : ι) (width : ℕ)
    (value : ℕ → UInt8) : Prop where
  status : conf.status = 0
  attr : conf.attr = attr
  length : conf.length = width
  value : ∀ i < width, conf.value i = value i

variable {attr : ι} {width : ℕ} {value : ℕ → UInt8}

theorem map_injective {f : ι → κ} (hf : Injective f) :
    Injective (map f) := by
  rintro ⟨status, attr, length, value⟩ ⟨status', attr', length', value'⟩ hmap
  obtain ⟨rfl, hattr, rfl, rfl⟩ := GetConfirm.mk.inj hmap
  obtain rfl := hf hattr
  rfl

theorem returns_map {f : ι → κ} (hf : Injective f) {conf : GetConfirm ι} :
    (conf.map f).Returns (f attr) width value ↔ conf.Returns attr width value := by
  constructor
  · intro hreturns
    exact ⟨hreturns.status, hf hreturns.attr, hreturns.length, hreturns.value⟩
  · intro hreturns
    exact ⟨hreturns.status, congrArg f hreturns.attr, hreturns.length, hreturns.value⟩

theorem returns_found_iff {mem : ℕ → UInt8} :
    (found attr width mem).Returns attr width value ↔ ∀ i < width, mem i = value i := by
  constructor
  · intro hreturns
    exact hreturns.value
  · intro hvalue
    exact ⟨rfl, rfl, rfl, hvalue⟩

theorem returns_first_iff {memory : ℕ → UInt8} {byte : UInt8} (hwidth : 0 < width) :
    (found attr width (update memory 0 byte)).Returns attr width value ↔
      byte = value 0 ∧ ∀ i < width, 0 < i → value i = memory i := by
  rw [returns_found_iff]
  constructor
  · intro hvalue
    refine ⟨?_, fun i hi hpos => ?_⟩
    · simpa using hvalue 0 hwidth
    · rw [← hvalue i hi, update_of_ne (by omega)]
  · rintro ⟨hfirst, hrest⟩ i hi
    rcases Nat.eq_zero_or_pos i with rfl | hpos
    · rw [update_self, hfirst]
    · rw [update_of_ne (by omega), hrest i hi hpos]

end GetConfirm

namespace AttributeStore

variable (S : AttributeStore σ ι) (T : AttributeStore τ κ)

def Accepted (state : σ) (attr : ι) (value : ℕ → UInt8) : Prop :=
  (S.set state attr value).2.status = 0 ∧ (S.get state attr).status = 0

structure Keeps (state : σ) (attr : ι) (value : ℕ → UInt8) : Prop where
  gets : (S.get (S.set state attr value).1 attr).Returns attr (S.width attr)
    value
  others : ∀ other ≠ attr, S.get (S.set state attr value).1 other = S.get state other

def GetAfterSet (state : σ) (attr : ι) (value : ℕ → UInt8) : Prop :=
  S.Accepted state attr value → S.Keeps state attr value

variable {S} in
theorem getAfterSet_iff {state : σ} {attr : ι} {value : ℕ → UInt8} {condition : Prop}
    (hothers : ∀ other ≠ attr, S.get (S.set state attr value).1 other = S.get state other)
    (hgets : S.Accepted state attr value →
      ((S.get (S.set state attr value).1 attr).Returns attr (S.width attr)
        value ↔ condition))
    (hrefused : ¬ S.Accepted state attr value → condition) :
    S.GetAfterSet state attr value ↔ condition := by
  by_cases haccepted : S.Accepted state attr value
  · rw [← hgets haccepted]
    constructor
    · intro hkeeps
      exact (hkeeps haccepted).gets
    · intro hreturns _
      exact ⟨hreturns, hothers⟩
  · exact iff_of_true (fun h => absurd h haccepted) (hrefused haccepted)

def sum : AttributeStore (σ × τ) (ι ⊕ κ) where
  width := Sum.elim S.width T.width
  get state attr :=
    match attr with
    | .inl attr => (S.get state.1 attr).map .inl
    | .inr attr => (T.get state.2 attr).map .inr
  set state attr value :=
    match attr with
    | .inl attr =>
        let (next, conf) := S.set state.1 attr value
        ((next, state.2), ⟨conf.status, .inl conf.attr⟩)
    | .inr attr =>
        let (next, conf) := T.set state.2 attr value
        ((state.1, next), ⟨conf.status, .inr conf.attr⟩)

variable {S T} {state : σ × τ} {value : ℕ → UInt8}

theorem keeps_sum_inl {attr : ι} :
    (S.sum T).Keeps state (.inl attr) value ↔ S.Keeps state.1 attr value := by
  constructor
  · intro hkeeps
    refine ⟨(GetConfirm.returns_map Sum.inl_injective).mp hkeeps.gets, ?_⟩
    intro other hother
    exact GetConfirm.map_injective Sum.inl_injective
      (hkeeps.others (.inl other) (Sum.inl_injective.ne hother))
  · intro hkeeps
    refine ⟨(GetConfirm.returns_map Sum.inl_injective).mpr hkeeps.gets, ?_⟩
    rintro (other | other) hother
    · exact congrArg (GetConfirm.map Sum.inl)
        (hkeeps.others other (ne_of_apply_ne _ hother))
    · rfl

theorem keeps_sum_inr {attr : κ} :
    (S.sum T).Keeps state (.inr attr) value ↔ T.Keeps state.2 attr value := by
  constructor
  · intro hkeeps
    refine ⟨(GetConfirm.returns_map Sum.inr_injective).mp hkeeps.gets, ?_⟩
    intro other hother
    exact GetConfirm.map_injective Sum.inr_injective
      (hkeeps.others (.inr other) (Sum.inr_injective.ne hother))
  · intro hkeeps
    refine ⟨(GetConfirm.returns_map Sum.inr_injective).mpr hkeeps.gets, ?_⟩
    rintro (other | other) hother
    · rfl
    · exact congrArg (GetConfirm.map Sum.inr)
        (hkeeps.others other (ne_of_apply_ne _ hother))

theorem getAfterSet_sum_inl {attr : ι} :
    (S.sum T).GetAfterSet state (.inl attr) value ↔ S.GetAfterSet state.1 attr value :=
  imp_congr Iff.rfl keeps_sum_inl

theorem getAfterSet_sum_inr {attr : κ} :
    (S.sum T).GetAfterSet state (.inr attr) value ↔ T.GetAfterSet state.2 attr value :=
  imp_congr Iff.rfl keeps_sum_inr

end AttributeStore
