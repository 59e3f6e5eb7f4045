import Zboss.TransitionSystem
import Mathlib.Algebra.Order.Group.Multiset

/-!
# What is received is held or has been disposed of

A partial step function which takes things in with its inputs and gives some of
them out. Beside the state a book is kept of all that was received and disposed
of.
-/

namespace Ledger

open TransitionSystem

variable {σ ι α : Type*}

structure Book (σ α : Type*) where
  state : σ
  received : Multiset α
  disposed : Multiset α

def step (next : σ → ι → Option (σ × Multiset α)) (entries : ι → Multiset α)
    (book : Book σ α) (input : ι) : Option (Book σ α) := do
  let (state, out) ← next book.state input
  return ⟨state, book.received + entries input, book.disposed + out⟩

def Balanced (held : σ → Multiset α) (book : Book σ α) : Prop :=
  book.received = held book.state + book.disposed

def Moves (next : σ → ι → Option (σ × Multiset α)) (entries : ι → Multiset α)
    (held : σ → Multiset α) (state : σ) (input : ι) : Prop :=
  ∀ after out, next state input = some (after, out) →
    held state + entries input = held after + out

section Steps

variable {next : σ → ι → Option (σ × Multiset α)} {entries : ι → Multiset α}
  {held : σ → Multiset α}

theorem moves_of_eq_some {state after : σ} {input : ι} {out : Multiset α}
    (hnext : next state input = some (after, out)) :
    Moves next entries held state input ↔
      held state + entries input = held after + out := by
  constructor
  · exact fun hmoves => hmoves after out hnext
  · intro hheld other result hother
    obtain ⟨rfl, rfl⟩ := some_pair_inj (hnext.symm.trans hother)
    exact hheld

theorem moves_of_eq_none {state : σ} {input : ι} (hnext : next state input = none) :
    Moves next entries held state input := by
  intro after out hsome
  exact nomatch hnext.symm.trans hsome

theorem step_eq_some {book after : Book σ α} {input : ι} :
    step next entries book input = some after ↔
      ∃ state out, next book.state input = some (state, out) ∧
        after = ⟨state, book.received + entries input, book.disposed + out⟩ := by
  constructor
  · intro hstep
    obtain ⟨⟨state, out⟩, hnext, heq⟩ := Option.bind_eq_some_iff.mp hstep
    exact ⟨state, out, hnext, (Option.some.inj heq).symm⟩
  · rintro ⟨state, out, hnext, rfl⟩
    rw [step, hnext]
    rfl

theorem balanced_step_iff {book : Book σ α} {input : ι} (hbalanced : Balanced held book) :
    (∀ after, step next entries book input = some after →
        Balanced held after) ↔ Moves next entries held book.state input := by
  have hmoved (state : σ) (out : Multiset α) : Balanced held
          ⟨state, book.received + entries input, book.disposed + out⟩ ↔
        held book.state + entries input = held state + out := by
    rw [Balanced] at hbalanced ⊢
    dsimp only
    rw [hbalanced, add_right_comm, add_left_comm, add_comm _ book.disposed]
    exact add_right_inj _
  constructor
  · intro hall state out hnext
    refine (hmoved state out).mp (hall _ ?_)
    exact step_eq_some.mpr ⟨state, out, hnext, rfl⟩
  · intro hmoves after hstep
    obtain ⟨state, out, hnext, rfl⟩ := step_eq_some.mp hstep
    exact (hmoved state out).mpr (hmoves state out hnext)

theorem step_of_moves {book : Book σ α} {input : ι} {state : σ} {out : Multiset α}
    (hbalanced : Balanced held book)
    (hmoves : Moves next entries held book.state input)
    (hnext : next book.state input = some (state, out)) :
    ∃ after, step next entries book input = some after ∧
      after.state = state ∧ Balanced held after := by
  have hstep : step next entries book input =
      some ⟨state, book.received + entries input, book.disposed + out⟩ :=
    step_eq_some.mpr ⟨state, out, hnext, rfl⟩
  exact ⟨_, hstep, rfl, (balanced_step_iff hbalanced).mpr hmoves _ hstep⟩

/-- The book is balanced along a run exactly if every step meets a condition
under which it moves only, `support` being an invariant of such steps. -/
theorem everyState_balanced_iff {support : σ → Prop} {condition : σ → ι → Prop}
    (hexact : ∀ state input, support state →
      (Moves next entries held state input ↔ condition state input))
    (hsupport : ∀ state input after out, support state →
      condition state input → next state input = some (after, out) → support after)
    {book : Book σ α} {inputs : List ι} (hbalanced : Balanced held book)
    (hstart : support book.state) :
    EveryState (step next entries) (Balanced held) book inputs ↔
      AlongRun (step next entries)
        (fun book input => condition book.state input) book inputs := by
  refine @everyState_iff_alongRun _ _ (step next entries)
    (fun book input => condition book.state input) (Balanced held)
    (fun book => support book.state) ?_ ?_ book inputs hbalanced hstart
  · intro book input hbalanced hsupported
    rw [balanced_step_iff hbalanced, hexact _ _ hsupported]
  · intro book input after _ hsupported hcondition hstep
    obtain ⟨state, out, hnext, rfl⟩ := step_eq_some.mp hstep
    exact hsupport _ _ _ _ hsupported hcondition hnext

end Steps

end Ledger
