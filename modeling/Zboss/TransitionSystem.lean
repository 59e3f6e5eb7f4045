import Mathlib.Algebra.GroupWithZero.Nat
import Mathlib.Data.List.Basic

/-!
# Runs of a partial step function

A component is given by a step function `step : σ → ι → Option σ`, where `none`
means that the step does not return. A run is a list of inputs.
-/

theorem some_pair_inj {α β : Type*} {a c : α} {b d : β}
    (h : some (a, b) = some (c, d)) : a = c ∧ b = d :=
  Prod.mk.inj (Option.some.inj h)

namespace TransitionSystem

variable {σ ι : Type*}

/-- The state after a list of inputs, `none` once a step does not return. -/
def run (step : σ → ι → Option σ) : σ → List ι → Option σ
  | state, [] => some state
  | state, input :: rest =>
      match step state input with
      | none => none
      | some next => run step next rest

/-- Every input of the run meets `condition` in the state it arrives in. -/
def AlongRun (step : σ → ι → Option σ) (condition : σ → ι → Prop) : σ → List ι → Prop
  | _, [] => True
  | state, input :: rest =>
      condition state input ∧ ∀ next, step state input = some next →
          AlongRun step condition next rest

/-- `property` holds in each state visited, the first and the last
included. -/
def EveryState (step : σ → ι → Option σ) (property : σ → Prop) : σ → List ι → Prop
  | state, [] => property state
  | state, input :: rest =>
      property state ∧ ∀ next, step state input = some next →
          EveryState step property next rest

@[simp] theorem run_nil (step : σ → ι → Option σ) (state : σ) :
    run step state [] = some state := rfl

theorem run_cons_eq_some
    {step : σ → ι → Option σ} {state last : σ} {input : ι} {rest : List ι} :
    run step state (input :: rest) = some last ↔
      ∃ next, step state input = some next ∧ run step next rest = some last := by
  cases hstep : step state input with
  | none => simp [run, hstep]
  | some next => simp [run, hstep]

/-- Whether a concrete run meets a decidable condition can be computed. -/
instance decidableAlongRun (step : σ → ι → Option σ) (condition : σ → ι → Prop)
    [∀ state input, Decidable (condition state input)] :
    ∀ state inputs, Decidable (AlongRun step condition state inputs)
  | _, [] => isTrue trivial
  | state, input :: rest =>
      match hstep : step state input with
      | none => decidable_of_iff (condition state input) (by simp [AlongRun, hstep])
      | some next =>
          have := decidableAlongRun step condition next rest
          decidable_of_iff (condition state input ∧ AlongRun step condition next rest)
            (by simp [AlongRun, hstep])

instance decidableEveryState (step : σ → ι → Option σ) (property : σ → Prop)
    [∀ state, Decidable (property state)] :
    ∀ state inputs, Decidable (EveryState step property state inputs)
  | state, [] => decidable_of_iff (property state) Iff.rfl
  | state, input :: rest =>
      match hstep : step state input with
      | none => decidable_of_iff (property state) (by simp [EveryState, hstep])
      | some next =>
          have := decidableEveryState step property next rest
          decidable_of_iff (property state ∧ EveryState step property next rest)
            (by simp [EveryState, hstep])

theorem AlongRun.mono {step : σ → ι → Option σ} {weak strong : σ → ι → Prop}
    (himp : ∀ state input, strong state input → weak state input)
    {state : σ} {inputs : List ι}
    (halong : AlongRun step strong state inputs) :
    AlongRun step weak state inputs := by
  induction inputs generalizing state with
  | nil => trivial
  | cons input rest ih =>
    refine ⟨himp _ _ halong.1, ?_⟩
    intro next hstep
    exact ih (halong.2 next hstep)

theorem AlongRun.and {step : σ → ι → Option σ} {condition other : σ → ι → Prop}
    {state : σ} {inputs : List ι}
    (halong : AlongRun step condition state inputs)
    (hother : AlongRun step other state inputs) :
    AlongRun step (fun state input => condition state input ∧ other state input)
      state inputs := by
  induction inputs generalizing state with
  | nil => trivial
  | cons input rest ih =>
    refine ⟨⟨halong.1, hother.1⟩, ?_⟩
    intro next hnext
    exact ih (halong.2 next hnext) (hother.2 next hnext)

theorem AlongRun.last {step : σ → ι → Option σ} {condition : σ → ι → Prop}
    {state last : σ} {inputs : List ι} {input : ι}
    (halong : AlongRun step condition state (inputs ++ [input]))
    (hrun : run step state inputs = some last) : condition last input := by
  induction inputs generalizing state with
  | nil =>
    rw [run_nil, Option.some.injEq] at hrun
    exact hrun ▸ halong.1
  | cons first rest ih =>
    obtain ⟨next, hnext, hrest⟩ := run_cons_eq_some.mp hrun
    exact ih (halong.2 next hnext) hrest

theorem alongRun_of_invariant {step : σ → ι → Option σ} {condition other : σ → ι → Prop}
    {invariant : σ → Prop}
    (himp : ∀ state input, invariant state → condition state input → other state input)
    (hstep : ∀ state input next, invariant state →
      condition state input → step state input = some next → invariant next)
    {state : σ} {inputs : List ι} (hstart : invariant state)
    (halong : AlongRun step condition state inputs) :
    AlongRun step other state inputs := by
  induction inputs generalizing state with
  | nil => trivial
  | cons input rest ih =>
    refine ⟨himp _ _ hstart halong.1, ?_⟩
    intro next hnext
    exact ih (hstep _ _ _ hstart halong.1 hnext) (halong.2 next hnext)

theorem invariant_of_run {step : σ → ι → Option σ} {condition : σ → ι → Prop}
    {invariant : σ → Prop}
    (hstep : ∀ state input next, invariant state →
      condition state input → step state input = some next → invariant next)
    {state last : σ} {inputs : List ι}
    (hstart : invariant state)
    (halong : AlongRun step condition state inputs)
    (hrun : run step state inputs = some last) :
    invariant last := by
  induction inputs generalizing state with
  | nil =>
    rw [run_nil, Option.some.injEq] at hrun
    exact hrun ▸ hstart
  | cons input rest ih =>
    obtain ⟨next, hnext, hrest⟩ := run_cons_eq_some.mp hrun
    exact ih (hstep _ _ _ hstart halong.1 hnext) (halong.2 next hnext) hrest

theorem exists_run_of_invariant {step : σ → ι → Option σ} {invariant : σ → Prop}
    (hstep : ∀ state input, invariant state →
      ∃ next, step state input = some next ∧ invariant next)
    {state : σ} (hstart : invariant state) (inputs : List ι) :
    ∃ last, run step state inputs = some last ∧ invariant last := by
  induction inputs generalizing state with
  | nil => exact ⟨state, rfl, hstart⟩
  | cons input rest ih =>
    obtain ⟨next, hnext, hinvariant⟩ := hstep state input hstart
    obtain ⟨last, hlast, hresult⟩ := ih hinvariant
    exact ⟨last, run_cons_eq_some.mpr ⟨next, hnext, hlast⟩, hresult⟩

/-- As `invariant_of_run`, for an invariant which depends on what the inputs
have cost so far, as long as the run stays within a budget. -/
theorem invariant_of_run_within {step : σ → ι → Option σ} {condition : σ → ι → Prop}
    {cost : ι → ℕ} {budget : ℕ} {invariant : ℕ → σ → Prop}
    (hstep : ∀ spent state input next, invariant spent state →
      spent + cost input ≤ budget → condition state input →
      step state input = some next → invariant (spent + cost input) next)
    {spent : ℕ} {state last : σ} {inputs : List ι}
    (hstart : invariant spent state)
    (halong : AlongRun step condition state inputs)
    (hbudget : spent + (inputs.map cost).sum ≤ budget)
    (hrun : run step state inputs = some last) :
    invariant (spent + (inputs.map cost).sum) last := by
  induction inputs generalizing spent state with
  | nil =>
    rw [run_nil, Option.some.injEq] at hrun
    exact hrun ▸ hstart
  | cons input rest ih =>
    obtain ⟨next, hnext, hrest⟩ := run_cons_eq_some.mp hrun
    rw [List.map_cons, List.sum_cons, ← Nat.add_assoc] at hbudget ⊢
    have hspent : spent + cost input ≤ budget :=
      Nat.le_trans (Nat.le_add_right _ _) hbudget
    exact ih (hstep _ _ _ _ hstart hspent halong.1 hnext)
      (halong.2 next hnext) hbudget hrest

theorem EveryState.first {step : σ → ι → Option σ} {property : σ → Prop}
    {state : σ} {inputs : List ι}
    (hevery : EveryState step property state inputs) :
    property state := by
  cases inputs with
  | nil => exact hevery
  | cons _ _ => exact hevery.1

theorem alongRun_of_everyState {step : σ → ι → Option σ} {condition : σ → ι → Prop}
    {property : σ → Prop}
    (hnecessary : ∀ state input, property state →
      (∀ next, step state input = some next → property next) → condition state input)
    {state : σ} {inputs : List ι}
    (hevery : EveryState step property state inputs) :
    AlongRun step condition state inputs := by
  induction inputs generalizing state with
  | nil => trivial
  | cons input rest ih =>
    refine ⟨hnecessary state input hevery.1 ?_, ?_⟩
    · intro next hnext
      exact (hevery.2 next hnext).first
    · intro next hnext
      exact ih (hevery.2 next hnext)

theorem alongRun_of_forall {step : σ → ι → Option σ} {condition : σ → ι → Prop}
    (hall : ∀ state input, condition state input)
    (state : σ) (inputs : List ι) :
    AlongRun step condition state inputs := by
  induction inputs generalizing state with
  | nil => trivial
  | cons input rest ih => exact ⟨hall state input, fun next _ => ih next⟩

theorem everyState_true (step : σ → ι → Option σ) (state : σ) (inputs : List ι) :
    EveryState step (fun _ => True) state inputs := by
  induction inputs generalizing state with
  | nil => trivial
  | cons input rest ih => exact ⟨trivial, fun next _ => ih next⟩

/-- Under an invariant, and in a run whose states all meet `support`, a
condition on the steps may be replaced by one which is equivalent there. -/
theorem alongRun_congr_within {step : σ → ι → Option σ} {condition other : σ → ι → Prop}
    {invariant support : σ → Prop}
    (hiff : ∀ state input, invariant state → support state →
      (∀ next, step state input = some next → support next) →
        (condition state input ↔ other state input))
    (hstep : ∀ state input next, invariant state → support state →
      support next → other state input → step state input = some next → invariant next)
    {state : σ} {inputs : List ι} (hstart : invariant state)
    (hevery : EveryState step support state inputs) :
    AlongRun step condition state inputs ↔
      AlongRun step other state inputs := by
  induction inputs generalizing state with
  | nil => exact Iff.rfl
  | cons input rest ih =>
    obtain ⟨hsupport, hrest⟩ := hevery
    have hnexts : ∀ next, step state input = some next → support next := by
      intro next hnext
      exact (hrest next hnext).first
    rw [AlongRun, AlongRun, hiff state input hstart hsupport hnexts]
    apply and_congr_right
    intro hother
    have hih : ∀ next, step state input = some next → (AlongRun step condition next rest ↔
          AlongRun step other next rest) := by
      intro next hnext
      exact ih (hstep _ _ _ hstart hsupport (hnexts next hnext) hother hnext)
        (hrest next hnext)
    constructor
    · intro hall next hnext
      exact (hih next hnext).mp (hall next hnext)
    · intro hall next hnext
      exact (hih next hnext).mpr (hall next hnext)

theorem alongRun_congr {step : σ → ι → Option σ} {condition other : σ → ι → Prop}
    {invariant : σ → Prop}
    (hiff : ∀ state input, invariant state → (condition state input ↔ other state input))
    (hstep : ∀ state input next, invariant state → other state input →
      step state input = some next → invariant next)
    {state : σ} {inputs : List ι} (hstart : invariant state) :
    AlongRun step condition state inputs ↔
      AlongRun step other state inputs :=
  alongRun_congr_within (fun state input hinvariant _ _ =>
      hiff state input hinvariant)
    (fun state input next hinvariant _ _ => hstep state input next hinvariant)
    hstart (everyState_true step state inputs)

theorem EveryState.last {step : σ → ι → Option σ} {property : σ → Prop}
    {state last : σ} {inputs : List ι}
    (hevery : EveryState step property state inputs)
    (hrun : run step state inputs = some last) :
    property last := by
  induction inputs generalizing state with
  | nil =>
    rw [run_nil, Option.some.injEq] at hrun
    exact hrun ▸ hevery
  | cons input rest ih =>
    obtain ⟨next, hnext, hrest⟩ := run_cons_eq_some.mp hrun
    exact ih (hevery.2 next hnext) hrest

theorem everyState_of_invariant {step : σ → ι → Option σ} {condition : σ → ι → Prop}
    {invariant property : σ → Prop}
    (hstep : ∀ state input next, invariant state →
      condition state input → step state input = some next → invariant next)
    (hproperty : ∀ state, invariant state → property state)
    {state : σ} {inputs : List ι}
    (hstart : invariant state)
    (halong : AlongRun step condition state inputs) :
    EveryState step property state inputs := by
  induction inputs generalizing state with
  | nil => exact hproperty state hstart
  | cons input rest ih =>
    refine ⟨hproperty state hstart, ?_⟩
    intro next hnext
    exact ih (hstep _ _ _ hstart halong.1 hnext) (halong.2 next hnext)

/-- If an admissible step leads from a good state to good states only exactly
when it meets the condition, then a run of admissible steps visits good states
only exactly when all its steps meet the condition.  `support` is an auxiliary
invariant. -/
theorem everyState_iff_alongRun_of_admissible
    {step : σ → ι → Option σ} {admissible condition : σ → ι → Prop}
    {property support : σ → Prop}
    (hexact : ∀ state input, property state → support state → admissible state input →
      ((∀ next, step state input = some next → property next) ↔ condition state input))
    (hsupport : ∀ state input next, property state → support state →
      admissible state input → condition state input →
      step state input = some next → support next)
    {state : σ} {inputs : List ι}
    (hproperty : property state) (hstart : support state)
    (hadmissible : AlongRun step admissible state inputs) :
    EveryState step property state inputs ↔
      AlongRun step condition state inputs := by
  induction inputs generalizing state with
  | nil => exact ⟨fun _ => trivial, fun _ => hproperty⟩
  | cons input rest ih =>
    have hiff := hexact state input hproperty hstart hadmissible.1
    have hih : ∀ next, condition state input →
        step state input = some next → property next →
        (EveryState step property next rest ↔
          AlongRun step condition next rest) := by
      intro next hcondition hnext hgood
      exact ih hgood (hsupport _ _ _ hproperty hstart hadmissible.1 hcondition hnext)
        (hadmissible.2 next hnext)
    constructor
    · rintro ⟨_, hrest⟩
      have hcondition : condition state input := by
        apply hiff.mp
        intro next hnext
        exact (hrest next hnext).first
      refine ⟨hcondition, ?_⟩
      intro next hnext
      have hnexts := hrest next hnext
      exact (hih next hcondition hnext hnexts.first).mp hnexts
    · rintro ⟨hcondition, hrest⟩
      refine ⟨hproperty, ?_⟩
      intro next hnext
      exact (hih next hcondition hnext (hiff.mpr hcondition next hnext)).mpr
        (hrest next hnext)

theorem everyState_iff_alongRun {step : σ → ι → Option σ} {condition : σ → ι → Prop}
    {property support : σ → Prop}
    (hexact : ∀ state input, property state → support state →
      ((∀ next, step state input = some next → property next) ↔ condition state input))
    (hsupport : ∀ state input next, property state → support state →
      condition state input → step state input = some next → support next)
    {state : σ} {inputs : List ι}
    (hproperty : property state) (hstart : support state) :
    EveryState step property state inputs ↔
      AlongRun step condition state inputs :=
  everyState_iff_alongRun_of_admissible
    (fun state input hgood hsound _ => hexact state input hgood hsound)
    (fun state input next hgood hsound _ => hsupport state input next hgood hsound)
    hproperty hstart (alongRun_of_forall (fun _ _ => trivial) state inputs)

end TransitionSystem
