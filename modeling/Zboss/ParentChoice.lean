import Zboss.RejoinProcedure
import Zboss.RunningRecords

/-!
# The choice of a parent

`nwk_choose_parent` keeps an entry until a later one has a smaller depth and at
least its link quality.  It compares update identifiers by their difference as
integers, so that some older ones pass and two newer ones do not.
-/

namespace Zboss

open RunningRecords

/-- `id1` is not older than `id2`, where the identifiers wrap around. -/
def NotOlder (id1 id2 : UInt8) : Prop :=
  ¬ (1 ≤ (id2 - id1).toNat ∧ (id2 - id1).toNat ≤ 127)

def ParentCandidate.JoinedByRouter
    (ne : ParentCandidate) (role : StackRole) (isRouter : Bool) : Prop :=
  role = .router ∧ isRouter = true ∧ ne.stackProfile = 1

instance (ne : ParentCandidate) (role : StackRole) (isRouter : Bool) :
    Decidable (ne.JoinedByRouter role isRouter) :=
  inferInstanceAs (Decidable (_ ∧ _))

structure ParentCandidate.Eligible (ne : ParentCandidate) (role : StackRole) (panidRef : ℕ)
    (isRouter : Bool) : Prop where
  panidRef : ne.panidRef = panidRef
  potentialParent : ne.potentialParent = true
  permitJoining : ne.permitJoining = true
  capacity : (if ne.JoinedByRouter role isRouter then ne.routerCapacity
    else ne.endDeviceCapacity) = true
  lqi : 3 ≤ ne.lqi.toNat / (256 / 8)

theorem ParentCandidate.isSuitable_iff
    (ne : ParentCandidate) (role : StackRole) (panidRef : ℕ) (isRouter : Bool)
    (updateId : UInt8) :
    ne.isSuitable role panidRef isRouter updateId = true ↔
      ne.Eligible role panidRef isRouter ∧ nwkUpdateIdGe ne.updateId updateId = true := by
  unfold isSuitable
  simp only [Bool.and_eq_true, beq_iff_eq, decide_eq_true_eq]
  constructor
  · rintro ⟨⟨⟨⟨⟨hpan, hpotential⟩, hpermit⟩, hcap⟩, hlqi⟩, hid⟩
    refine ⟨⟨hpan, hpotential, hpermit, ?_, hlqi⟩, hid⟩
    cases role with
    | router => simpa [JoinedByRouter] using hcap
    | endDevice => simpa [JoinedByRouter] using hcap
  · rintro ⟨⟨hpan, hpotential, hpermit, hcap, hlqi⟩, hid⟩
    refine ⟨⟨⟨⟨⟨hpan, hpotential⟩, hpermit⟩, ?_⟩, hlqi⟩, hid⟩
    cases role with
    | router => simpa [JoinedByRouter] using hcap
    | endDevice => simpa [JoinedByRouter] using hcap

def ParentCandidate.Overtakes (ne best : ParentCandidate) : Prop :=
  ne.depth < best.depth ∧ best.lqi ≤ ne.lqi

instance : DecidableRel ParentCandidate.Overtakes :=
  fun _ _ => inferInstanceAs (Decidable (_ ∧ _))

theorem ParentCandidate.Overtakes.trans {ne other best : ParentCandidate}
    (hfirst : ne.Overtakes other) (hsecond : other.Overtakes best) :
    ne.Overtakes best :=
  ⟨hfirst.1.trans hsecond.1, UInt8.le_trans hsecond.2 hfirst.2⟩

namespace RejoinNwk

variable (nwk : RejoinNwk) (panidRef : ℕ)

def Passes (ne : ParentCandidate) : Prop :=
  ne.isSuitable nwk.role panidRef nwk.isRouter nwk.updateId = true

instance : DecidablePred (nwk.Passes panidRef) :=
  fun _ => inferInstanceAs (Decidable (_ = _))

def Suits (ne : ParentCandidate) : Prop :=
  ne.Eligible nwk.role panidRef nwk.isRouter ∧ NotOlder ne.updateId nwk.updateId

/-- No parent is returned exactly if there is no suitable one; otherwise it is
a suitable one which no other overtakes. -/
structure ChoosesParent : Prop where
  returns : (nwk.nwkChooseParent panidRef).isSome
  null : nwk.nwkChooseParent panidRef = some none ↔
    ∀ ne ∈ nwk.candidates, ¬ nwk.Suits panidRef ne
  best : ∀ ne i, nwk.nwkChooseParent panidRef = some (some (ne, i)) →
    nwk.candidates[i]? = some ne ∧ nwk.Suits panidRef ne ∧
      ∀ other ∈ nwk.candidates, nwk.Suits panidRef other → ¬ other.Overtakes ne

/-- If no entry passes, none is suitable and the build is not the one of a
router; otherwise the last record among those which pass is not older, and no
suitable entry which does not pass overtakes it. -/
structure JudgesWell : Prop where
  empty : (∀ ne ∈ nwk.candidates, ¬ nwk.Passes panidRef ne) → nwk.role = .endDevice ∧
      ∀ ne ∈ nwk.candidates, ¬ nwk.Suits panidRef ne
  record : ∀ i ne, IsLastRecord (nwk.Passes panidRef)
      ParentCandidate.Overtakes nwk.candidates i ne →
    NotOlder ne.updateId nwk.updateId ∧
      ∀ other ∈ nwk.candidates, nwk.Suits panidRef other →
        ¬ nwk.Passes panidRef other → ¬ other.Overtakes ne

theorem eligible_of_passes {ne : ParentCandidate} (hpasses : nwk.Passes panidRef ne) :
    ne.Eligible nwk.role panidRef nwk.isRouter ∧
      nwkUpdateIdGe ne.updateId nwk.updateId = true :=
  (ne.isSuitable_iff nwk.role panidRef nwk.isRouter nwk.updateId).mp hpasses

theorem chooseStep_eq (ret : Option (ParentCandidate × ℕ)) (ne : ParentCandidate × ℕ) :
    nwk.chooseStep panidRef ret ne =
      RunningRecords.step (fun ne => nwk.Passes panidRef ne.1)
        (fun ne best => ne.1.Overtakes best.1) ret ne := by
  unfold chooseStep RunningRecords.step
  by_cases hpasses : nwk.Passes panidRef ne.1
  · have hsuitable : ne.1.isSuitable nwk.role panidRef nwk.isRouter
        nwk.updateId = true := hpasses
    rw [if_pos hsuitable]
    cases ret with
    | none => simp [hpasses]
    | some best =>
      by_cases hover : ne.1.Overtakes best.1
      · have hskip : ¬ (best.1.depth ≤ ne.1.depth ∨ ne.1.lqi < best.1.lqi) := by
          rintro (hdepth | hlqi)
          · exact absurd hover.1 (Nat.not_lt.mpr hdepth)
          · exact absurd hover.2 (UInt8.not_le.mpr hlqi)
        simp [hpasses, hover, hskip]
      · have hskip : best.1.depth ≤ ne.1.depth ∨ ne.1.lqi < best.1.lqi := by
          by_contra hnot
          rw [not_or, Nat.not_le, UInt8.not_lt] at hnot
          exact hover hnot
        simp [hover, hskip]
  · have hunsuitable : ¬ ne.1.isSuitable nwk.role panidRef nwk.isRouter
        nwk.updateId = true := hpasses
    rw [if_neg hunsuitable, if_neg fun hnew => hpasses hnew.1]

def lastPassing : Option (ParentCandidate × ℕ) :=
  nwk.candidates.zipIdx.foldl (nwk.chooseStep panidRef) none

theorem lastPassing_eq_scan : nwk.lastPassing panidRef =
      scan (fun ne => nwk.Passes panidRef ne.1)
        (fun ne best => ne.1.Overtakes best.1) nwk.candidates.zipIdx := by
  have hstep := funext₂ (nwk.chooseStep_eq panidRef)
  rw [lastPassing, scan, hstep]

theorem lastPassing_map : (nwk.lastPassing panidRef).map Prod.fst =
      scan (nwk.Passes panidRef) ParentCandidate.Overtakes nwk.candidates := by
  rw [lastPassing_eq_scan, scan_map, List.zipIdx_map_fst]

theorem lastPassing_eq_none_iff : nwk.lastPassing panidRef = none ↔
      ∀ ne ∈ nwk.candidates, ¬ nwk.Passes panidRef ne := by
  rw [← Option.map_eq_none_iff, lastPassing_map, scan_eq_none_iff]

theorem nwkChooseParent_eq_some_iff (ne : ParentCandidate × ℕ) :
    nwk.nwkChooseParent panidRef = some (some ne) ↔
      nwk.lastPassing panidRef = some ne := by
  rw [nwkChooseParent, ← lastPassing]
  cases nwk.lastPassing panidRef with
  | some best => simp
  | none => cases nwk.role <;> simp

theorem nwkChooseParent_eq_null_iff : nwk.nwkChooseParent panidRef = some none ↔
      nwk.lastPassing panidRef = none ∧ nwk.role = .endDevice := by
  rw [nwkChooseParent, ← lastPassing]
  cases nwk.lastPassing panidRef with
  | some best => simp
  | none => cases nwk.role <;> simp

theorem nwkChooseParent_isSome_iff : (nwk.nwkChooseParent panidRef).isSome ↔
      (nwk.lastPassing panidRef = none → nwk.role = .endDevice) := by
  rw [nwkChooseParent, ← lastPassing]
  cases nwk.lastPassing panidRef with
  | some best => simp
  | none => cases nwk.role <;> simp

theorem lastPassing_eq_some {ne : ParentCandidate} {i : ℕ}
    (hlast : nwk.lastPassing panidRef = some (ne, i)) :
    nwk.candidates[i]? = some ne ∧ nwk.Passes panidRef ne ∧
      ∀ other ∈ nwk.candidates, nwk.Passes panidRef other → ¬ other.Overtakes ne := by
  have hpairs := hlast
  rw [lastPassing_eq_scan] at hpairs
  obtain ⟨hmem, hpasses, -⟩ := scan_eq_some
    (fun _ _ _ hfirst hsecond => hfirst.trans hsecond)
    (fun _ hself => Nat.lt_irrefl _ hself.1) hpairs
  have hscan := nwk.lastPassing_map panidRef
  rw [hlast] at hscan
  obtain ⟨-, -, hbest⟩ := scan_eq_some (fun _ _ _ hfirst hsecond => hfirst.trans hsecond)
    (fun _ hself => Nat.lt_irrefl _ hself.1) hscan.symm
  exact ⟨List.mem_zipIdx_iff_getElem?.mp hmem, hpasses, hbest⟩

theorem isLastRecord_iff (ne : ParentCandidate) :
    (∃ i, IsLastRecord (nwk.Passes panidRef) ParentCandidate.Overtakes
      nwk.candidates i ne) ↔ ∃ i, nwk.lastPassing panidRef = some (ne, i) := by
  rw [← scan_eq_some_iff fun _ _ _ hfirst hsecond => hfirst.trans hsecond,
    ← lastPassing_map]
  simp

/-- The choice is right exactly if the differences of the identifiers do not
change it, and no list without a passing entry is met by a router. -/
theorem choosesParent_iff : nwk.ChoosesParent panidRef ↔ nwk.JudgesWell panidRef := by
  constructor
  · intro hchooses
    constructor
    · intro hnone
      have hlast := (nwk.lastPassing_eq_none_iff panidRef).mpr hnone
      have hrole := (nwk.nwkChooseParent_isSome_iff panidRef).mp hchooses.returns hlast
      have hnull := (nwk.nwkChooseParent_eq_null_iff panidRef).mpr ⟨hlast, hrole⟩
      exact ⟨hrole, hchooses.null.mp hnull⟩
    · intro i ne hrecord
      obtain ⟨j, hlast⟩ := (nwk.isLastRecord_iff panidRef ne).mp ⟨i, hrecord⟩
      obtain ⟨-, hsuits, hbest⟩ := hchooses.best ne j
        ((nwk.nwkChooseParent_eq_some_iff panidRef (ne, j)).mpr hlast)
      exact ⟨hsuits.2, fun other hother hsuit _ => hbest other hother hsuit⟩
  · intro hjudges
    constructor
    · rw [nwkChooseParent_isSome_iff]
      intro hlast
      exact (hjudges.empty ((nwk.lastPassing_eq_none_iff panidRef).mp hlast)).1
    · rw [nwkChooseParent_eq_null_iff]
      constructor
      · rintro ⟨hlast, -⟩
        exact (hjudges.empty ((nwk.lastPassing_eq_none_iff panidRef).mp hlast)).2
      · intro hnosuit
        have hlast : nwk.lastPassing panidRef = none := by
          cases hsome : nwk.lastPassing panidRef with
          | none => rfl
          | some ret =>
              obtain ⟨ne, i⟩ := ret
              obtain ⟨hplace, hpasses, -⟩ := nwk.lastPassing_eq_some panidRef hsome
              obtain ⟨j, hrecord⟩ := (nwk.isLastRecord_iff panidRef ne).mpr ⟨i, hsome⟩
              have hnotOlder := (hjudges.record j ne hrecord).1
              exact absurd ⟨(nwk.eligible_of_passes panidRef hpasses).1, hnotOlder⟩
                (hnosuit ne (List.mem_of_getElem? hplace))
        exact ⟨hlast, (hjudges.empty ((nwk.lastPassing_eq_none_iff panidRef).mp hlast)).1⟩
    · intro ne i hret
      have hlast := (nwk.nwkChooseParent_eq_some_iff panidRef (ne, i)).mp hret
      obtain ⟨hplace, hpasses, hbest⟩ := nwk.lastPassing_eq_some panidRef hlast
      obtain ⟨j, hrecord⟩ := (nwk.isLastRecord_iff panidRef ne).mpr ⟨i, hlast⟩
      obtain ⟨hnotOlder, hrest⟩ := hjudges.record j ne hrecord
      refine ⟨hplace, ⟨(nwk.eligible_of_passes panidRef hpasses).1, hnotOlder⟩,
        fun other hother hsuit => ?_⟩
      by_cases hpass : nwk.Passes panidRef other
      · exact hbest other hother hpass
      · exact hrest other hother hsuit hpass

/-- A device with update identifier 20 which hears a router with identifier
10. -/
theorem not_choosesParent_older :
    let ne : ParentCandidate := {
      shortAddr := 1, longAddr := .zero, panidRef := 0, lqi := 255
      updateId := 10, depth := 1, stackProfile := 1, permitJoining := true
      routerCapacity := true, endDeviceCapacity := true
      potentialParent := true }
    let nwk : RejoinNwk := {
      role := .router, state := .idle, candidates := [ne]
      panidRef := fun _ => some 0, extendedPanId := 0
      isRouter := true, parent := none, updateId := 20
      rxOnWhenIdle := true, extendedAddress := .zero
      callbacks := [], alarms := [] }
    ¬ nwk.ChoosesParent 0 := by
  intro ne nwk hchooses
  have hret : nwk.nwkChooseParent 0 = some (some (ne, 0)) := by decide
  obtain ⟨-, hsuits, -⟩ := hchooses.best ne 0 hret
  exact hsuits.2 (by decide)

end RejoinNwk

end Zboss
