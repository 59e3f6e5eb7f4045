import Zboss.PanidConflict
import Mathlib.Order.Lattice.Nat

/-!
# The choice of a new PAN identifier

The loop of `zb_panid_conflict_network_update` over any stream of random
values.  It goes on only after a zero which is not in the table, so that the
first value which is not zero ends it, known or not.
-/

namespace Zboss

def UsablePanid (known : KnownPanids) (panid : UInt16) : Prop :=
  panid ≠ 0 ∧ panid ∉ known

instance (known : KnownPanids) (panid : UInt16) :
    Decidable (UsablePanid known panid) :=
  inferInstanceAs (Decidable (_ ∧ _))

def drawn (stream : ℕ → UInt16) (n : ℕ) : List UInt16 :=
  (List.range n).map stream

/-- The loop ends on the stream, with `newPanid` as the new identifier. -/
def ChoosesPanid (device : PanidDevice) (param : ℕ) (stream : ℕ → UInt16)
    (newPanid : UInt16) : Prop :=
  ∃ n result, zbPanidConflictNetworkUpdate (drawn stream n) device param =
    some result ∧ result.1.newPanid = newPanid

structure ChoosesRight
    (device : PanidDevice) (param : ℕ) (stream : ℕ → UInt16) : Prop where
  ends : ∃ newPanid, ChoosesPanid device param stream newPanid
  usable : ∀ newPanid, ChoosesPanid device param stream newPanid →
    UsablePanid device.knownPanids newPanid

/-- Until the first usable value only zeros are drawn, and none of them if the
table has a zero. -/
def OnlyZerosBefore (known : KnownPanids) (stream : ℕ → UInt16) : Prop :=
  ∀ n, UsablePanid known (stream n) → (∀ k < n, ¬ UsablePanid known (stream k)) →
      ∀ k < n, stream k = 0 ∧ 0 ∉ known

section Loop

variable {known : KnownPanids} {stream : ℕ → UInt16} {n : ℕ}

def EndsLoop (known : KnownPanids) (draw : UInt16) : Prop :=
  ¬ (draw = 0 ∧ draw ∉ known)

instance (known : KnownPanids) (draw : UInt16) :
    Decidable (EndsLoop known draw) :=
  inferInstanceAs (Decidable (¬ _))

theorem UsablePanid.endsLoop {panid : UInt16}
    (husable : UsablePanid known panid) : EndsLoop known panid :=
  fun hzero => husable.1 hzero.1

theorem chooseNewPanid_eq (known : KnownPanids) (draws : List UInt16) :
    chooseNewPanid known draws = draws.find? fun draw => decide (EndsLoop known draw) := by
  unfold chooseNewPanid
  congr 1
  funext draw
  rw [Bool.eq_iff_iff, decide_eq_true_eq]
  simp [EndsLoop, imp_iff_not_or]

theorem chooseNewPanid_drawn (hends : EndsLoop known (stream n))
    (hgoes : ∀ k < n, ¬ EndsLoop known (stream k)) (m : ℕ) :
    chooseNewPanid known (drawn stream m) =
      if n < m then some (stream n) else none := by
  rw [chooseNewPanid_eq, drawn, List.find?_map]
  split
  case isTrue hlt =>
    have hfirst : (List.range m).find?
        ((fun draw => decide (EndsLoop known draw)) ∘ stream) = some n := by
      rw [List.find?_range_eq_some]
      refine ⟨decide_eq_true hends, List.mem_range.mpr hlt, ?_⟩
      intro k hk
      simp [hgoes k hk]
    rw [hfirst]
    rfl
  case isFalse hge =>
    rw [List.find?_range_eq_none.mpr]
    · rfl
    · intro k hk
      simp [hgoes k (by omega)]

theorem choosesPanid_iff {device : PanidDevice} {param : ℕ} {newPanid : UInt16}
    (hends : EndsLoop device.knownPanids (stream n))
    (hgoes : ∀ k < n, ¬ EndsLoop device.knownPanids (stream k)) :
    ChoosesPanid device param stream newPanid ↔ newPanid = stream n := by
  have hdrawn := chooseNewPanid_drawn hends hgoes
  constructor
  · rintro ⟨m, result, hresult, rfl⟩
    rw [zbPanidConflictNetworkUpdate, hdrawn] at hresult
    obtain ⟨panid, hpanid, rfl⟩ := Option.map_eq_some_iff.mp hresult
    split at hpanid
    · exact (Option.some.inj hpanid).symm
    · contradiction
  · rintro rfl
    have hrun :=
      congrArg (Option.map fun newPanid => (zbNwkUpdateBeaconPayload
        { device with newPanid := newPanid },
          [PanidCall.callback .sendNwkUpdate param, .alarm .setPanid]))
        ((hdrawn (n + 1)).trans (if_pos (Nat.lt_succ_self n)))
    exact ⟨n + 1, _, hrun, rfl⟩

end Loop

/-- On a stream with a usable value the loop ends, and it ends with a usable
value exactly if only zeros which are not in the table come before it. -/
theorem choosesRight_iff (device : PanidDevice) (param : ℕ) (stream : ℕ → UInt16)
    (husable : ∃ n, UsablePanid device.knownPanids (stream n)) :
    ChoosesRight device param stream ↔
      OnlyZerosBefore device.knownPanids stream := by
  have hstops : ∃ n, EndsLoop device.knownPanids (stream n) :=
    husable.imp fun _ husable => husable.endsLoop
  have hgoes : ∀ k < Nat.find hstops, ¬ EndsLoop device.knownPanids (stream k) :=
    fun k hk => Nat.find_min hstops hk
  have hchooses (newPanid : UInt16) : ChoosesPanid device param stream newPanid ↔
        newPanid = stream (Nat.find hstops) :=
    choosesPanid_iff (Nat.find_spec hstops) hgoes
  constructor
  · intro hright n hn hfirst k hk
    have hlast := hright.usable _ ((hchooses _).mpr rfl)
    have hle : n ≤ Nat.find hstops := by
      by_contra hlt
      exact hfirst _ (by omega) hlast
    obtain ⟨hzero, habsent⟩ := not_not.mp (hgoes k (by omega))
    exact ⟨hzero, hzero ▸ habsent⟩
  · intro hzeros
    have hn := Nat.find_spec husable
    have hfirst : Nat.find hstops = Nat.find husable := by
      apply le_antisymm (Nat.find_min' hstops hn.endsLoop)
      by_contra hlt
      have hbefore := hzeros _ hn (fun k hk => Nat.find_min husable hk) _ (not_le.mp hlt)
      apply Nat.find_spec hstops
      rw [hbefore.1]
      exact ⟨rfl, hbefore.2⟩
    refine ⟨⟨_, (hchooses _).mpr rfl⟩, ?_⟩
    intro newPanid hnew
    rw [(hchooses _).mp hnew, hfirst]
    exact hn

def informedManager : PanidDevice where
  state := .idle
  joined := true
  joinedPro := false
  shortAddr := 0
  nwkManagerAddr := 0
  panId := 0x1AAA
  extPanId := 1
  depth := 0
  updateId := 0
  associationPermit := false
  beaconPayload := ⟨0, 1, 2, false, 0, false, 1, 0xFFFFFF, 0⟩
  beaconPayloadLength := 15
  knownPanids := knownOfReport (fun _ => 0x1AAA) 1
  newPanid := 0
  panidConflict := false

theorem choosesRight_first : ChoosesRight informedManager 0 (fun _ => 0x2BBB) ↔
      OnlyZerosBefore informedManager.knownPanids fun _ => 0x2BBB :=
  choosesRight_iff informedManager 0 (fun _ => 0x2BBB) ⟨0, by decide +kernel⟩

/-- The known identifier is drawn, and chosen. -/
theorem not_choosesRight_collision :
    ¬ ∀ (device : PanidDevice) (param : ℕ) (stream : ℕ → UInt16),
      (∃ n, UsablePanid device.knownPanids (stream n)) →
        ChoosesRight device param stream := by
  intro hall
  have hright := hall informedManager 0
    (fun n => if n = 0 then 0x1AAA else 0x2BBB) ⟨1, by decide +kernel⟩
  have husable := hright.usable 0x1AAA ⟨1, _, rfl, rfl⟩
  exact absurd husable (by decide +kernel)

end Zboss
