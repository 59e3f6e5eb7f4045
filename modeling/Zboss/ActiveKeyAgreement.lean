import Zboss.NetworkKeys
import Zboss.TransitionSystem

/-!
# Agreement of the active key index with the active key number

`active_secur_material_i` is documented as the index of the material whose
number is `active_key_seq_number`.  Receiving keys keeps this; a key switch
keeps it only for some arrangements of the stored numbers, since its search
goes on while the numbers are equal and its result is used without the shift.
-/

namespace Zboss

open Option TransitionSystem

inductive KeyCall where
  | switch (keyNumber : UInt8) (random : CcmKey)
  | transportKey (ind : TransportKeyIndication)

def KeyCall.apply (zg : Globals) : KeyCall → Option Globals
  | .switch keyNumber random => some (securNwkKeySwitch zg keyNumber random)
  | .transportKey ind => zbApsmeTransportKeyIndication zg ind

def Nib.Agrees (nib : Nib) : Prop :=
  (nib.securMaterialSet nib.activeSecurMaterialI).keySeqNumber = nib.activeKeySeqNumber

/-- The first state with keys: generated ones, the active index and number
still zero from the start, or the first one received, with number 0 in slot 0
before (as after the start and with a preconfigured key). -/
inductive KeyStart : Globals → Prop where
  | generated (zg : Globals) (random : Fin 3 → CcmKey)
      (hindex : zg.nib.activeSecurMaterialI = 0)
      (hnumber : zg.nib.activeKeySeqNumber = 0) :
      KeyStart { zg with nib := securGenerateKeys zg.nib random }
  | received (zg zg' : Globals) (ind : TransportKeyIndication)
      (hfirst : zg.authenticated = false)
      (hslot : (zg.nib.securMaterialSet 0).keySeqNumber = 0)
      (hkey : ind.standardNetworkKey = true)
      (hcall : zbApsmeTransportKeyIndication zg ind = some zg') :
      KeyStart zg'

/-- Either all stored keys have the number, or the slot whose index is the
length of the run of keys with this number, counted from the slot behind the
active one, has it too. -/
def SwitchSafe (nib : Nib) (keyNumber : UInt8) : Prop :=
  (∀ i, (nib.securMaterialSet i).keySeqNumber = keyNumber) ∨
    ∃ n : Fin 3, (nib.securMaterialSet n).keySeqNumber = keyNumber ∧
      (∀ j, j < n → (nib.securMaterialSet
        (j + (nib.activeSecurMaterialI + 1))).keySeqNumber = keyNumber) ∧
      (nib.securMaterialSet (n + (nib.activeSecurMaterialI + 1))).keySeqNumber ≠ keyNumber

/-- An all-zero first key, which confirms a predefined key, makes slot 0 active
under number 0. -/
def ConfirmsPredefined (zg : Globals) (ind : TransportKeyIndication) : Prop :=
  ind.standardNetworkKey = true ∧ zg.authenticated = false ∧
    ind.key = emptyKey ∧ ind.keySeqNumber = 0 ∧
    (rememberTrustCenter zg ind.srcAddress).isSome = true

def KeyCall.Safe (zg : Globals) : KeyCall → Prop
  | .switch keyNumber _ => SwitchSafe zg.nib keyNumber
  | .transportKey ind =>
      ConfirmsPredefined zg ind → (zg.nib.securMaterialSet 0).keySeqNumber = 0

theorem keySwitchLoop_spec (nib : Nib) (shift : Fin 3) (keyNumber : UInt8) (rounds i : ℕ) :
    i ≤ keySwitchLoop nib shift keyNumber rounds i ∧
      keySwitchLoop nib shift keyNumber rounds i ≤ i + rounds ∧
      (∀ j, i ≤ j → j < keySwitchLoop nib shift keyNumber rounds i →
        (nib.securMaterialSet (Fin.ofNat 3 j + shift)).keySeqNumber = keyNumber) ∧
      (keySwitchLoop nib shift keyNumber rounds i < i + rounds → (nib.securMaterialSet
          (Fin.ofNat 3 (keySwitchLoop nib shift keyNumber rounds i) +
            shift)).keySeqNumber ≠ keyNumber) := by
  induction rounds generalizing i with
  | zero =>
    rw [keySwitchLoop]
    exact ⟨Nat.le_refl i, Nat.le_refl i, fun j hj hj' => by omega, fun hlt => by omega⟩
  | succ rounds ih =>
    rw [keySwitchLoop]
    by_cases hmatch :
        (nib.securMaterialSet (Fin.ofNat 3 i + shift)).keySeqNumber = keyNumber
    · rw [if_pos hmatch]
      obtain ⟨hge, hle, hbefore, hstop⟩ := ih (i + 1)
      refine ⟨by omega, by omega, ?_, ?_⟩
      · intro j hj hj'
        rcases Nat.eq_or_lt_of_le hj with rfl | hlt
        · exact hmatch
        · exact hbefore j hlt hj'
      · intro hlt
        exact hstop (by omega)
    · rw [if_neg hmatch]
      refine ⟨Nat.le_refl i, by omega, fun j hj hj' => by omega, ?_⟩
      intro _
      exact hmatch

theorem keySwitchLoop_all {nib : Nib} {shift : Fin 3} {keyNumber : UInt8}
    (hall : ¬ keySwitchLoop nib shift keyNumber 3 0 < 3) (slot : Fin 3) :
    (nib.securMaterialSet slot).keySeqNumber = keyNumber := by
  obtain ⟨_, _, hbefore, _⟩ := keySwitchLoop_spec nib shift keyNumber 3 0
  have hmatch := hbefore (slot - shift).val (Nat.zero_le _) (by omega)
  have hslot : slot - shift + shift = slot := by
    ext
    simp only [Fin.val_add, Fin.val_sub]
    omega
  rwa [Fin.ofNat_val_eq_self, hslot] at hmatch

theorem switchSafe_iff (nib : Nib) (keyNumber : UInt8) : SwitchSafe nib keyNumber ↔
      ∀ hfound : keySwitchLoop nib (nib.activeSecurMaterialI + 1) keyNumber 3 0 < 3,
        (nib.securMaterialSet ⟨_, hfound⟩).keySeqNumber = keyNumber := by
  obtain ⟨_, _, hbefore, hstop⟩ :=
    keySwitchLoop_spec nib (nib.activeSecurMaterialI + 1) keyNumber 3 0
  have hall := @keySwitchLoop_all nib (nib.activeSecurMaterialI + 1) keyNumber
  generalize keySwitchLoop nib (nib.activeSecurMaterialI + 1) keyNumber 3 0 = i
    at hbefore hstop hall
  constructor
  · rintro (hequal | ⟨n, hn, hrun, hend⟩) hfound
    · exact hequal _
    · have hvalue : Fin.ofNat 3 i = ⟨i, hfound⟩ :=
        Fin.ofNat_val_eq_self ⟨i, hfound⟩
      rcases Nat.lt_trichotomy n.val i with hlt | heq | hgt
      · have hmatch := hbefore n.val (Nat.zero_le _) hlt
        rw [Fin.ofNat_val_eq_self] at hmatch
        exact absurd hmatch hend
      · have hslot : n = ⟨i, hfound⟩ := Fin.ext heq
        rwa [← hslot]
      · have hmismatch := hstop (by omega)
        rw [hvalue] at hmismatch
        exact absurd (hrun ⟨i, hfound⟩ hgt) hmismatch
  · intro hfound
    by_cases hlt : i < 3
    · right
      have hvalue : Fin.ofNat 3 i = ⟨i, hlt⟩ := Fin.ofNat_val_eq_self ⟨i, hlt⟩
      refine ⟨⟨i, hlt⟩, hfound hlt, ?_, ?_⟩
      · intro j hj
        have hmatch := hbefore j.val (Nat.zero_le _) hj
        rwa [Fin.ofNat_val_eq_self] at hmatch
      · have hmismatch := hstop (by omega)
        rwa [hvalue] at hmismatch
    · exact Or.inl (hall hlt)

theorem agrees_switch_iff (zg : Globals) (keyNumber : UInt8) (random : CcmKey)
    (hagrees : zg.nib.Agrees) :
    (securNwkKeySwitch zg keyNumber random).nib.Agrees ↔
      SwitchSafe zg.nib keyNumber := by
  rw [switchSafe_iff]
  simp only [securNwkKeySwitch]
  by_cases hfound :
      keySwitchLoop zg.nib (zg.nib.activeSecurMaterialI + 1) keyNumber 3 0 < 3
  · rw [dif_pos hfound]
    constructor
    · intro hafter _
      exact hafter
    · intro hsafe
      exact hsafe hfound
  · rw [dif_neg hfound]
    have hsafe : ∀ hlt : keySwitchLoop zg.nib
        (zg.nib.activeSecurMaterialI + 1) keyNumber 3 0 < 3,
        (zg.nib.securMaterialSet ⟨_, hlt⟩).keySeqNumber = keyNumber :=
      fun hlt => absurd hlt hfound
    simp only [hsafe, implies_true, iff_true]
    split
    · simp [Nib.Agrees, Nib.activate, securGenerateKey, Nib.setMaterial]
    · exact hagrees

theorem active_of_agrees_switch (zg : Globals) (keyNumber : UInt8) (random : CcmKey)
    (hagrees : (securNwkKeySwitch zg keyNumber random).nib.Agrees) :
    ((securNwkKeySwitch zg keyNumber random).nib.securMaterialSet
      (securNwkKeySwitch zg keyNumber random).nib.activeSecurMaterialI
        ).keySeqNumber = keyNumber := by
  simp only [securNwkKeySwitch] at hagrees ⊢
  by_cases hfound :
      keySwitchLoop zg.nib (zg.nib.activeSecurMaterialI + 1) keyNumber 3 0 < 3
  · rw [dif_pos hfound] at hagrees ⊢
    exact hagrees
  · rw [dif_neg hfound] at hagrees ⊢
    split at hagrees
    · rename_i htc
      rw [if_pos htc]
      exact hagrees
    · rename_i htc
      rw [if_neg htc]
      exact keySwitchLoop_all hfound _

theorem rememberTrustCenter_eq_some {zg zg' : Globals} {srcAddress : IeeeAddr}
    (hremember : rememberTrustCenter zg srcAddress = some zg') :
    zg'.nib = zg.nib ∧ zg'.authenticated = zg.authenticated ∧
      zg'.isTc = zg.isTc ∧ zg'.neighbor = zg.neighbor ∧
      zg'.extendedAddress = zg.extendedAddress := by
  unfold rememberTrustCenter at hremember
  split at hremember
  · split at hremember
    · obtain rfl := some.inj hremember
      exact ⟨rfl, rfl, rfl, rfl, rfl⟩
    · contradiction
  · obtain rfl := some.inj hremember
    exact ⟨rfl, rfl, rfl, rfl, rfl⟩

theorem agrees_storeKey
    {nib : Nib} (hagrees : nib.Agrees) (key : CcmKey) (keySeqNumber : UInt8) :
    (storeKey nib key keySeqNumber).Agrees := by
  unfold storeKey
  dsimp only
  by_cases hslot : transportKeyIndex nib keySeqNumber = nib.activeSecurMaterialI
  · by_cases hnumber : keySeqNumber = nib.activeKeySeqNumber
    · subst hnumber
      rw [if_neg (by simp)]
      simp [Nib.Agrees, Nib.setMaterial, hslot]
    · rw [if_pos ⟨hslot, hnumber⟩]
      simp [Nib.Agrees, Nib.setMaterial, hslot]
  · rw [if_neg (fun h => hslot h.1)]
    simpa [Nib.Agrees, Nib.setMaterial, Function.update_of_ne (Ne.symm hslot)]
      using hagrees

theorem storeKey_slot (nib : Nib) (key : CcmKey) (keySeqNumber : UInt8) :
    (storeKey nib key keySeqNumber).securMaterialSet
      (transportKeyIndex nib keySeqNumber) = ⟨key, keySeqNumber⟩ := by
  unfold storeKey
  dsimp only
  split
  · simp [Nib.setMaterial]
  · simp [Nib.setMaterial]

theorem zbApsmeTransportKeyIndication_nib {zg zg' : Globals} {ind : TransportKeyIndication}
    (hkey : ind.standardNetworkKey = true)
    (hcall : zbApsmeTransportKeyIndication zg ind = some zg') :
    (rememberTrustCenter zg ind.srcAddress).isSome = true ∧
      (zg.authenticated = true → zg'.nib =
          if ind.key = emptyKey ∧ ind.keySeqNumber = 0 then zg.nib
          else storeKey zg.nib ind.key ind.keySeqNumber) ∧
      (zg.authenticated = false → zg'.nib =
          if ind.key = emptyKey ∧ ind.keySeqNumber = 0 then
            { zg.nib with
              activeKeySeqNumber := 0
              outgoingFrameCounter := 0
              activeSecurMaterialI := 0 }
          else
            { storeKey zg.nib ind.key ind.keySeqNumber with
              activeKeySeqNumber := ind.keySeqNumber
              outgoingFrameCounter := 0
              activeSecurMaterialI := transportKeyIndex zg.nib ind.keySeqNumber }) := by
  unfold zbApsmeTransportKeyIndication at hcall
  rw [if_pos hkey] at hcall
  obtain ⟨zg₁, hremember, hrest⟩ := bind_eq_some_iff.mp hcall
  obtain ⟨hnib, hauth, _⟩ := rememberTrustCenter_eq_some hremember
  refine ⟨by simp [hremember], ?_, ?_⟩
  · intro htrue
    rw [if_pos (hauth.trans htrue), some.injEq] at hrest
    rw [← hrest, hnib]
  · intro hfalse
    rw [if_neg (by simp [hauth, hfalse]), some.injEq] at hrest
    rw [← hrest, hnib]
    by_cases hconfirmed : ind.key = emptyKey ∧ ind.keySeqNumber = 0
    · simp [hconfirmed]
    · simp only [if_neg hconfirmed]

theorem agrees_transportKey {zg zg' : Globals} {ind : TransportKeyIndication}
    (hagrees : zg.authenticated = true ∨ ind.standardNetworkKey = false → zg.nib.Agrees)
    (hsafe : (KeyCall.transportKey ind).Safe zg)
    (hcall : zbApsmeTransportKeyIndication zg ind = some zg') :
    zg'.nib.Agrees := by
  by_cases hkey : ind.standardNetworkKey = true
  · obtain ⟨hremember, htrue, hfalse⟩ :=
      zbApsmeTransportKeyIndication_nib hkey hcall
    by_cases hauth : zg.authenticated = true
    · rw [htrue hauth]
      split
      · exact hagrees (Or.inl hauth)
      · exact agrees_storeKey (hagrees (Or.inl hauth)) ind.key ind.keySeqNumber
    · rw [Bool.not_eq_true] at hauth
      rw [hfalse hauth]
      split
      · rename_i hconfirmed
        exact hsafe ⟨hkey, hauth, hconfirmed.1, hconfirmed.2, hremember⟩
      · rw [Nib.Agrees, storeKey_slot]
  · unfold zbApsmeTransportKeyIndication at hcall
    rw [if_neg hkey, some.injEq] at hcall
    rw [← hcall]
    exact hagrees (Or.inr (by simpa using hkey))

theorem safe_of_agrees_transportKey {zg : Globals} {ind : TransportKeyIndication}
    (hafter : ∀ zg', zbApsmeTransportKeyIndication zg ind = some zg' → zg'.nib.Agrees) :
    (KeyCall.transportKey ind).Safe zg := by
  rintro ⟨hkey, hauth, hempty, hzero, hremember⟩
  obtain ⟨zg₁, hremember⟩ := isSome_iff_exists.mp hremember
  obtain ⟨_, hauth₁, _⟩ := rememberTrustCenter_eq_some hremember
  have hreturns : ∃ zg', zbApsmeTransportKeyIndication zg ind = some zg' := by
    simp [zbApsmeTransportKeyIndication, hkey, hremember, hauth₁, hauth]
  obtain ⟨zg', hcall⟩ := hreturns
  obtain ⟨_, _, hfalse⟩ := zbApsmeTransportKeyIndication_nib hkey hcall
  have hagrees := hafter zg' hcall
  rw [hfalse hauth, if_pos ⟨hempty, hzero⟩] at hagrees
  exact hagrees

theorem agrees_keyStart {zg : Globals} (hstart : KeyStart zg) : zg.nib.Agrees := by
  cases hstart with
  | generated zg random hindex hnumber =>
    simp [Nib.Agrees, securGenerateKeys, securGenerateKey, Nib.setMaterial,
      hindex, hnumber, Function.update]
  | received zg₀ _ ind hfirst hslot hkey hcall =>
    apply agrees_transportKey _ (fun _ => hslot) hcall
    rintro (hauth | hother)
    · rw [hfirst] at hauth
      contradiction
    · rw [hkey] at hother
      contradiction

/-- In a run from the first keys on, index and number agree in every state
exactly if every switch is a safe one, and every early confirmation of a
predefined key finds number 0 in slot 0.  Where they agree after a switch, the
active key has the number switched to. -/
theorem activeKeyAgreement_iff
    {zg : Globals} {calls : List KeyCall} (hstart : KeyStart zg) :
    (EveryState KeyCall.apply (fun zg => zg.nib.Agrees) zg calls ↔
        AlongRun KeyCall.apply (fun zg call => call.Safe zg) zg calls) ∧
      ∀ (zg : Globals) (keyNumber : UInt8) (random : CcmKey),
        (securNwkKeySwitch zg keyNumber random).nib.Agrees →
        (∃ i, (zg.nib.securMaterialSet i).keySeqNumber = keyNumber) →
        ((securNwkKeySwitch zg keyNumber random).nib.securMaterialSet
          (securNwkKeySwitch zg keyNumber random).nib.activeSecurMaterialI
            ).keySeqNumber = keyNumber := by
  have hexact : ∀ zg call, Nib.Agrees (Globals.nib zg) → True →
      ((∀ next, KeyCall.apply zg call = some next → next.nib.Agrees) ↔ call.Safe zg) := by
    intro zg call hagrees _
    cases call with
    | switch keyNumber random =>
        simp only [KeyCall.apply, some.injEq, forall_eq']
        exact agrees_switch_iff zg keyNumber random hagrees
    | transportKey ind =>
        constructor
        · exact safe_of_agrees_transportKey
        · intro hsafe next hcall
          exact agrees_transportKey (fun _ => hagrees) hsafe hcall
  constructor
  · exact everyState_iff_alongRun hexact (fun _ _ _ _ _ _ _ => trivial)
      (agrees_keyStart hstart) trivial
  · intro zg keyNumber random hagrees _
    exact active_of_agrees_switch zg keyNumber random hagrees

def generatedKeys : Globals :=
  { Globals.init .zero with
    isTc := true
    authenticated := true
    nib := securGenerateKeys .zeroed (fun i => Vector.replicate 16 i.val.toUInt8) }

theorem keyStart_generatedKeys : KeyStart generatedKeys :=
  .generated { Globals.init .zero with isTc := true, authenticated := true }
    (fun i => Vector.replicate 16 i.val.toUInt8) rfl rfl

theorem activeKeyAgreement_iff_generated :
    EveryState KeyCall.apply (fun zg => zg.nib.Agrees) generatedKeys [.switch 1 emptyKey] ↔
      AlongRun KeyCall.apply (fun zg call => call.Safe zg) generatedKeys
        [.switch 1 emptyKey] :=
  (activeKeyAgreement_iff (keyStart_generatedKeys)).1

/-- The second switch leaves index 1 active under number 2. -/
theorem not_agrees_of_second_switch : ∃ zg, KeyStart generatedKeys ∧
      run KeyCall.apply generatedKeys [.switch 1 emptyKey, .switch 2 emptyKey] = some zg ∧
      zg.nib.activeSecurMaterialI = 1 ∧ zg.nib.activeKeySeqNumber = 2 ∧
      (zg.nib.securMaterialSet 1).keySeqNumber = 1 ∧
      (zg.nib.securMaterialSet 2).keySeqNumber = 2 ∧
      ¬ zg.nib.Agrees := by
  have hresult : (run KeyCall.apply generatedKeys
          [.switch 1 emptyKey, .switch 2 emptyKey]).map
          (fun zg => (zg.nib.activeSecurMaterialI, zg.nib.activeKeySeqNumber,
            (zg.nib.securMaterialSet 1).keySeqNumber,
            (zg.nib.securMaterialSet 2).keySeqNumber)) =
        some (1, 2, 1, 2) := by
    decide +kernel
  obtain ⟨zg, hrun, hobserved⟩ := map_eq_some_iff.mp hresult
  simp only [Prod.mk.injEq] at hobserved
  obtain ⟨hindex, hnumber, hone, htwo⟩ := hobserved
  refine ⟨zg, keyStart_generatedKeys, hrun, hindex, hnumber, hone, htwo, ?_⟩
  rw [Nib.Agrees, hindex, hnumber, hone]
  decide

end Zboss
