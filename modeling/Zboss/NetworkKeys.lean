import Zboss.StackGlobals

/-!
# Network keys

The key set of the NIB: generation, look-up, switching, and the reception of a
key from the trust center (`zdo_secur.c`).  Random key bytes are parameters;
the callbacks which these functions schedule are left out.
-/

namespace Zboss

def emptyKey : CcmKey := Vector.replicate 16 0

def Nib.setMaterial (nib : Nib) (i : Fin 3) (material : SecurMaterial) : Nib :=
  { nib with securMaterialSet := Function.update nib.securMaterialSet i material }

/-- `random` stands for the bytes from `ZB_RANDOM`. -/
def securGenerateKey (nib : Nib) (i : Fin 3) (keySeq : UInt8) (random : CcmKey) :
    Nib :=
  nib.setMaterial i ⟨random, keySeq⟩

def securGenerateKeys (nib : Nib) (random : Fin 3 → CcmKey) : Nib :=
  securGenerateKey (securGenerateKey (securGenerateKey nib 0 0 (random 0)) 1 1 (random 1))
    2 2 (random 2)

def securNwkKeyLoop (nib : Nib) (keySeqNumber : UInt8) : ℕ → Fin 3 → Option CcmKey
  | 0, _ => none
  | cnt + 1, i =>
      if (nib.securMaterialSet i).keySeqNumber ≠ keySeqNumber then
        securNwkKeyLoop nib keySeqNumber cnt (i + 1)
      else some (nib.securMaterialSet i).key

def securNwkKeyBySeq (nib : Nib) (keySeqNumber : UInt8) : Option CcmKey :=
  securNwkKeyLoop nib keySeqNumber 3 nib.activeSecurMaterialI

/-- The search loop of `secur_nwk_key_switch` from `i` on: it goes on while the
numbers are equal. -/
def keySwitchLoop (nib : Nib) (shift : Fin 3) (keyNumber : UInt8) : ℕ → ℕ → ℕ
  | 0, i => i
  | rounds + 1, i =>
      if (nib.securMaterialSet (Fin.ofNat 3 i + shift)).keySeqNumber = keyNumber then
        keySwitchLoop nib shift keyNumber rounds (i + 1)
      else i

def Nib.activate (nib : Nib) (i : Fin 3) (keyNumber : UInt8) : Nib :=
  { nib with
    activeSecurMaterialI := i
    activeKeySeqNumber := keyNumber
    prevOutgoingFrameCounter := nib.outgoingFrameCounter
    outgoingFrameCounter := 0 }

def securNwkKeySwitch (zg : Globals) (keyNumber : UInt8) (random : CcmKey) :
    Globals :=
  let shift := zg.nib.activeSecurMaterialI + 1
  let i := keySwitchLoop zg.nib shift keyNumber 3 0
  if hfound : i < 3 then { zg with nib := zg.nib.activate ⟨i, hfound⟩ keyNumber }
  else if zg.isTc then
    { zg with
      nib :=
        (securGenerateKey zg.nib shift keyNumber random).activate shift
          keyNumber }
  else zg

/-- `zb_apsme_transport_key_indication_t`; other key types are dropped. -/
structure TransportKeyIndication where
  standardNetworkKey : Bool
  srcAddress : IeeeAddr
  key : CcmKey
  keySeqNumber : UInt8

def rememberTrustCenter (zg : Globals) (srcAddress : IeeeAddr) :
    Option Globals :=
  if zg.trustCenterAddress = .zero then
    match zbAddressUpdate zg.addr srcAddress 0 false with
    | some (addr, _) => some { zg with trustCenterAddress := srcAddress, addr := addr }
    | none => none
  else some zg

def transportKeyIndex (nib : Nib) (keySeqNumber : UInt8) : Fin 3 :=
  Fin.ofNat 3 (nib.activeSecurMaterialI.val +
      (keySeqNumber - nib.activeKeySeqNumber).toNat)

/-- Store a received key; a key which hits the active slot under another
number replaces the active key. -/
def storeKey (nib : Nib) (key : CcmKey) (keySeqNumber : UInt8) : Nib :=
  let i := transportKeyIndex nib keySeqNumber
  let stored := nib.setMaterial i ⟨key, keySeqNumber⟩
  if i = nib.activeSecurMaterialI ∧ keySeqNumber ≠ nib.activeKeySeqNumber then
    { stored with
      activeKeySeqNumber := keySeqNumber
      outgoingFrameCounter := 0 }
  else stored

def zbApsmeTransportKeyIndication (zg : Globals) (ind : TransportKeyIndication) :
    Option Globals :=
  if ind.standardNetworkKey then do
    let zg ← rememberTrustCenter zg ind.srcAddress
    let confirmed := ind.key = emptyKey ∧ ind.keySeqNumber = 0
    let i := if confirmed then 0 else transportKeyIndex zg.nib ind.keySeqNumber
    let nib := if confirmed then zg.nib else storeKey zg.nib ind.key ind.keySeqNumber
    if zg.authenticated then some { zg with nib := nib }
    else
      some
        { zg with
          authenticated := true
          nib :=
            { nib with
              activeKeySeqNumber := ind.keySeqNumber
              outgoingFrameCounter := 0
              activeSecurMaterialI := i } }
  else some zg

theorem securNwkKeyBySeq_congr {nib nib' : Nib} {keySeqNumber : UInt8}
    (hset : nib'.securMaterialSet = nib.securMaterialSet)
    (hactive : nib'.activeSecurMaterialI = nib.activeSecurMaterialI) :
    securNwkKeyBySeq nib' keySeqNumber = securNwkKeyBySeq nib keySeqNumber := by
  have hloop : ∀ cnt i, securNwkKeyLoop nib' keySeqNumber cnt i =
      securNwkKeyLoop nib keySeqNumber cnt i := by
    intro cnt
    induction cnt with
    | zero =>
      intro i
      rfl
    | succ cnt ih =>
      intro i
      rw [securNwkKeyLoop, securNwkKeyLoop, hset, ih]
  rw [securNwkKeyBySeq, securNwkKeyBySeq, hloop, hactive]

theorem securNwkKeyBySeq_eq_some {nib : Nib} {keySeqNumber : UInt8} {key : CcmKey}
    (hlookup : securNwkKeyBySeq nib keySeqNumber = some key) :
    ∃ i, (nib.securMaterialSet i).keySeqNumber = keySeqNumber ∧
      (nib.securMaterialSet i).key = key := by
  have hloop : ∀ cnt i, securNwkKeyLoop nib keySeqNumber cnt i = some key →
      ∃ i, (nib.securMaterialSet i).keySeqNumber = keySeqNumber ∧
        (nib.securMaterialSet i).key = key := by
    intro cnt
    induction cnt with
    | zero =>
      intro i hsome
      contradiction
    | succ cnt ih =>
      intro i hsome
      rw [securNwkKeyLoop] at hsome
      by_cases hseq : (nib.securMaterialSet i).keySeqNumber = keySeqNumber
      · rw [if_neg (not_not.mpr hseq), Option.some.injEq] at hsome
        exact ⟨i, hseq, hsome⟩
      · rw [if_pos hseq] at hsome
        exact ih _ hsome
  exact hloop 3 _ hlookup

theorem securNwkKeyBySeq_eq_none {nib : Nib} {keySeqNumber : UInt8}
    (hlookup : securNwkKeyBySeq nib keySeqNumber = none) (slot : Fin 3) :
    (nib.securMaterialSet slot).keySeqNumber ≠ keySeqNumber := by
  have hloop : ∀ cnt i, securNwkKeyLoop nib keySeqNumber cnt i = none →
      ∀ d, d < cnt → (nib.securMaterialSet (i + Fin.ofNat 3 d)).keySeqNumber ≠
          keySeqNumber := by
    intro cnt
    induction cnt with
    | zero =>
      intro i _ d hd
      omega
    | succ cnt ih =>
      intro i hnone d hd
      rw [securNwkKeyLoop] at hnone
      by_cases hseq : (nib.securMaterialSet i).keySeqNumber = keySeqNumber
      · rw [if_neg (not_not.mpr hseq)] at hnone
        contradiction
      · rw [if_pos hseq] at hnone
        cases d with
        | zero => simpa using hseq
        | succ d =>
          have hrest := ih _ hnone d (by omega)
          have hstep : i + 1 + Fin.ofNat 3 d = i + Fin.ofNat 3 (d + 1) := by
            ext
            simp only [Fin.val_add, Fin.val_ofNat]
            omega
          rwa [hstep] at hrest
  have hvisited := hloop 3 _ hlookup (slot - nib.activeSecurMaterialI).val (by omega)
  rw [Fin.ofNat_val_eq_self] at hvisited
  have hslot : nib.activeSecurMaterialI + (slot - nib.activeSecurMaterialI) =
      slot := by
    ext
    simp only [Fin.val_add, Fin.val_sub]
    omega
  rwa [hslot] at hvisited

end Zboss
