import Zboss.ActiveKeyAgreement
import Zboss.NwkSecurityRoundTrip

/-!
# Nonces of outgoing frames

The nonce of a frame is determined by a frame counter, and the two outgoing
counters are restarted, saved and incremented by `zb_nwk_secure_frame`,
`secur_nwk_key_switch` and `zb_apsme_transport_key_indication`.  A counter is
in the same run until it is restarted; the numbers of the runs are part of the
history.
-/

namespace Zboss

open Option TransitionSystem

structure SentFrame where
  key : CcmKey
  frameCounter : UInt32
  run : ℕ
  deriving DecidableEq

/-- The state of the stack, with the runs of its two counters, the first
unused run number and the frames encrypted so far, the last one first. -/
structure SendState where
  zg : Globals
  outgoingRun : ℕ
  prevRun : ℕ
  nextRun : ℕ
  sent : List SentFrame

inductive SendCall where
  | secure (src : Buf) (macHdrSize : ℕ) (dst : Buf)
  | keySwitch (keyNumber : UInt8) (random : CcmKey)
  | transportKey (ind : TransportKeyIndication)

def unfilledAux (src : Buf) (macHdrSize : ℕ) : Option NwkAuxFrameHdr := do
  let nwkHdr := src.dataOffset.toNat + macHdrSize
  let fctl ← src.buf[nwkHdr + 1]?
  let auxPos ← auxPlace nwkHdr (zbNwkHdrSize fctl)
  loadAux src.buf auxPos

def SendState.nonce (state : SendState) (src : Buf) (macHdrSize : ℕ) :
    Option SentFrame := do
  let old ← unfilledAux src macHdrSize
  let (nib, aux) := fillAux state.zg src.useSameKey old.keySeqNumber
  let key ← securNwkKeyBySeq nib aux.keySeqNumber
  some
    { key := key
      frameCounter := aux.frameCounter
      run :=
        if src.useSameKey ∧ old.keySeqNumber ≠ state.zg.nib.activeKeySeqNumber then
          state.prevRun
        else state.outgoingRun }

def SendState.secure (aes128 : Aes128) (state : SendState) (src : Buf)
    (macHdrSize : ℕ) (dst : Buf) : Option SendState :=
  (zbNwkSecureFrame aes128 state.zg src macHdrSize dst).map fun (zg, _, _, ret) =>
      { state with
        zg := zg
        sent :=
          if ret = .ok () then (state.nonce src macHdrSize).toList ++ state.sent
          else state.sent }

def SendState.rotate (state : SendState) : SendState :=
  { state with
    prevRun := state.outgoingRun
    outgoingRun := state.nextRun
    nextRun := state.nextRun + 1 }

def SendState.restart (state : SendState) : SendState :=
  { state with
    outgoingRun := state.nextRun
    nextRun := state.nextRun + 1 }

def Switches (zg : Globals) (keyNumber : UInt8) : Prop :=
  keySwitchLoop zg.nib (zg.nib.activeSecurMaterialI + 1) keyNumber 3 0 < 3 ∨ zg.isTc = true

instance (zg : Globals) (keyNumber : UInt8) :
    Decidable (Switches zg keyNumber) :=
  inferInstanceAs (Decidable (_ ∨ _))

def Restarts (zg : Globals) (ind : TransportKeyIndication) : Prop :=
  ind.standardNetworkKey = true ∧ (zg.authenticated = false ∨
      (¬ (ind.key = emptyKey ∧ ind.keySeqNumber = 0) ∧
        transportKeyIndex zg.nib ind.keySeqNumber = zg.nib.activeSecurMaterialI ∧
        ind.keySeqNumber ≠ zg.nib.activeKeySeqNumber))

instance (zg : Globals) (ind : TransportKeyIndication) :
    Decidable (Restarts zg ind) :=
  inferInstanceAs (Decidable (_ ∧ _))

def SendCall.apply (aes128 : Aes128) (state : SendState) : SendCall → Option SendState
  | .secure src macHdrSize dst => state.secure aes128 src macHdrSize dst
  | .keySwitch keyNumber random =>
      let after := if Switches state.zg keyNumber then state.rotate else state
      some { after with zg := securNwkKeySwitch state.zg keyNumber random }
  | .transportKey ind =>
      let after := if Restarts state.zg ind then state.restart else state
      (zbApsmeTransportKeyIndication state.zg ind).map fun zg => { after with zg := zg }

def SendCall.frames : SendCall → ℕ
  | .secure _ _ _ => 1
  | _ => 0

def SendState.NoncesUnique (state : SendState) : Prop :=
  state.sent.Pairwise fun later earlier =>
    later.key = earlier.key → later.frameCounter ≠ earlier.frameCounter

/-- The frames encrypted under the same key took their counters from the run
from which this frame takes its counter. -/
def SendCall.Safe (state : SendState) : SendCall → Prop
  | .secure src macHdrSize _ =>
      match state.nonce src macHdrSize with
      | some frame =>
          ∀ earlier ∈ state.sent, earlier.key = frame.key → earlier.run = frame.run
      | none => True
  | _ => True

instance SendCall.decidableSafe (state : SendState) (call : SendCall) :
    Decidable (call.Safe state) := by
  unfold SendCall.Safe
  split
  · split <;> infer_instance
  · infer_instance

def Passed (frames : ℕ) (counter used : UInt32) : Prop :=
  0 < (counter - used).toNat ∧ (counter - used).toNat ≤ frames

variable {counter used : UInt32} {frames macHdrSize : ℕ} {aes128 : Aes128}
  {dst src : Buf} {next state : SendState} {zg' : Globals}

theorem Passed.mono {frames frames' : ℕ}
    (hpassed : Passed frames counter used) (hle : frames ≤ frames') :
    Passed frames' counter used :=
  ⟨hpassed.1, Nat.le_trans hpassed.2 hle⟩

theorem Passed.ne (hpassed : Passed frames counter used) : counter ≠ used := by
  rintro rfl
  simpa using hpassed.1

theorem Passed.increment
    (hpassed : Passed frames counter used) (hframes : frames + 1 < 2 ^ 32) :
    Passed (frames + 1) (counter + 1) used := by
  have hnext : (counter + 1 - used).toNat = (counter - used).toNat + 1 := by
    have hle := hpassed.2
    rw [UInt32.toNat_sub] at hle ⊢
    rw [UInt32.toNat_sub, UInt32.toNat_add, UInt32.toNat_one]
    omega
  constructor
  · omega
  · rw [hnext]
    exact Nat.succ_le_succ hpassed.2

theorem passed_increment_self (frames : ℕ) (counter : UInt32) :
    Passed (frames + 1) (counter + 1) counter := by
  have hone : (counter + 1 - counter).toNat = 1 := by
    have hlt := counter.toNat_lt
    rw [UInt32.toNat_sub, UInt32.toNat_add, UInt32.toNat_one]
    omega
  rw [Passed, hone]
  exact ⟨Nat.one_pos, Nat.succ_le_succ (Nat.zero_le _)⟩

theorem zbNwkSecureFrame_eq_some {zg zg' : Globals} {src src' dst dst' : Buf}
    {ret : Except RetError Unit}
    (hcall : zbNwkSecureFrame aes128 zg src macHdrSize dst = some (zg', src', dst', ret)) :
    ∃ old, unfilledAux src macHdrSize = some old ∧ zg' =
        { zg with
          nib := (fillAux zg src.useSameKey old.keySeqNumber).1 } ∧
      (ret = .ok () → ∃ key, securNwkKeyBySeq zg'.nib
            (fillAux zg src.useSameKey old.keySeqNumber).2.keySeqNumber =
          some key) := by
  unfold zbNwkSecureFrame at hcall
  obtain ⟨fctl, hfctl, hrest⟩ := bind_eq_some_iff.mp hcall
  obtain ⟨auxPos, hauxPos, hrest⟩ := bind_eq_some_iff.mp hrest
  obtain ⟨old, hold, hrest⟩ := bind_eq_some_iff.mp hrest
  have hunfilled : unfilledAux src macHdrSize = some old := by
    simp only [unfilledAux, hfctl, hauxPos, hold, bind_eq_bind, bind_some]
  refine ⟨old, hunfilled, ?_⟩
  obtain ⟨stored, _, hrest⟩ := bind_eq_some_iff.mp hrest
  split at hrest
  · simp only [some.injEq, Prod.mk.injEq] at hrest
    obtain ⟨rfl, _, _, rfl⟩ := hrest
    exact ⟨rfl, fun hok => by contradiction⟩
  · rename_i key hkey
    obtain ⟨sealed, _, hlast⟩ := bind_eq_some_iff.mp hrest
    simp only [some.injEq, Prod.mk.injEq] at hlast
    obtain ⟨rfl, _, _, rfl⟩ := hlast
    exact ⟨rfl, fun _ => ⟨key, hkey⟩⟩

theorem SendState.secure_eq_some
    (hstep : state.secure aes128 src macHdrSize dst = some next) :
    ∃ frame : SentFrame, ((frame.frameCounter = state.zg.nib.prevOutgoingFrameCounter ∧
          frame.run = state.prevRun ∧
          next.zg.nib.prevOutgoingFrameCounter = frame.frameCounter + 1 ∧
          next.zg.nib.outgoingFrameCounter = state.zg.nib.outgoingFrameCounter) ∨
        (frame.frameCounter = state.zg.nib.outgoingFrameCounter ∧
          frame.run = state.outgoingRun ∧
          next.zg.nib.outgoingFrameCounter = frame.frameCounter + 1 ∧
          next.zg.nib.prevOutgoingFrameCounter = state.zg.nib.prevOutgoingFrameCounter)) ∧
      next.prevRun = state.prevRun ∧ next.outgoingRun = state.outgoingRun ∧
      next.nextRun = state.nextRun ∧
      (next.sent = state.sent ∨ (state.nonce src macHdrSize = some frame ∧
          next.sent = frame :: state.sent)) := by
  obtain ⟨⟨zg', src', dst', ret⟩, hcall, rfl⟩ := map_eq_some_iff.mp hstep
  dsimp only
  obtain ⟨old, hold, rfl, hfound⟩ := zbNwkSecureFrame_eq_some hcall
  by_cases hok : ret = .ok ()
  · obtain ⟨key, hkey⟩ := hfound hok
    have hnonce : state.nonce src macHdrSize = some
          { key := key
            frameCounter :=
              (fillAux state.zg src.useSameKey old.keySeqNumber).2.frameCounter
            run :=
              if src.useSameKey ∧ old.keySeqNumber ≠ state.zg.nib.activeKeySeqNumber then
                state.prevRun
              else state.outgoingRun } := by
      simp only [SendState.nonce, hold, hkey, bind_eq_bind, bind_some]
    refine ⟨_, ?_, rfl, rfl, rfl, Or.inr ⟨hnonce, ?_⟩⟩
    · by_cases hprev : src.useSameKey = true ∧
          old.keySeqNumber ≠ state.zg.nib.activeKeySeqNumber
      · left
        simp only [fillAux, nextFrameCounter, if_pos hprev, and_self]
      · right
        simp only [fillAux, nextFrameCounter, if_neg hprev, and_self]
    · rw [if_pos hok, hnonce]
      rfl
  · by_cases hprev : src.useSameKey = true ∧
        old.keySeqNumber ≠ state.zg.nib.activeKeySeqNumber
    · refine ⟨⟨emptyKey, state.zg.nib.prevOutgoingFrameCounter,
        state.prevRun⟩, Or.inl ?_, rfl, rfl, rfl, Or.inl (if_neg hok)⟩
      simp only [fillAux, nextFrameCounter, if_pos hprev, and_self]
    · refine ⟨⟨emptyKey, state.zg.nib.outgoingFrameCounter,
        state.outgoingRun⟩, Or.inr ?_, rfl, rfl, rfl, Or.inl (if_neg hok)⟩
      simp only [fillAux, nextFrameCounter, if_neg hprev, and_self]

theorem securNwkKeySwitch_counters (zg : Globals) (keyNumber : UInt8) (random : CcmKey) :
    (¬ Switches zg keyNumber ∧ securNwkKeySwitch zg keyNumber random = zg) ∨
      (Switches zg keyNumber ∧
        (securNwkKeySwitch zg keyNumber random).nib.prevOutgoingFrameCounter =
          zg.nib.outgoingFrameCounter) := by
  unfold securNwkKeySwitch Switches
  dsimp only
  split
  · rename_i hfound
    exact Or.inr ⟨Or.inl hfound, rfl⟩
  · rename_i habsent
    split
    · rename_i htc
      exact Or.inr ⟨Or.inr htc, rfl⟩
    · rename_i htc
      exact Or.inl ⟨not_or.mpr ⟨habsent, htc⟩, rfl⟩

theorem storeKey_counters (nib : Nib) (key : CcmKey) (keySeqNumber : UInt8) :
    (storeKey nib key keySeqNumber).prevOutgoingFrameCounter =
        nib.prevOutgoingFrameCounter ∧
      (¬ (transportKeyIndex nib keySeqNumber = nib.activeSecurMaterialI ∧
          keySeqNumber ≠ nib.activeKeySeqNumber) →
        (storeKey nib key keySeqNumber).outgoingFrameCounter =
          nib.outgoingFrameCounter) := by
  unfold storeKey
  dsimp only
  split
  · rename_i hreplaces
    exact ⟨rfl, fun hkeeps => absurd hreplaces hkeeps⟩
  · exact ⟨rfl, fun _ => rfl⟩

theorem zbApsmeTransportKeyIndication_counters
    {zg zg' : Globals} {ind : TransportKeyIndication}
    (hcall : zbApsmeTransportKeyIndication zg ind = some zg') :
    zg'.nib.prevOutgoingFrameCounter = zg.nib.prevOutgoingFrameCounter ∧
      (¬ Restarts zg ind →
        zg'.nib.outgoingFrameCounter = zg.nib.outgoingFrameCounter) := by
  by_cases hkey : ind.standardNetworkKey = true
  · obtain ⟨_, htrue, hfalse⟩ := zbApsmeTransportKeyIndication_nib hkey hcall
    have hstored := storeKey_counters zg.nib ind.key ind.keySeqNumber
    by_cases hauth : zg.authenticated = true
    · rw [htrue hauth]
      split
      · exact ⟨rfl, fun _ => rfl⟩
      · rename_i hreceived
        refine ⟨hstored.1, ?_⟩
        intro hkeeps
        apply hstored.2
        intro hreplaces
        exact hkeeps ⟨hkey, Or.inr ⟨hreceived, hreplaces⟩⟩
    · rw [Bool.not_eq_true] at hauth
      rw [hfalse hauth]
      have hrestarts : Restarts zg ind := ⟨hkey, Or.inl hauth⟩
      split
      · exact ⟨rfl, fun hkeeps => absurd hrestarts hkeeps⟩
      · exact ⟨hstored.1, fun hkeeps => absurd hrestarts hkeeps⟩
  · unfold zbApsmeTransportKeyIndication at hcall
    rw [if_neg hkey, some.injEq] at hcall
    rw [← hcall]
    exact ⟨rfl, fun _ => rfl⟩

/-! ## The invariant -/

def CounterAhead (frames : ℕ) (state : SendState) (counterRun : ℕ)
    (counter : UInt32) : Prop :=
  ∀ frame ∈ state.sent, frame.run = counterRun → Passed frames counter frame.frameCounter

structure NonceInvariant (frames : ℕ) (state : SendState) : Prop where
  prevRun : state.prevRun < state.nextRun
  outgoingRun : state.outgoingRun < state.nextRun
  distinct : state.prevRun ≠ state.outgoingRun
  runs : ∀ frame ∈ state.sent, frame.run < state.nextRun
  prev : CounterAhead frames state state.prevRun state.zg.nib.prevOutgoingFrameCounter
  outgoing : CounterAhead frames state state.outgoingRun state.zg.nib.outgoingFrameCounter
  unique : state.NoncesUnique

theorem NonceInvariant.counterAhead_next (hinvariant : NonceInvariant frames state)
    (counter : UInt32) :
    CounterAhead frames state state.nextRun counter := by
  intro frame hframe hrun
  exact absurd (hinvariant.runs frame hframe) (by omega)

theorem counterAhead_secure {frame : SentFrame}
    {counterRun : ℕ} {counter counter' : UInt32}
    (hframes : frames + 1 < 2 ^ 32)
    (hahead : CounterAhead frames state counterRun counter)
    (hcounter : (counter' = counter ∧ frame.run ≠ counterRun) ∨
      (frame.frameCounter = counter ∧ counter' = counter + 1))
    (hsent : next.sent = state.sent ∨ next.sent = frame :: state.sent) :
    CounterAhead (frames + 1) next counterRun counter' := by
  have hbefore : ∀ earlier ∈ state.sent, earlier.run = counterRun →
      Passed (frames + 1) counter' earlier.frameCounter := by
    intro earlier hearlier hrun
    have hpassed := hahead earlier hearlier hrun
    rcases hcounter with ⟨rfl, _⟩ | ⟨_, rfl⟩
    · exact hpassed.mono (Nat.le_succ _)
    · exact hpassed.increment hframes
  intro sent hmem hrun
  rcases hsent with hsame | hcons
  · exact hbefore sent (hsame ▸ hmem) hrun
  · rw [hcons, List.mem_cons] at hmem
    rcases hmem with rfl | hearlier
    · rcases hcounter with ⟨_, hother⟩ | ⟨rfl, rfl⟩
      · exact absurd hrun hother
      · exact passed_increment_self _ _
    · exact hbefore sent hearlier hrun

section

variable (hinvariant : NonceInvariant frames state)

include hinvariant

theorem NonceInvariant.secure (hframes : frames + 1 < 2 ^ 32)
    (hsafe : (SendCall.secure src macHdrSize dst).Safe state)
    (hstep : state.secure aes128 src macHdrSize dst = some next) :
    NonceInvariant (frames + 1) next := by
  obtain ⟨frame, hcounters, hprevRun, houtgoingRun, hnextRun, hsent⟩ :=
    SendState.secure_eq_some hstep
  have hsent' : next.sent = state.sent ∨ next.sent = frame :: state.sent :=
    hsent.imp_right And.right
  have hframeRun : frame.run = state.prevRun ∨ frame.run = state.outgoingRun :=
    hcounters.imp (fun h => h.2.1) (fun h => h.2.1)
  have hdistinct := hinvariant.distinct
  -- the counter from which the frame takes its value is ahead of its run
  have hfresh : ∀ earlier ∈ state.sent, earlier.run = frame.run →
      frame.frameCounter ≠ earlier.frameCounter := by
    intro earlier hearlier hrun
    rcases hcounters with ⟨hcounter, hframe, _⟩ | ⟨hcounter, hframe, _⟩
    · rw [hcounter]
      exact (hinvariant.prev earlier hearlier (hrun.trans hframe)).ne
    · rw [hcounter]
      exact (hinvariant.outgoing earlier hearlier (hrun.trans hframe)).ne
  constructor
  · rw [hprevRun, hnextRun]
    exact hinvariant.prevRun
  · rw [houtgoingRun, hnextRun]
    exact hinvariant.outgoingRun
  · rw [hprevRun, houtgoingRun]
    exact hdistinct
  · rw [hnextRun]
    intro sent hmem
    rcases hsent' with hsame | hcons
    · exact hinvariant.runs sent (hsame ▸ hmem)
    · rw [hcons, List.mem_cons] at hmem
      rcases hmem with rfl | hearlier
      · rcases hframeRun with hrun | hrun
        · exact hrun ▸ hinvariant.prevRun
        · exact hrun ▸ hinvariant.outgoingRun
      · exact hinvariant.runs sent hearlier
  · rw [hprevRun]
    refine counterAhead_secure hframes hinvariant.prev ?_ hsent'
    rcases hcounters with ⟨hcounter, _, hincremented, _⟩ | ⟨_, hrun, _, hsame⟩
    · exact Or.inr ⟨hcounter, by rw [hincremented, hcounter]⟩
    · exact Or.inl ⟨hsame, by rw [hrun]; exact hdistinct.symm⟩
  · rw [houtgoingRun]
    refine counterAhead_secure hframes hinvariant.outgoing ?_ hsent'
    rcases hcounters with ⟨_, hrun, _, hsame⟩ | ⟨hcounter, _, hincremented, _⟩
    · exact Or.inl ⟨hsame, by rw [hrun]; exact hdistinct⟩
    · exact Or.inr ⟨hcounter, by rw [hincremented, hcounter]⟩
  · rcases hsent with hsame | ⟨hnonce, hcons⟩
    · rw [SendState.NoncesUnique, hsame]
      exact hinvariant.unique
    · rw [SendState.NoncesUnique, hcons]
      refine List.pairwise_cons.mpr ⟨?_, hinvariant.unique⟩
      intro earlier hearlier hkey
      simp only [SendCall.Safe, hnonce] at hsafe
      exact hfresh earlier hearlier (hsafe earlier hearlier hkey.symm)

theorem NonceInvariant.keySwitch (keyNumber : UInt8) (random : CcmKey) :
    NonceInvariant frames
      { (if Switches state.zg keyNumber then state.rotate else state) with
        zg := securNwkKeySwitch state.zg keyNumber random } := by
  rcases securNwkKeySwitch_counters state.zg keyNumber random with
    ⟨hstays, hsame⟩ | ⟨hswitches, hprev⟩
  · rw [if_neg hstays, hsame]
    exact hinvariant
  · rw [if_pos hswitches]
    have houtgoingRun := hinvariant.outgoingRun
    constructor
    · exact Nat.lt_succ_of_lt houtgoingRun
    · exact Nat.lt_succ_self _
    · exact Nat.ne_of_lt houtgoingRun
    · intro frame hframe
      exact Nat.lt_succ_of_lt (hinvariant.runs frame hframe)
    · intro frame hframe hrun
      dsimp only
      rw [hprev]
      exact hinvariant.outgoing frame hframe hrun
    · exact hinvariant.counterAhead_next _
    · exact hinvariant.unique

theorem NonceInvariant.transportKey {ind : TransportKeyIndication}
    (hcall : zbApsmeTransportKeyIndication state.zg ind = some zg') :
    NonceInvariant frames
      { (if Restarts state.zg ind then state.restart else state) with
        zg := zg' } := by
  obtain ⟨hprev, houtgoing⟩ := zbApsmeTransportKeyIndication_counters hcall
  have hprevAhead : CounterAhead frames state state.prevRun
      zg'.nib.prevOutgoingFrameCounter := by
    rw [hprev]
    exact hinvariant.prev
  by_cases hrestarts : Restarts state.zg ind
  · rw [if_pos hrestarts]
    constructor
    · exact Nat.lt_succ_of_lt hinvariant.prevRun
    · exact Nat.lt_succ_self _
    · exact Nat.ne_of_lt hinvariant.prevRun
    · intro frame hframe
      exact Nat.lt_succ_of_lt (hinvariant.runs frame hframe)
    · exact hprevAhead
    · exact hinvariant.counterAhead_next _
    · exact hinvariant.unique
  · rw [if_neg hrestarts]
    constructor
    · exact hinvariant.prevRun
    · exact hinvariant.outgoingRun
    · exact hinvariant.distinct
    · exact hinvariant.runs
    · exact hprevAhead
    · dsimp only
      rw [houtgoing hrestarts]
      exact hinvariant.outgoing
    · exact hinvariant.unique

end

def SendState.start (zg : Globals) : SendState where
  zg := zg
  outgoingRun := 1
  prevRun := 0
  nextRun := 2
  sent := []

/-- In any run with fewer than `2 ^ 32` frames, no two frames are encrypted
under the same key with the same counter, as long as no key is used with the
counters of different runs. -/
theorem noncesUnique_of_run {aes128 : Aes128} {zg : Globals} {calls : List SendCall}
    {last : SendState}
    (hframes : (calls.map SendCall.frames).sum < 2 ^ 32)
    (halong : AlongRun (SendCall.apply aes128)
      (fun state call => call.Safe state) (SendState.start zg) calls)
    (hrun : run (SendCall.apply aes128) (SendState.start zg) calls = some last) :
    last.NoncesUnique := by
  have hstart : NonceInvariant 0 (SendState.start zg) :=
    ⟨Nat.zero_lt_two, Nat.one_lt_two, Nat.zero_ne_one,
      fun _ hframe => absurd hframe List.not_mem_nil,
      fun _ hframe => absurd hframe List.not_mem_nil,
      fun _ hframe => absurd hframe List.not_mem_nil, List.Pairwise.nil⟩
  have hstep : ∀ frames state call next, NonceInvariant frames state →
      frames + call.frames ≤ 2 ^ 32 - 1 → SendCall.Safe state call →
      SendCall.apply aes128 state call = some next →
      NonceInvariant (frames + call.frames) next := by
    intro frames state call next hinvariant hbudget hsafe happly
    cases call with
    | secure src macHdrSize dst =>
        simp only [SendCall.frames] at hbudget ⊢
        exact hinvariant.secure (by omega) hsafe happly
    | keySwitch keyNumber random =>
        obtain rfl := some.inj happly
        exact hinvariant.keySwitch keyNumber random
    | transportKey ind =>
        obtain ⟨zg', hcall, rfl⟩ := map_eq_some_iff.mp happly
        exact hinvariant.transportKey hcall
  exact (invariant_of_run_within hstep hstart halong (by omega) hrun).unique

def sendAndSwitch : List SendCall :=
  [.secure pairedFrame 9 .zeroed, .secure pairedFrame 9 .zeroed,
    .keySwitch 1 emptyKey, .secure pairedFrame 9 .zeroed]

theorem noncesUnique_of_run_switch : ∃ last, run (SendCall.apply pairedCipher)
        (SendState.start (pairedSender 0)) sendAndSwitch = some last ∧
      last.sent = [⟨pairedKeys 1, 0, 2⟩, ⟨pairedKeys 0, 1, 1⟩, ⟨pairedKeys 0, 0, 1⟩] ∧
      last.NoncesUnique := by
  have hresult : (run (SendCall.apply pairedCipher) (SendState.start (pairedSender 0))
          sendAndSwitch).map SendState.sent =
        some [⟨pairedKeys 1, 0, 2⟩, ⟨pairedKeys 0, 1, 1⟩, ⟨pairedKeys 0, 0, 1⟩] := by
    decide +kernel
  obtain ⟨last, hrun, hsent⟩ := map_eq_some_iff.mp hresult
  have hsafe : AlongRun (SendCall.apply pairedCipher)
      (fun state call => call.Safe state) (SendState.start (pairedSender 0))
      sendAndSwitch := by
    decide +kernel
  exact ⟨last, hrun, hsent, noncesUnique_of_run (by decide) hsafe hrun⟩

/-- A switch to the number of the active key restarts the counter under the
same key. -/
theorem not_noncesUnique_of_same_key : ∃ last, run (SendCall.apply pairedCipher)
        (SendState.start (pairedSender 0))
        [.secure pairedFrame 9 .zeroed, .keySwitch 0 emptyKey,
          .secure pairedFrame 9 .zeroed] = some last ∧
      last.sent = [⟨pairedKeys 0, 0, 2⟩, ⟨pairedKeys 0, 0, 1⟩] ∧
      ¬ last.NoncesUnique := by
  have hresult : (run (SendCall.apply pairedCipher) (SendState.start (pairedSender 0))
          [.secure pairedFrame 9 .zeroed, .keySwitch 0 emptyKey,
            .secure pairedFrame 9 .zeroed]).map SendState.sent =
        some [⟨pairedKeys 0, 0, 2⟩, ⟨pairedKeys 0, 0, 1⟩] := by
    decide +kernel
  obtain ⟨last, hrun, hsent⟩ := map_eq_some_iff.mp hresult
  refine ⟨last, hrun, hsent, ?_⟩
  rw [SendState.NoncesUnique, hsent]
  decide

end Zboss
