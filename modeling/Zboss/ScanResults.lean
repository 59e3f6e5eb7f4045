import Zboss.MacScan

/-!
# What the confirm of a scan tells

The scans of `mac_scan.c` one after the other, with the bytes of the union
`rt_ctx`.  The flags of the active and of the orphan scan are both looked at
when a scan ends, each scan clears its own only, and an ED scan writes over
both; the levels which an ED scan reads do not get into its confirm.
-/

namespace Zboss

open TransitionSystem List

inductive ScanFrame where
  | beacon
  | realignment
  deriving DecidableEq

/-- The union `rt_ctx`.  At 0 are `got_realignment`, and `scan_timeout` of an
ED scan; at 1 are `beacon_found`, and its `channel_number`. -/
structure RtCtx where
  byte0 : UInt8
  byte1 : UInt8
  saveChannel : ℕ
  maxRssiValue : UInt8

structure ScanMac where
  rtCtx : RtCtx
  params : ScanParams
  energyDetect : ℕ → UInt8
  unscannedChannels : Finset ℕ
  mlmeScanInProgress : Bool
  edScanStepPassed : Bool
  currentChannel : ℕ

/-- A request which is accepted, the frames which arrive before the first step
and while the device is on a channel, and the level which it measures there. -/
structure ScanInput where
  params : ScanParams
  valid : params.valid = true
  handled : params.scanType ≠ .passive
  early : List ScanFrame
  frames : ℕ → List ScanFrame
  level : ℕ → UInt8

namespace ScanMac

def zbHandleScanRequest (mac : ScanMac) (params : ScanParams) : ScanMac :=
  let mac := { mac with
    params := params
    unscannedChannels := params.channels }
  match params.scanType with
  | .active => { mac with rtCtx.byte1 := 0 }
  | .ed =>
      { mac with
        rtCtx :=
          { byte0 := UInt8.ofNat (2 ^ params.scanDuration + 1)
            byte1 := 11
            saveChannel := mac.currentChannel
            maxRssiValue := 0 }
        params := ⟨.ed, 0, ∅⟩
        energyDetect := fun _ => 0
        edScanStepPassed := false }
  | .orphan => { mac with rtCtx.byte0 := 0 }
  | .passive => mac

def readRssi (mac : ScanMac) (rssi : UInt8) : ScanMac :=
  if mac.params.scanType = .ed then
    if mac.edScanStepPassed then
      { mac with rtCtx.maxRssiValue := max mac.rtCtx.maxRssiValue rssi }
    else { mac with edScanStepPassed := true }
  else mac

def found (mac : ScanMac) : Bool :=
  mac.params.scanType = .ed || mac.rtCtx.byte1 ≠ 0 || mac.rtCtx.byte0 ≠ 0

/-- `zb_mlme_scan_step`, with the status of the confirm if the scan ends. -/
def zbMlmeScanStep (mac : ScanMac) (rssi : UInt8) :
    ScanMac × Option ScanStatus :=
  match ScanCtx.nextChannel mac.unscannedChannels with
  | some channel =>
      ({ mac.readRssi rssi with
          mlmeScanInProgress := true
          currentChannel := channel
          unscannedChannels := mac.unscannedChannels.erase channel }, none)
  | none =>
      ({ mac with
          mlmeScanInProgress := false
          currentChannel :=
            if mac.params.scanType = .ed then mac.rtCtx.saveChannel
            else mac.currentChannel
          rtCtx.byte1 := if mac.found then 0 else mac.rtCtx.byte1 },
        some (if mac.found then .success else .noBeacon))

/-- `zb_mac_parse_recv_data` for a beacon, `zb_mlme_command_accept` for a
realignment command. -/
def receive (mac : ScanMac) : ScanFrame → ScanMac
  | .beacon => if mac.mlmeScanInProgress then { mac with rtCtx.byte1 := 1 } else mac
  | .realignment =>
      if mac.mlmeScanInProgress ∧ mac.params.scanType = .orphan then
        { mac with rtCtx.byte0 := 1 }
      else mac

def scanSteps (input : ScanInput) : ℕ → ScanMac → Option (List ℕ × ScanMac × ScanStatus)
  | 0, _ => none
  | fuel + 1, mac =>
      match mac.zbMlmeScanStep (input.level mac.currentChannel) with
      | (mac, some status) => some ([], mac, status)
      | (mac, none) =>
          (scanSteps input fuel ((input.frames mac.currentChannel).foldl receive mac)).map
              fun (visited, last) => (mac.currentChannel :: visited, last)

def scan (mac : ScanMac) (input : ScanInput) :
    Option (List ℕ × ScanMac × ScanStatus) :=
  scanSteps input 27 (input.early.foldl receive (mac.zbHandleScanRequest input.params))

def scanned (mac : ScanMac) (input : ScanInput) : Option ScanMac :=
  (mac.scan input).map (·.2.1)

end ScanMac

def scanChannels (channels : Finset ℕ) : List ℕ :=
  (List.range' 11 26).filter (· ∈ channels)

def ScanInput.Hears (input : ScanInput) (frame : ScanFrame) : Prop :=
  ∃ channel ∈ scanChannels input.params.channels, frame ∈ input.frames channel

structure ScanInput.Told (input : ScanInput) (visited : List ℕ)
    (last : ScanMac) (status : ScanStatus) : Prop where
  visits : ∀ channel ∈ input.params.channels, 11 ≤ channel → channel ≤ 26 →
    visited.count channel = 1
  active : input.params.scanType = .active → (status = .success ↔ input.Hears .beacon)
  orphan : input.params.scanType = .orphan → (status = .success ↔ input.Hears .realignment)
  ed : input.params.scanType = .ed →
    ∀ channel ∈ input.params.channels, 11 ≤ channel → channel ≤ 26 →
      last.energyDetect (channel - 11) = input.level channel

namespace ScanMac

def Faithful (mac : ScanMac) (input : ScanInput) : Prop :=
  ∃ visited last status, mac.scan input = some (visited, last, status) ∧
    input.Told visited last status

/-- No flag is left from before, or the frame of the scan arrives anyway; an
orphan scan hears no beacon; an ED scan measures nothing. -/
def Meets (mac : ScanMac) (input : ScanInput) : Prop :=
  match input.params.scanType with
  | .active => mac.rtCtx.byte0 = 0 ∨ input.Hears .beacon
  | .orphan => (mac.rtCtx.byte1 = 0 ∧ ¬ input.Hears .beacon) ∨ input.Hears .realignment
  | .ed => ∀ channel ∈ input.params.channels, 11 ≤ channel → channel ≤ 26 →
      input.level channel = 0
  | .passive => True

end ScanMac

section Channels

variable {channels : Finset ℕ} {channel : ℕ}

theorem nextChannel_eq_head? (channels : Finset ℕ) :
    ScanCtx.nextChannel channels = (scanChannels channels).head? := by
  rw [ScanCtx.nextChannel, scanChannels, List.head?_filter]

theorem nodup_scanChannels (channels : Finset ℕ) : (scanChannels channels).Nodup :=
  List.Nodup.filter _ nodup_range'

theorem scanChannels_erase {rest : List ℕ}
    (hcons : scanChannels channels = channel :: rest) :
    scanChannels (channels.erase channel) = rest := by
  have hnotMem : channel ∉ rest := (nodup_cons.mp (hcons ▸ nodup_scanChannels channels)).1
  have hfilter : scanChannels (channels.erase channel) =
      (scanChannels channels).filter (· ≠ channel) := by
    rw [scanChannels, scanChannels, filter_filter]
    refine filter_congr fun other _ => ?_
    simp [Finset.mem_erase]
  rw [hfilter, hcons, filter_cons_of_neg (by simp)]
  refine filter_eq_self.mpr fun other hother => ?_
  refine decide_eq_true ?_
  rintro rfl
  exact hnotMem hother

theorem count_scanChannels (hmem : channel ∈ channels) (hle : 11 ≤ channel)
    (hge : channel ≤ 26) : (scanChannels channels).count channel = 1 := by
  refine count_eq_one_of_mem (nodup_scanChannels channels) ?_
  rw [scanChannels, mem_filter, mem_range'_1]
  exact ⟨⟨hle, by omega⟩, decide_eq_true hmem⟩

theorem length_scanChannels_lt (channels : Finset ℕ) :
    (scanChannels channels).length < 27 := by
  have hle := length_filter_le (· ∈ channels) (List.range' 11 26)
  rw [length_range'] at hle
  exact Nat.lt_succ_of_le hle

end Channels

namespace ScanMac

variable {mac next : ScanMac} {input : ScanInput}

structure Listened (mac next : ScanMac) (frames : List ScanFrame) : Prop where
  params : next.params = mac.params
  unscanned : next.unscannedChannels = mac.unscannedChannels
  energyDetect : next.energyDetect = mac.energyDetect
  beacon : next.rtCtx.byte1 ≠ 0 ↔ mac.rtCtx.byte1 ≠ 0 ∨ .beacon ∈ frames
  realigned : next.rtCtx.byte0 ≠ 0 ↔ mac.rtCtx.byte0 ≠ 0 ∨
    mac.params.scanType = .orphan ∧ .realignment ∈ frames

theorem listened (hprogress : mac.mlmeScanInProgress = true) (frames : List ScanFrame) :
    mac.Listened (frames.foldl receive mac) frames := by
  induction frames generalizing mac with
  | nil => exact ⟨rfl, rfl, rfl, by simp, by simp⟩
  | cons frame rest ih =>
    rw [foldl_cons]
    cases frame with
    | beacon =>
      rw [receive, if_pos hprogress]
      obtain ⟨hparams, hunscanned, henergy, hbeacon, hrealigned⟩ :=
        @ih { mac with rtCtx.byte1 := 1 } hprogress
      refine ⟨hparams, hunscanned, henergy, ?_, ?_⟩
      · rw [hbeacon]
        simp
      · rw [hrealigned]
        simp
    | realignment =>
      rw [receive]
      by_cases horphan : mac.params.scanType = .orphan
      · rw [if_pos ⟨hprogress, horphan⟩]
        obtain ⟨hparams, hunscanned, henergy, hbeacon, hrealigned⟩ :=
          @ih { mac with rtCtx.byte0 := 1 } hprogress
        refine ⟨hparams, hunscanned, henergy, ?_, ?_⟩
        · rw [hbeacon]
          simp
        · rw [hrealigned]
          simp [horphan]
      · rw [if_neg (fun h => horphan h.2)]
        obtain ⟨hparams, hunscanned, henergy, hbeacon, hrealigned⟩ := ih hprogress
        refine ⟨hparams, hunscanned, henergy, ?_, ?_⟩
        · rw [hbeacon]
          simp
        · rw [hrealigned]
          simp [horphan]

theorem foldl_receive_idle (hidle : mac.mlmeScanInProgress = false)
    (frames : List ScanFrame) : frames.foldl receive mac = mac := by
  induction frames with
  | nil => rfl
  | cons frame rest ih =>
    have hsame : mac.receive frame = mac := by
      cases frame with
      | beacon => exact if_neg (by simp [hidle])
      | realignment => exact if_neg (by simp [hidle])
    rw [foldl_cons, hsame, ih]

structure Ends (mac : ScanMac) (input : ScanInput) (channels : List ℕ)
    (last : ScanMac) (status : ScanStatus) : Prop where
  idle : last.mlmeScanInProgress = false
  energyDetect : last.energyDetect = mac.energyDetect
  status : status = .success ↔ mac.params.scanType = .ed ∨
    (mac.rtCtx.byte1 ≠ 0 ∨ ∃ c ∈ channels, .beacon ∈ input.frames c) ∨
    (mac.rtCtx.byte0 ≠ 0 ∨ mac.params.scanType = .orphan ∧
      ∃ c ∈ channels, .realignment ∈ input.frames c)

theorem readRssi_same (mac : ScanMac) (rssi : UInt8) :
    (mac.readRssi rssi).params = mac.params ∧
      (mac.readRssi rssi).energyDetect = mac.energyDetect ∧
      (mac.readRssi rssi).rtCtx.byte0 = mac.rtCtx.byte0 ∧
      (mac.readRssi rssi).rtCtx.byte1 = mac.rtCtx.byte1 := by
  unfold readRssi
  split
  · split
    · exact ⟨rfl, rfl, rfl, rfl⟩
    · exact ⟨rfl, rfl, rfl, rfl⟩
  · exact ⟨rfl, rfl, rfl, rfl⟩

theorem scanSteps_spec {fuel : ℕ}
    (hfuel : (scanChannels mac.unscannedChannels).length < fuel) :
    ∃ last status, scanSteps input fuel mac =
        some (scanChannels mac.unscannedChannels, last, status) ∧
      mac.Ends input (scanChannels mac.unscannedChannels) last status := by
  induction fuel generalizing mac with
  | zero => exact absurd hfuel (Nat.not_lt_zero _)
  | succ fuel ih =>
    rw [scanSteps, zbMlmeScanStep, nextChannel_eq_head?]
    cases hchannels : scanChannels mac.unscannedChannels with
    | nil =>
      refine ⟨_, _, rfl, rfl, rfl, ?_⟩
      have hfound : mac.found = true ↔ mac.params.scanType = .ed ∨
          mac.rtCtx.byte1 ≠ 0 ∨ mac.rtCtx.byte0 ≠ 0 := by
        simp [found, or_assoc]
      split
      · rename_i htrue
        simpa using hfound.mp htrue
      · rename_i hfalse
        have hnot := mt hfound.mpr hfalse
        simpa using hnot
    | cons channel rest =>
      obtain ⟨hparams, henergy, hbyte0, hbyte1⟩ :=
        mac.readRssi_same (input.level mac.currentChannel)
      dsimp only [List.head?_cons]
      generalize hset : ({ mac.readRssi (input.level mac.currentChannel) with
          mlmeScanInProgress := true
          currentChannel := channel
          unscannedChannels := mac.unscannedChannels.erase channel } :
        ScanMac) = set
      have hlistened := @listened set (by rw [← hset]) (input.frames channel)
      have hrest : scanChannels ((input.frames channel).foldl receive
          set).unscannedChannels = rest := by
        rw [hlistened.unscanned, ← hset]
        exact scanChannels_erase hchannels
      rw [hchannels, length_cons] at hfuel
      obtain ⟨last, status, hsteps, hidle, hkept, hstatus⟩ :=
        @ih ((input.frames channel).foldl receive set) (by rw [hrest]; omega)
      refine ⟨last, status, ?_, hidle, ?_, ?_⟩
      · rw [hsteps, hrest]
        rfl
      · rw [hkept, hlistened.energyDetect, ← hset]
        exact henergy
      · rw [hstatus, hlistened.params, hlistened.beacon,
          hlistened.realigned, hrest, ← hset]
        dsimp only
        rw [hparams, hbyte0, hbyte1]
        simp only [exists_mem_cons_iff, and_or_left, or_assoc]

theorem scan_spec (hidle : mac.mlmeScanInProgress = false) (input : ScanInput) :
    ∃ last status, mac.scan input =
        some (scanChannels input.params.channels, last, status) ∧
      (mac.zbHandleScanRequest input.params).Ends input
        (scanChannels input.params.channels) last status := by
  have hhandled : (mac.zbHandleScanRequest input.params).mlmeScanInProgress = false ∧
      (mac.zbHandleScanRequest input.params).unscannedChannels =
        input.params.channels := by
    unfold zbHandleScanRequest
    cases input.params.scanType with
    | ed => exact ⟨hidle, rfl⟩
    | active => exact ⟨hidle, rfl⟩
    | passive => exact ⟨hidle, rfl⟩
    | orphan => exact ⟨hidle, rfl⟩
  have hspec := @scanSteps_spec (mac.zbHandleScanRequest input.params) input 27
    (length_scanChannels_lt _)
  rw [hhandled.2] at hspec
  rw [scan, foldl_receive_idle hhandled.1]
  exact hspec

theorem faithful_iff_meets (hidle : mac.mlmeScanInProgress = false)
    (input : ScanInput) : mac.Faithful input ↔ mac.Meets input := by
  obtain ⟨last, status, hscan, -, henergy, hstatus⟩ := scan_spec hidle input
  have htold : mac.Faithful input ↔
      input.Told (scanChannels input.params.channels) last status := by
    constructor
    · rintro ⟨visited, last', status', hscan', htold⟩
      rw [hscan] at hscan'
      obtain ⟨rfl, rfl, rfl⟩ : _ ∧ _ ∧ _ := by simpa using hscan'
      exact htold
    · exact fun htold => ⟨_, _, _, hscan, htold⟩
  have hvisits : ∀ channel ∈ input.params.channels, 11 ≤ channel →
      channel ≤ 26 → (scanChannels input.params.channels).count channel = 1 :=
    fun channel hmem hle hge => count_scanChannels hmem hle hge
  rw [htold, Meets]
  unfold zbHandleScanRequest at henergy hstatus
  cases htype : input.params.scanType with
  | passive => exact absurd htype input.handled
  | active =>
    rw [htype] at hstatus
    dsimp only at hstatus ⊢
    have hsuccess : status = .success ↔ input.Hears .beacon ∨ mac.rtCtx.byte0 ≠ 0 := by
      rw [hstatus]
      simp [ScanInput.Hears, htype]
    have hiff : (status = .success ↔ input.Hears .beacon) ↔
        mac.rtCtx.byte0 = 0 ∨ input.Hears .beacon := by
      rw [hsuccess, or_iff_left_iff_imp, or_iff_not_imp_left]
    constructor
    · intro htold
      exact hiff.mp (htold.active htype)
    · intro hmeets
      exact ⟨hvisits, fun _ => hiff.mpr hmeets, by simp [htype], by simp [htype]⟩
  | orphan =>
    rw [htype] at hstatus
    dsimp only at hstatus ⊢
    have hsuccess : status = .success ↔
        (mac.rtCtx.byte1 ≠ 0 ∨ input.Hears .beacon) ∨ input.Hears .realignment := by
      rw [hstatus]
      simp [ScanInput.Hears, htype]
    have hiff : (status = .success ↔ input.Hears .realignment) ↔
        (mac.rtCtx.byte1 = 0 ∧ ¬ input.Hears .beacon) ∨ input.Hears .realignment := by
      have hflag : (mac.rtCtx.byte1 ≠ 0 ∨ input.Hears .beacon) ↔
          ¬ (mac.rtCtx.byte1 = 0 ∧ ¬ input.Hears .beacon) := by
        rw [not_and_or, not_not]
      rw [hsuccess, or_iff_right_iff_imp, hflag, or_iff_not_imp_left]
    constructor
    · intro htold
      exact hiff.mp (htold.orphan htype)
    · intro hmeets
      exact ⟨hvisits, by simp [htype], fun _ => hiff.mpr hmeets, by simp [htype]⟩
  | ed =>
    rw [htype] at henergy
    dsimp only at henergy ⊢
    constructor
    · intro htold channel hmem hle hge
      rw [← htold.ed htype channel hmem hle hge, henergy]
    · intro hmeets
      refine ⟨hvisits, by simp [htype], by simp [htype], fun _ => ?_⟩
      intro channel hmem hle hge
      rw [hmeets channel hmem hle hge, henergy]

/-- From a device which does not scan, all scans of a run are confirmed
faithfully exactly if each of them meets its condition. -/
theorem scans_faithful_iff (mac : ScanMac)
    (hidle : mac.mlmeScanInProgress = false) (inputs : List ScanInput) :
    AlongRun scanned Faithful mac inputs ↔
      AlongRun scanned Meets mac inputs := by
  refine @alongRun_congr _ _ _ _ _
    (fun mac : ScanMac => mac.mlmeScanInProgress = false) ?_ ?_ _ _ hidle
  · intro mac input hidle
    exact faithful_iff_meets hidle input
  · intro mac input next hidle _ hnext
    obtain ⟨last, status, hscan, hends⟩ := scan_spec hidle input
    rw [scanned, hscan] at hnext
    obtain rfl := Option.some.inj hnext
    exact hends.idle

def start : ScanMac where
  rtCtx := ⟨0, 0, 0, 0⟩
  params := ⟨.ed, 0, ∅⟩
  energyDetect _ := 0
  unscannedChannels := ∅
  mlmeScanInProgress := false
  edScanStepPassed := false
  currentChannel := 11

def sampleInput (scanType : MacScanType) (frames : List ScanFrame)
    (handled : scanType ≠ .passive) : ScanInput where
  params := ⟨scanType, 3, {11}⟩
  valid := rfl
  handled := handled
  early := []
  frames _ := frames
  level _ := 0

theorem scans_faithful_iff_answered : AlongRun scanned Faithful start
      [sampleInput .orphan [.realignment] (by decide),
        sampleInput .active [.beacon] (by decide)] := by
  refine (scans_faithful_iff start rfl _).mpr ⟨.inr ?_, fun next _ =>
    ⟨.inr ?_, fun _ _ => trivial⟩⟩
  · exact ⟨11, by decide, by decide⟩
  · exact ⟨11, by decide, by decide⟩

/-- An active scan on a silent channel after an ED scan. -/
theorem not_faithful_active : ¬ AlongRun scanned Faithful start
      [sampleInput .ed [] (by decide), sampleInput .active [] (by decide)] := by
  intro hfaithful
  obtain ⟨last, status, hscan, hends⟩ :=
    @scan_spec start rfl (sampleInput .ed [] (by decide))
  have hnext : scanned start (sampleInput .ed [] (by decide)) = some last := by
    rw [scanned, hscan]
    rfl
  have hmeets := (faithful_iff_meets hends.idle _).mp (hfaithful.2 last hnext).1
  have hbyte0 : (scanned start (sampleInput .ed [] (by decide))).map
      (·.rtCtx.byte0) = some 9 := by
    decide +kernel
  rw [hnext] at hbyte0
  rcases hmeets with hzero | ⟨channel, -, hmem⟩
  · rw [Option.map_some, hzero] at hbyte0
    contradiction
  · exact absurd hmem not_mem_nil

end ScanMac

end Zboss
