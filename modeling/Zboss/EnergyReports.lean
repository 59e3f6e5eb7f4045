import Zboss.ChannelChange

/-!
# Energy reports

The report of an energy scan: `zb_nlme_ed_scan_confirm` collects the energies,
`zb_zdo_nwk_upd_notify` packs them, and `zdo_change_channel` reads them.
-/

namespace Zboss

open List ScanNotify ByteOrder

/-- `nwk_upd_req` of the ZDO, with the counters of the NIB. -/
structure EdScanCtx where
  scanChannels : UInt32
  tsn : UInt8
  dstAddr : UInt16
  nwkTxTotal : UInt16
  nwkTxFail : UInt16

structure EdScanConfirm where
  status : UInt8
  unscannedChannels : UInt32
  energyDetect : ℕ → UInt8

structure UpdateNotifyParam where
  status : UInt8
  scannedChannels : UInt32
  totalTransmissions : UInt16
  transmissionFailures : UInt16
  scannedChannelsListCount : UInt8
  energyValues : List UInt8
  dstAddr : UInt16
  tsn : UInt8

structure EnergyList where
  channelMaskMul : UInt32
  energyValues : List UInt8

def EnergyList.lookAt (channelMask : UInt32) (energyDetect : ℕ → UInt8) (list : EnergyList)
    (i : ℕ) : EnergyList :=
  if channelMask &&& list.channelMaskMul ≠ 0 then
    { channelMaskMul := list.channelMaskMul * 2
      energyValues := list.energyValues ++ [energyDetect (i - macStartChannelNumber)] }
  else list

def energyList (channelMask : UInt32) (energyDetect : ℕ → UInt8) (count : ℕ) :
    EnergyList :=
  (List.range' macStartChannelNumber count).foldl
    (EnergyList.lookAt channelMask energyDetect) ⟨0x800, []⟩

/-- `zb_nlme_ed_scan_confirm` when an energy scan of the ZDO is in progress. -/
def zbNlmeEdScanConfirm (ctx : EdScanCtx) (confirm : EdScanConfirm) :
    UpdateNotifyParam :=
  let scannedChannels := ctx.scanChannels &&& ~~~confirm.unscannedChannels
  let list := energyList scannedChannels confirm.energyDetect
    macSupportedChannels
  { status := confirm.status
    scannedChannels
    totalTransmissions := ctx.nwkTxTotal
    transmissionFailures := ctx.nwkTxFail
    scannedChannelsListCount := UInt8.ofNat list.energyValues.length
    energyValues := list.energyValues
    dstAddr := ctx.dstAddr
    tsn := ctx.tsn }

def zbZdoNwkUpdNotify (order : ByteOrder) (param : UpdateNotifyParam) :
    List UInt8 :=
  [param.status] ++ littleEndian.bytes 4 param.scannedChannels.toNat ++
    order.bytes 2 param.totalTransmissions.toNat ++
    order.bytes 2 param.transmissionFailures.toNat ++
    [param.scannedChannelsListCount] ++
    param.energyValues.take param.scannedChannelsListCount.toNat

def ScanNotify.ofBody (order : ByteOrder) (body : List UInt8) (behind : ℕ → UInt8) :
    ScanNotify where
  status := body.getD 0 (behind 0)
  scannedChannels := UInt32.ofNat (order.ofBytes ((body.drop 1).take 4))
  scannedChannelsListCount := body.getD 9 (behind 9)
  scanResult k := body.getD (10 + k) (behind (10 + k))

/-- The energy which the loop of `zdo_change_channel` takes for the one of the
channel `i`, `none` if it passes the channel. -/
def ScanNotify.readAt (notify : ScanNotify) (current : UInt8) (i : ℕ) :
    Option UInt8 :=
  if notify.scanned i then
    some (notify.scanResult (notify.search current (i - macStartChannelNumber)).index)
  else none

def scannedList (mask : UInt32) : List ℕ :=
  (List.range' macStartChannelNumber macSupportedChannels).filter mask.toNat.testBit

structure ReportsEnergies (order : ByteOrder) (mask : UInt32) (energyDetect : ℕ → UInt8)
    (param : UpdateNotifyParam) (body : List UInt8) : Prop where
  scannedChannels : param.scannedChannels = mask
  values : body.drop 10 =
    (scannedList mask).map fun i => energyDetect (i - macStartChannelNumber)
  count : param.scannedChannelsListCount.toNat = (scannedList mask).length
  read : ∀ behind current i, macStartChannelNumber ≤ i → i ≤ macMaxChannelNumber →
      (ofBody order body behind).readAt current i = if mask.toNat.testBit i then
          some (energyDetect (i - macStartChannelNumber))
        else none

def NoGap (mask : UInt32) : Prop :=
  ∀ i j, macStartChannelNumber ≤ i → i < j → j ≤ macMaxChannelNumber →
    mask.toNat.testBit j = true → mask.toNat.testBit i = true

/-- The bits of the channels are the same in the mask as it is sent. -/
def ReadsMask (order : ByteOrder) (mask : UInt32) : Prop :=
  ∀ i, macStartChannelNumber ≤ i → i ≤ macMaxChannelNumber →
    (order.ofBytes (littleEndian.bytes 4 mask.toNat)).testBit i = mask.toNat.testBit i

section Writer

variable {mask : UInt32} {energyDetect : ℕ → UInt8} {k count : ℕ}

def maskMul (k : ℕ) : UInt32 :=
  channelBit (fun _ => 0) (UInt8.ofNat (macStartChannelNumber + k))

theorem maskMul_succ : ∀ k < 16, maskMul k * 2 = maskMul (k + 1) := by
  decide

theorem and_maskMul_iff (hk : k ≤ 16) : mask &&& maskMul k ≠ 0 ↔
      mask.toNat.testBit (macStartChannelNumber + k) = true := by
  have htoNat : (UInt8.ofNat (macStartChannelNumber + k)).toNat =
      macStartChannelNumber + k := by
    rw [UInt8.toNat_ofNat', macStartChannelNumber]
    omega
  have hlt : UInt8.ofNat (macStartChannelNumber + k) < 32 := by
    rw [UInt8.lt_iff_toNat_lt, htoNat, macStartChannelNumber]
    exact Nat.lt_of_le_of_lt (Nat.add_le_add_left hk 11) (by decide)
  rw [maskMul, and_channelBit_iff hlt, htoNat]

/-- The first `k` channels have been stored and, if it is not all of them, the
multiplier stays at the first one which is not scanned. -/
structure StoredRun (mask : UInt32) (energyDetect : ℕ → UInt8) (count k : ℕ)
    (list : EnergyList) : Prop where
  le_count : k ≤ count
  channelMaskMul : list.channelMaskMul = maskMul k
  energyValues : list.energyValues = (List.range k).map energyDetect
  before : ∀ j < k, mask.toNat.testBit (macStartChannelNumber + j) = true
  stopped : k < count → mask.toNat.testBit (macStartChannelNumber + k) = false

theorem StoredRun.lookAt {list : EnergyList}
    (hrun : StoredRun mask energyDetect count k list) (hcount : count < 16) :
    ∃ next, StoredRun mask energyDetect (count + 1) next
      (list.lookAt mask energyDetect (macStartChannelNumber + count)) := by
  have hk := Nat.le_trans hrun.le_count (Nat.le_of_lt hcount)
  rw [EnergyList.lookAt, hrun.channelMaskMul]
  by_cases hset : mask.toNat.testBit (macStartChannelNumber + k) = true
  · rw [if_pos ((and_maskMul_iff hk).mpr hset)]
    -- A scanned channel is stored only if all those before it were.
    have heq : k = count := by
      refine Nat.le_antisymm hrun.le_count (Nat.not_lt.mp fun hlt => ?_)
      exact absurd hset (by rw [hrun.stopped hlt]; decide)
    subst heq
    refine ⟨k + 1, Nat.le_refl _, maskMul_succ k hcount, ?_, ?_, ?_⟩
    · rw [hrun.energyValues, Nat.add_sub_cancel_left, range_succ,
        map_append, map_singleton]
    · intro j hj
      rcases Nat.lt_succ_iff_lt_or_eq.mp hj with hlt | rfl
      · exact hrun.before j hlt
      · exact hset
    · intro hlt
      exact absurd hlt (Nat.lt_irrefl _)
  · rw [if_neg (mt (and_maskMul_iff hk).mp hset)]
    exact ⟨k, Nat.le_succ_of_le hrun.le_count, hrun.channelMaskMul,
      hrun.energyValues, hrun.before, fun _ => Bool.eq_false_iff.mpr hset⟩

theorem storedRun (mask : UInt32) (energyDetect : ℕ → UInt8) (hcount : count ≤ 16) :
    ∃ k, StoredRun mask energyDetect count k (energyList mask energyDetect count) := by
  induction count with
  | zero =>
    exact ⟨0, Nat.le_refl _, (by decide : (0x800 : UInt32) = maskMul 0), rfl,
      fun j hj => absurd hj (Nat.not_lt_zero j),
      fun hlt => absurd hlt (Nat.lt_irrefl _)⟩
  | succ count ih =>
    obtain ⟨k, hrun⟩ := ih (Nat.le_of_succ_le hcount)
    rw [energyList, List.range'_1_concat, foldl_append]
    exact hrun.lookAt hcount

theorem StoredRun.scannedList_eq {list : EnergyList}
    (hrun : StoredRun mask energyDetect macSupportedChannels k list) :
    scannedList mask = List.range' macStartChannelNumber k ++
        (List.range' (macStartChannelNumber + k)
          (macSupportedChannels - k)).filter mask.toNat.testBit := by
  have hsplit : List.range' macStartChannelNumber macSupportedChannels =
      List.range' macStartChannelNumber k ++
        List.range' (macStartChannelNumber + k) (macSupportedChannels - k) := by
    rw [List.range'_append_1, Nat.add_sub_cancel' hrun.le_count]
  have hall : (List.range' macStartChannelNumber k).filter mask.toNat.testBit =
      List.range' macStartChannelNumber k := by
    refine filter_eq_self.mpr fun i hi => ?_
    obtain ⟨hfrom, hto⟩ := mem_range'_1.mp hi
    have := hrun.before (i - macStartChannelNumber) (by omega)
    rwa [Nat.add_sub_cancel' hfrom] at this
  rw [scannedList, hsplit, filter_append, hall]

theorem StoredRun.noGap_iff {list : EnergyList}
    (hrun : StoredRun mask energyDetect macSupportedChannels k list) :
    NoGap mask ↔ scannedList mask = List.range' macStartChannelNumber k := by
  have hle : k ≤ 16 := hrun.le_count
  rw [hrun.scannedList_eq, append_right_eq_self, filter_eq_nil_iff]
  constructor
  · intro hgap i hi hset
    obtain ⟨hfrom, hto⟩ := mem_range'_1.mp hi
    simp only [macStartChannelNumber, macSupportedChannels,
      macMaxChannelNumber] at hfrom hto
    have hstopped := hrun.stopped (show k < 16 by omega)
    rcases Nat.eq_or_lt_of_le hfrom with heq | hlt
    · rw [← heq] at hset
      exact absurd (hset.symm.trans hstopped) (by decide)
    · have hbefore := hgap (11 + k) i (Nat.le_add_right 11 k) hlt
        (show i ≤ 26 by omega) hset
      exact absurd (hbefore.symm.trans hstopped) (by decide)
  · intro hrest i j hfrom hlt hto hset
    simp only [macStartChannelNumber, macMaxChannelNumber] at hfrom hto
    by_cases hstored : j < 11 + k
    · have hbefore := hrun.before (i - 11) (by omega)
      rwa [macStartChannelNumber, Nat.add_sub_cancel' hfrom] at hbefore
    · refine absurd hset (hrest j (mem_range'_1.mpr ⟨?_, ?_⟩))
      · exact Nat.not_lt.mp hstored
      · rw [macStartChannelNumber, macSupportedChannels, macMaxChannelNumber,
          macStartChannelNumber]
        omega

end Writer

section RoundTrip

variable (order reader : ByteOrder) (ctx : EdScanCtx) (confirm : EdScanConfirm)

theorem drop_zbZdoNwkUpdNotify (param : UpdateNotifyParam) :
    (zbZdoNwkUpdNotify order param).drop 10 =
      param.energyValues.take param.scannedChannelsListCount.toNat := by
  rw [zbZdoNwkUpdNotify]
  refine drop_left' ?_
  simp only [length_append, length_bytes, length_singleton]

theorem mask_zbZdoNwkUpdNotify (param : UpdateNotifyParam) :
    ((zbZdoNwkUpdNotify order param).drop 1).take 4 =
      littleEndian.bytes 4 param.scannedChannels.toNat := by
  simp only [zbZdoNwkUpdNotify, append_assoc]
  exact take_left' (length_bytes _ _ _)

theorem toNat_ofBody (body : List UInt8) (behind : ℕ → UInt8) :
    (ofBody reader body behind).scannedChannels.toNat =
      reader.ofBytes ((body.drop 1).take 4) % 2 ^ 32 := by
  rw [ofBody, UInt32.toNat_ofNat']

theorem scanned_ofBody (param : UpdateNotifyParam) (behind : ℕ → UInt8) (i : ℕ) :
    (ofBody reader (zbZdoNwkUpdNotify order param) behind).scanned i =
      (reader.ofBytes (littleEndian.bytes 4 param.scannedChannels.toNat)).testBit i := by
  rw [scanned, toNat_ofBody, mask_zbZdoNwkUpdNotify,
    Nat.mod_eq_of_lt (show _ < 2 ^ 32 from reader.ofBytes_lt (length_bytes _ 4 _))]

theorem index_of_noGap {notify : ScanNotify} {mask : UInt32}
    {current : UInt8} {i : ℕ} (hgap : NoGap mask)
    (hbits : ∀ j, macStartChannelNumber ≤ j → j ≤ macMaxChannelNumber →
      notify.scanned j = mask.toNat.testBit j)
    (hto : i ≤ macMaxChannelNumber) (hset : mask.toNat.testBit i = true) :
    (notify.search current (i - macStartChannelNumber)).index =
      i - macStartChannelNumber := by
  rw [(notify.searched current _).index_eq, countP_eq_length.mpr, length_range']
  intro j hj
  obtain ⟨hj, hj'⟩ := mem_range'_1.mp hj
  have hlt : j < i := by omega
  rw [hbits j hj (Nat.le_trans (Nat.le_of_lt hlt) hto)]
  exact hgap j i hj hlt hto hset

/-- The report of a scan is complete and read as it was meant exactly if no
channel is scanned behind one which is not, and the reader finds the bits of the
channels where they were. -/
theorem reportsEnergies_iff :
    ReportsEnergies reader (ctx.scanChannels &&& ~~~confirm.unscannedChannels)
        confirm.energyDetect (zbNlmeEdScanConfirm ctx confirm)
        (zbZdoNwkUpdNotify order (zbNlmeEdScanConfirm ctx confirm)) ↔
      NoGap (ctx.scanChannels &&& ~~~confirm.unscannedChannels) ∧
        ReadsMask reader (ctx.scanChannels &&& ~~~confirm.unscannedChannels) := by
  set mask := ctx.scanChannels &&& ~~~confirm.unscannedChannels
  set param := zbNlmeEdScanConfirm ctx confirm
  obtain ⟨k, hrun⟩ := storedRun mask confirm.energyDetect
    (Nat.le_refl macSupportedChannels)
  have hk : k ≤ 16 := hrun.le_count
  have hvalues : param.energyValues =
      (List.range k).map confirm.energyDetect := hrun.energyValues
  have hcount : param.scannedChannelsListCount.toNat = k := by
    change (UInt8.ofNat param.energyValues.length).toNat = k
    rw [hvalues, length_map, length_range, UInt8.toNat_ofNat']
    exact Nat.mod_eq_of_lt (Nat.lt_of_le_of_lt hk (by decide))
  have hbody : (zbZdoNwkUpdNotify order param).drop 10 =
      (List.range k).map confirm.energyDetect := by
    rw [drop_zbZdoNwkUpdNotify, hcount, hvalues]
    exact take_of_length_le (by simp)
  have hscanned : ∀ behind i, (ofBody reader
      (zbZdoNwkUpdNotify order param) behind).scanned i =
        (reader.ofBytes (littleEndian.bytes 4 mask.toNat)).testBit i :=
    scanned_ofBody order reader param
  constructor
  · intro hreports
    refine ⟨hrun.noGap_iff.mpr ?_, fun i hfrom hto => ?_⟩
    · have hlength := hreports.count
      rw [hcount, hrun.scannedList_eq, length_append,
        length_range', Nat.left_eq_add, length_eq_zero_iff] at hlength
      rw [hrun.scannedList_eq, hlength, append_nil]
    · have hread := hreports.read (fun _ => 0) 0 i hfrom hto
      rw [readAt, hscanned] at hread
      exact Bool.eq_iff_iff.mpr (by simpa using congrArg (Option.isSome · = true) hread)
  · rintro ⟨hgap, hmask⟩
    have hlist := hrun.noGap_iff.mp hgap
    refine ⟨rfl, ?_, ?_, fun behind current i hfrom hto => ?_⟩
    · rw [hbody, hlist, List.range'_eq_map_range, map_map]
      refine map_congr_left fun j _ => ?_
      rw [Function.comp_apply, Nat.add_sub_cancel_left]
    · rw [hcount, hlist, length_range']
    · set notify := ofBody reader (zbZdoNwkUpdNotify order param)
        behind
      have hbits : ∀ j, macStartChannelNumber ≤ j → j ≤ macMaxChannelNumber →
          notify.scanned j = mask.toNat.testBit j := by
        intro j hj hj'
        exact (hscanned behind j).trans (hmask j hj hj')
      rw [readAt, hbits i hfrom hto]
      split
      case isFalse => rfl
      case isTrue hset =>
        have hindex : (notify.search current
            (i - macStartChannelNumber)).index = i - macStartChannelNumber :=
          index_of_noGap hgap hbits hto hset
        have hbefore : i - macStartChannelNumber < k := by
          have hmem : i ∈ scannedList mask := by
            refine mem_filter.mpr ⟨mem_range'_1.mpr ⟨hfrom, ?_⟩, hset⟩
            exact Nat.lt_succ_of_le hto
          rw [hlist] at hmem
          have := (mem_range'_1.mp hmem).2
          omega
        have hget : ((zbZdoNwkUpdNotify order param).drop 10)[
            i - macStartChannelNumber]? =
              some (confirm.energyDetect (i - macStartChannelNumber)) := by
          rw [hbody, List.getElem?_map, List.getElem?_range hbefore]
          rfl
        rw [List.getElem?_drop] at hget
        rw [hindex]
        change some ((zbZdoNwkUpdNotify order param).getD _ _) = _
        rw [getD_eq_getElem?_getD, hget]
        rfl

/-- Only channel 12 is scanned. -/
theorem not_reportsEnergies_channel12 :
    let ctx : EdScanCtx := ⟨0x1000, 0, 0, 0, 0⟩
    let confirm : EdScanConfirm := ⟨0, 0, fun _ => 0x30⟩
    let param := zbNlmeEdScanConfirm ctx confirm
    ¬ReportsEnergies .littleEndian 0x1000 (fun _ => 0x30) param
      (zbZdoNwkUpdNotify .littleEndian param) := by
  intro ctx confirm param hreports
  exact absurd hreports.count (by decide +kernel)

end RoundTrip

end Zboss
