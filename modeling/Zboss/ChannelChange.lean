import Zboss.ByteOrder
import Zboss.ScannedNetworks
import Zboss.ZdpServer

/-!
# Changing the channel

`zdo_change_channel` of the channel manager, the request it sends, and
`zb_zdo_mgmt_nwk_update_handler` of the routers which receive it.  The field of
the request is filled with the number of the channel and searched as a bit
mask; the update id is incremented when the change is decided and when it is
made.
-/

namespace Zboss

open Option List ByteOrder

def zdoNewActiveChannel : UInt8 := 0xfe

def zdoNewChannelMask : UInt8 := 0xff

def zdoMaxScanDuration : UInt8 := 5

def channelBusyEdValue : UInt8 := 0x60

def channelFreeEdValue : UInt8 := 0x20

/-- `1l << i`; what a compiler makes of a shift by 32 or more is `wide`. -/
def channelBit (wide : UInt8 → UInt32) (i : UInt8) : UInt32 :=
  if i < 32 then 1 <<< i.toUInt32 else wide i

/-- The loops which look for the bit, from `i` on; the index wraps around. -/
def channelBitSearch (wide : UInt8 → UInt32) (mask : UInt32) : ℕ → UInt8 → Option UInt8
  | 0, _ => none
  | fuel + 1, i =>
      if mask &&& channelBit wide i ≠ 0 then some i
      else channelBitSearch wide mask fuel (i + 1)

structure MgmtNwkUpdateReq where
  scanChannels : UInt32
  scanDuration : UInt8
  scanCount : UInt8
  updateId : UInt8
  managerAddr : UInt16
  dstAddr : ℕ

/-- What `zb_zdo_mgmt_nwk_update_req` passes to `zdo_send_req_by_short`, and the
channel which the alarm `zb_zdo_new_channel_cb` is set for. -/
structure MgmtNwkUpdateSent where
  body : List UInt8
  cmdNoResp : Bool
  respCounter : UInt8
  dstAddr : ℕ
  newChannel : Option UInt8

def zbZdoMgmtNwkUpdateReq (wide : UInt8 → UInt32) (req : MgmtNwkUpdateReq) :
    Option MgmtNwkUpdateSent :=
  let hdr := littleEndian.bytes 4 req.scanChannels.toNat ++
    [req.scanDuration]
  if req.scanDuration ≤ zdoMaxScanDuration then
    some {
      body := hdr ++ [req.scanCount]
      cmdNoResp := false
      respCounter := req.scanCount
      dstAddr := req.dstAddr
      newChannel := none }
  else if req.scanDuration = zdoNewChannelMask then
    some {
      body := hdr ++ [req.updateId] ++ littleEndian.bytes 2 req.managerAddr.toNat
      cmdNoResp := true
      respCounter := 1
      dstAddr := req.dstAddr
      newChannel := none }
  else if req.scanDuration = zdoNewActiveChannel then do
    let i ← channelBitSearch wide req.scanChannels 256 11
    return {
      body := hdr ++ [req.updateId]
      cmdNoResp := true
      respCounter := 1
      dstAddr := req.dstAddr
      newChannel := some i }
  else
    some {
      body := hdr ++ [req.scanCount]
      cmdNoResp := false
      respCounter := 1
      dstAddr := req.dstAddr
      newChannel := none }

/-- The notification as it lies in the buffer of the manager: the mask is not
converted. -/
structure ScanNotify where
  status : UInt8
  scannedChannels : UInt32
  scannedChannelsListCount : UInt8
  scanResult : ℕ → UInt8

def ScanNotify.scanned (notify : ScanNotify) (i : ℕ) : Bool :=
  notify.scannedChannels.toNat.testBit i

structure ChannelNode where
  updateId : UInt8
  currentChannel : UInt8
  nwkTxTotal : UInt16
  nwkTxFail : UInt16
  channelChanged : Bool

def ChannelSearch.lookAt
    (search : ChannelSearch) (notify : ScanNotify) (current : UInt8) (i : ℕ) :
    ChannelSearch :=
  if notify.scanned i then
    let energy := notify.scanResult search.index
    { newChannelNum := if energy < search.minEnergy then i
        else search.newChannelNum
      minEnergy := if energy < search.minEnergy then energy
        else search.minEnergy
      currentEnergy := if i = current.toNat then energy
        else search.currentEnergy
      index := search.index + 1 }
  else search

namespace ScanNotify

def search (notify : ScanNotify) (current : UInt8) (count : ℕ) :
    ChannelSearch :=
  (range' macStartChannelNumber count).foldl
    (fun search i => search.lookAt notify current i)
    ⟨0, 0xff, 0, 0⟩

def newChannel (notify : ScanNotify) (current : UInt8) : Option ℕ :=
  let search := notify.search current macSupportedChannels
  if notify.status = ZdpStatus.success ∧ notify.scannedChannelsListCount ≠ 0 ∧
      channelBusyEdValue < search.currentEnergy ∧
      search.newChannelNum ≠ 0 ∧ search.minEnergy < channelFreeEdValue then
    some search.newChannelNum
  else none

end ScanNotify

inductive ChannelDecision where
  | freeBuf
  | sent (req : MgmtNwkUpdateSent)

/-- `zdo_change_channel`; `param` is what lies in the buffer where the parameter
of the request is put. -/
def zdoChangeChannel (wide : UInt8 → UInt32) (node : ChannelNode) (notify : ScanNotify)
    (param : MgmtNwkUpdateReq) : Option (ChannelNode × ChannelDecision) :=
  if node.channelChanged then some (node, .freeBuf)
  else
    match notify.newChannel node.currentChannel with
    | none => some (node, .freeBuf)
    | some newChannelNum => do
        let updateId := node.updateId + 1
        let sent ← zbZdoMgmtNwkUpdateReq wide { param with
          scanChannels := UInt32.ofNat newChannelNum
          scanDuration := zdoNewActiveChannel
          updateId
          dstAddr := nwkBroadcastRouterCoordinator }
        return ({ node with updateId, channelChanged := true }, .sent sent)

def zbZdoNewChannelCb (node : ChannelNode) (channel : UInt8) : ChannelNode :=
  { node with
    currentChannel := channel
    nwkTxTotal := 0
    nwkTxFail := 0
    updateId := node.updateId + 1 }

/-- The first branch of `zb_zdo_mgmt_nwk_update_handler`: the mask is compared
and searched as it was received.  `none` if the loop does not end, else the
channel for which the alarm is set. -/
def mgmtNwkUpdateAlarm (order : ByteOrder) (wide : UInt8 → UInt32) (body : List UInt8) :
    Option (Option UInt8) :=
  let scanChannels := UInt32.ofNat (order.ofBytes (body.take 4))
  if body.getD 4 0 = zdoNewActiveChannel then
    if (1 : UInt32) <<< 11 ≤ scanChannels ∧ scanChannels ≤ (1 : UInt32) <<< 26 then
      (channelBitSearch wide scanChannels 256 11).map some
    else some none
  else some none

section Search

variable {wide : UInt8 → UInt32} {mask : UInt32} {fuel : ℕ} {i j : UInt8}

theorem and_channelBit_iff (hj : j < 32) :
    mask &&& channelBit wide j ≠ 0 ↔ mask.toNat.testBit j.toNat = true := by
  have hlt : j.toNat < 32 := UInt8.lt_iff_toNat_lt.mp hj
  have hbit : (channelBit wide j).toNat = 2 ^ j.toNat := by
    rw [channelBit, if_pos hj, UInt32.toNat_shiftLeft, UInt8.toNat_toUInt32,
      Nat.mod_eq_of_lt hlt, Nat.shiftLeft_eq]
    exact (congrArg (· % 2 ^ 32) (Nat.one_mul _)).trans
      (Nat.mod_eq_of_lt (Nat.pow_lt_pow_right (by decide) hlt))
  rw [Ne, ← UInt32.toNat_inj, UInt32.toNat_and, hbit]
  constructor
  · intro hne
    obtain ⟨i, hi⟩ := Nat.exists_testBit_of_ne_zero hne
    rw [Nat.testBit_and, Nat.testBit_two_pow, Bool.and_eq_true, decide_eq_true_iff] at hi
    exact hi.2 ▸ hi.1
  · intro hset hzero
    have hself : (mask.toNat &&& 2 ^ j.toNat).testBit j.toNat = true := by
      rw [Nat.testBit_and, hset, Nat.testBit_two_pow_self]
      rfl
    rw [hzero] at hself
    exact absurd hself (by simp)

theorem channelBitSearch_found (hfound : channelBitSearch wide mask fuel i = some j) :
    mask &&& channelBit wide j ≠ 0 := by
  induction fuel generalizing i with
  | zero => exact absurd hfound (some_ne_none j).symm
  | succ fuel ih =>
    rw [channelBitSearch] at hfound
    split at hfound
    case isTrue hbit => exact some.inj hfound ▸ hbit
    case isFalse => exact ih hfound

theorem channelBitSearch_ends (hbit : mask &&& channelBit wide j ≠ 0)
    (hfuel : (j - i).toNat < fuel) :
    ∃ k, channelBitSearch wide mask fuel i = some k ∧ (k - i).toNat ≤ (j - i).toNat := by
  induction fuel generalizing i with
  | zero => exact absurd hfuel (Nat.not_lt_zero _)
  | succ fuel ih =>
    rw [channelBitSearch]
    split
    case isTrue =>
      refine ⟨i, rfl, ?_⟩
      rw [UInt8.sub_self]
      exact Nat.zero_le _
    case isFalse hnot =>
      have hne : j - i ≠ 0 := by
        intro hzero
        rw [UInt8.sub_eq_iff_eq_add, UInt8.zero_add] at hzero
        exact hnot (hzero ▸ hbit)
      have hpos : (j - i).toNat ≠ 0 := fun h => hne (UInt8.toNat_inj.mp h)
      have hprev : j - (i + 1) = j - i - 1 := by
        rw [UInt8.sub_eq_iff_eq_add, UInt8.add_comm i, ← UInt8.add_assoc,
          UInt8.sub_add_cancel, UInt8.sub_add_cancel]
      have hnat : (j - (i + 1)).toNat = (j - i).toNat - 1 := by
        rw [hprev, UInt8.toNat_sub_of_le]
        · rfl
        · exact UInt8.le_iff_toNat_le.mpr (Nat.one_le_iff_ne_zero.mpr hpos)
      obtain ⟨k, hfound, hk⟩ := ih (i := i + 1) (by omega)
      refine ⟨k, hfound, ?_⟩
      have hnext : k - i = k - (i + 1) + 1 := by
        rw [UInt8.sub_eq_iff_eq_add, UInt8.add_assoc, UInt8.add_comm 1,
          UInt8.sub_add_cancel]
      have hlt := (j - i).toNat_lt
      rw [hnext, UInt8.toNat_add]
      change (_ + 1) % 256 ≤ _
      omega

theorem not_channel_of_found (hmask : mask.toNat < 2 ^ 11)
    (hfound : channelBitSearch wide mask fuel i = some j) :
    j.toNat < 11 ∨ 32 ≤ j.toNat := by
  by_contra hin
  have hj : j < 32 := by
    rw [UInt8.lt_iff_toNat_lt]
    change j.toNat < 32
    omega
  have hset := (and_channelBit_iff hj).mp (channelBitSearch_found hfound)
  have hle : 2 ^ 11 ≤ 2 ^ j.toNat := Nat.pow_le_pow_right (by decide) (by omega)
  rw [Nat.testBit_lt_two_pow (Nat.lt_of_lt_of_le hmask hle)] at hset
  exact absurd hset (by decide)

end Search

namespace ScanNotify

variable {notify : ScanNotify} {current : UInt8} {count : ℕ}

def energy (notify : ScanNotify) (i : ℕ) : UInt8 :=
  notify.scanResult ((range' macStartChannelNumber (i - macStartChannelNumber)).countP
      notify.scanned)

structure Quietest (notify : ScanNotify) (channel : ℕ) : Prop where
  from_start : macStartChannelNumber ≤ channel
  to_end : channel < macStartChannelNumber + macSupportedChannels
  scanned : notify.scanned channel = true
  le_others : ∀ other, macStartChannelNumber ≤ other →
    other < macStartChannelNumber + macSupportedChannels →
    notify.scanned other = true → notify.energy channel ≤ notify.energy other

structure Searched (notify : ScanNotify) (count : ℕ) (search : ChannelSearch) : Prop where
  index_eq : search.index = (range' macStartChannelNumber count).countP notify.scanned
  le_others : ∀ i, macStartChannelNumber ≤ i →
    i < macStartChannelNumber + count → notify.scanned i = true →
      search.minEnergy ≤ notify.energy i
  found : search.newChannelNum ≠ 0 → macStartChannelNumber ≤ search.newChannelNum ∧
      search.newChannelNum < macStartChannelNumber + count ∧
      notify.scanned search.newChannelNum = true ∧
      notify.energy search.newChannelNum = search.minEnergy

theorem search_succ : notify.search current (count + 1) =
      (notify.search current count).lookAt notify current
        (macStartChannelNumber + count) := by
  rw [search, range'_1_concat, foldl_append]
  rfl

theorem searched (notify : ScanNotify) (current : UInt8) (count : ℕ) :
    notify.Searched count (notify.search current count) := by
  induction count with
  | zero =>
    refine ⟨rfl, ?_, ?_⟩
    · intro i hfrom hto
      omega
    · intro hne
      exact absurd rfl hne
  | succ count ih =>
    rw [search_succ, ChannelSearch.lookAt]
    have hcount : (range' macStartChannelNumber (count + 1)).countP notify.scanned =
          (range' macStartChannelNumber count).countP notify.scanned +
            if notify.scanned (macStartChannelNumber + count) then 1
            else 0 := by
      rw [range'_1_concat, countP_append, countP_singleton]
    have henergy : notify.energy (macStartChannelNumber + count) =
        notify.scanResult (notify.search current count).index := by
      rw [energy, Nat.add_sub_cancel_left, ih.index_eq]
    have hbefore : ∀ i, i < macStartChannelNumber + (count + 1) →
        i < macStartChannelNumber + count ∨ i = macStartChannelNumber + count := by
      intro i hto
      omega
    split
    case isTrue hscanned =>
      rw [← henergy]
      refine ⟨?_, ?_, ?_⟩
      · rw [hcount, if_pos hscanned]
        exact congrArg (· + 1) ih.index_eq
      · intro i hfrom hto hi
        dsimp only
        rcases hbefore i hto with hlt | rfl
        · have hle := ih.le_others i hfrom hlt hi
          split
          case isTrue hlower => exact UInt8.le_trans (UInt8.le_of_lt hlower) hle
          case isFalse => exact hle
        · split
          case isTrue => exact UInt8.le_refl _
          case isFalse hnot => exact UInt8.not_lt.mp hnot
      · dsimp only
        split
        case isTrue =>
          intro _
          exact ⟨Nat.le_add_right _ _, Nat.lt_succ_self _, hscanned, rfl⟩
        case isFalse =>
          intro hne
          obtain ⟨hfrom, hto, hrest⟩ := ih.found hne
          exact ⟨hfrom, Nat.lt_succ_of_lt hto, hrest⟩
    case isFalse hskipped =>
      refine ⟨?_, ?_, ?_⟩
      · rw [hcount, if_neg hskipped]
        exact ih.index_eq
      · intro i hfrom hto hi
        rcases hbefore i hto with hlt | rfl
        · exact ih.le_others i hfrom hlt hi
        · exact absurd hi hskipped
      · intro hne
        obtain ⟨hfrom, hto, hrest⟩ := ih.found hne
        exact ⟨hfrom, Nat.lt_succ_of_lt hto, hrest⟩

theorem quietest_newChannel {channel : ℕ}
    (hchannel : notify.newChannel current = some channel) :
    notify.Quietest channel := by
  rw [newChannel] at hchannel
  split at hchannel
  case isTrue hdecided =>
    obtain rfl := some.inj hchannel
    have hsearched := notify.searched current macSupportedChannels
    obtain ⟨hfrom, hto, hscanned, henergy⟩ := hsearched.found hdecided.2.2.2.1
    refine ⟨hfrom, hto, hscanned, ?_⟩
    intro other hother hother' hscanned'
    rw [henergy]
    exact hsearched.le_others other hother hother' hscanned'
  case isFalse => exact absurd hchannel (some_ne_none _).symm

end ScanNotify

/-! ## Agreement -/

/-- The manager and the routers which receive the request, and whose update id
is that of the manager, change to a channel with the lowest energy, and have the
announced update id afterwards. -/
def ChangeAgrees (notify : ScanNotify) (manager next : ChannelNode)
    (sent : MgmtNwkUpdateSent) : Prop :=
  ∃ channel, sent.newChannel = some channel ∧ notify.Quietest channel.toNat ∧
    (zbZdoNewChannelCb next channel).updateId = sent.body.getD 5 0 ∧
    ∀ order wide (router : ChannelNode), router.updateId = manager.updateId →
      mgmtNwkUpdateAlarm order wide sent.body = some (some channel) ∧
        (zbZdoNewChannelCb router channel).updateId = sent.body.getD 5 0

/-- What the manager has sent for a decision: it changes to no channel at all
and counts its update id once more than announced, and no router takes the
request for a mask. -/
structure ChangeGoesWrong (manager next : ChannelNode)
    (sent : MgmtNwkUpdateSent) : Prop where
  newChannel : ∃ i, sent.newChannel = some i ∧ (i.toNat < 11 ∨ 32 ≤ i.toNat)
  announced : sent.body.getD 5 0 = manager.updateId + 1
  updateId : ∀ i, (zbZdoNewChannelCb next i).updateId = manager.updateId + 2
  routers : ∀ order wide, mgmtNwkUpdateAlarm order wide sent.body = some none

theorem not_mask_of_number {channel : ℕ} (hfrom : 11 ≤ channel)
    (hto : channel < 27) (order : ByteOrder) :
    ¬((1 : UInt32) <<< 11 ≤ UInt32.ofNat (order.ofBytes (littleEndian.bytes 4 channel)) ∧
      UInt32.ofNat (order.ofBytes (littleEndian.bytes 4 channel)) ≤
        (1 : UInt32) <<< 26) := by
  have hall : ((range' 11 16).all fun number =>
      [littleEndian, bigEndian].all fun order =>
        decide ¬((1 : UInt32) <<< 11 ≤ UInt32.ofNat
            (order.ofBytes (littleEndian.bytes 4 number)) ∧
          UInt32.ofNat (order.ofBytes (littleEndian.bytes 4 number)) ≤
            (1 : UInt32) <<< 26)) = true := by
    decide
  have horder : order ∈ [littleEndian, bigEndian] := by cases order <;> simp
  have hchannel : channel ∈ range' 11 16 := mem_range'_1.mpr ⟨hfrom, hto⟩
  exact of_decide_eq_true
    (all_eq_true.mp (all_eq_true.mp hall channel hchannel) order horder)

theorem numberSearch_ends (wide : UInt8 → UInt32) {channel : ℕ}
    (hfrom : 11 ≤ channel) (hto : channel < 27) :
    ∃ i, channelBitSearch wide (UInt32.ofNat channel) 256 11 = some i ∧
      (i.toNat < 11 ∨ 32 ≤ i.toNat) := by
  have hnat : (UInt32.ofNat channel).toNat = channel := by
    rw [UInt32.toNat_ofNat']
    exact Nat.mod_eq_of_lt (by omega)
  obtain ⟨bit, hbit⟩ := Nat.exists_testBit_of_ne_zero (show channel ≠ 0 by omega)
  have hlt : bit < 5 := by
    by_contra hge
    have hle : 2 ^ 5 ≤ 2 ^ bit := Nat.pow_le_pow_right (by decide) (Nat.le_of_not_lt hge)
    rw [Nat.testBit_lt_two_pow (by omega)] at hbit
    exact absurd hbit (by decide)
  have htoNat : (UInt8.ofNat bit).toNat = bit := by
    rw [UInt8.toNat_ofNat']
    omega
  have hsmall : UInt8.ofNat bit < 32 := by
    rw [UInt8.lt_iff_toNat_lt, htoNat]
    change bit < 32
    omega
  have hset : UInt32.ofNat channel &&& channelBit wide (UInt8.ofNat bit) ≠ 0 := by
    rw [and_channelBit_iff hsmall, hnat, htoNat]
    exact hbit
  obtain ⟨i, hfound, _⟩ := channelBitSearch_ends hset
    (UInt8.toNat_lt (UInt8.ofNat bit - 11))
  refine ⟨i, hfound, not_channel_of_found ?_ hfound⟩
  rw [hnat]
  omega

theorem sent_of_decided (wide : UInt8 → UInt32) {node : ChannelNode} {notify : ScanNotify}
    (param : MgmtNwkUpdateReq) {channel : ℕ}
    (hchanged : node.channelChanged = false)
    (hchannel : notify.newChannel node.currentChannel = some channel) :
    ∃ next sent, zdoChangeChannel wide node notify param = some (next, .sent sent) ∧
        ChangeGoesWrong node next sent := by
  have hquiet := ScanNotify.quietest_newChannel hchannel
  have hfrom : 11 ≤ channel := hquiet.from_start
  have hto : channel < 27 := hquiet.to_end
  have hnat : (UInt32.ofNat channel).toNat = channel := by
    rw [UInt32.toNat_ofNat']
    exact Nat.mod_eq_of_lt (by omega)
  obtain ⟨i, hsearch, hi⟩ := numberSearch_ends wide hfrom hto
  have hsent : zbZdoMgmtNwkUpdateReq wide { param with
      scanChannels := UInt32.ofNat channel
      scanDuration := zdoNewActiveChannel
      updateId := node.updateId + 1
      dstAddr := nwkBroadcastRouterCoordinator } =
        some {
          body := littleEndian.bytes 4 channel ++
            [zdoNewActiveChannel] ++ [node.updateId + 1]
          cmdNoResp := true
          respCounter := 1
          dstAddr := nwkBroadcastRouterCoordinator
          newChannel := some i } := by
    rw [zbZdoMgmtNwkUpdateReq]
    dsimp only
    rw [if_neg (by decide), if_neg (by decide), if_pos rfl, hsearch, hnat]
    rfl
  have hcall : zdoChangeChannel wide node notify param =
      some ({ node with
          updateId := node.updateId + 1
          channelChanged := true },
        .sent {
          body := littleEndian.bytes 4 channel ++
            [zdoNewActiveChannel] ++ [node.updateId + 1]
          cmdNoResp := true
          respCounter := 1
          dstAddr := nwkBroadcastRouterCoordinator
          newChannel := some i }) := by
    rw [zdoChangeChannel, if_neg (by rw [hchanged]; decide), hchannel]
    dsimp only
    rw [hsent]
    rfl
  refine ⟨_, _, hcall, ⟨i, rfl, hi⟩, ?_, ?_, ?_⟩
  · rfl
  · intro j
    exact UInt8.add_assoc _ 1 1
  · intro order wide'
    rw [mgmtNwkUpdateAlarm]
    have htake : (littleEndian.bytes 4 channel ++
        [zdoNewActiveChannel] ++ [node.updateId + 1]).take 4 =
          littleEndian.bytes 4 channel := by
      rw [append_assoc, take_left' (length_bytes _ _ _)]
    have hduration : (littleEndian.bytes 4 channel ++
        [zdoNewActiveChannel] ++ [node.updateId + 1]).getD 4 0 =
          zdoNewActiveChannel := rfl
    dsimp only
    rw [htake, if_pos hduration, if_neg (not_mask_of_number hfrom hto order)]

theorem decided_of_sent
    {wide : UInt8 → UInt32} {node next : ChannelNode} {notify : ScanNotify}
    {param : MgmtNwkUpdateReq} {sent : MgmtNwkUpdateSent}
    (hsent : zdoChangeChannel wide node notify param = some (next, .sent sent)) :
    node.channelChanged = false ∧ (notify.newChannel node.currentChannel).isSome := by
  rw [zdoChangeChannel] at hsent
  split at hsent
  case isTrue => cases hsent
  case isFalse hchanged =>
    split at hsent
    case h_1 => cases hsent
    case h_2 channel hchannel =>
      rw [hchannel]
      exact ⟨Bool.eq_false_iff.mpr hchanged, rfl⟩

theorem maskSearch_ends (wide : UInt8 → UInt32) {mask : UInt32}
    (hfrom : 2 ^ 11 ≤ mask.toNat) (hto : mask.toNat ≤ 2 ^ 26) :
    ∃ channel, channelBitSearch wide mask 256 11 = some channel ∧
      11 ≤ channel.toNat ∧ channel.toNat ≤ 26 ∧
        mask.toNat.testBit channel.toNat = true := by
  have hne : mask.toNat ≠ 0 := by omega
  have hbit := Nat.testBit_log2 hne
  have hlow : 11 ≤ mask.toNat.log2 := (Nat.le_log2 hne).mpr hfrom
  have hhigh : mask.toNat.log2 < 27 :=
    (Nat.log2_lt hne).mpr (Nat.lt_of_le_of_lt hto (by decide))
  generalize mask.toNat.log2 = bit at hbit hlow hhigh
  have hnat : (UInt8.ofNat bit).toNat = bit := by
    rw [UInt8.toNat_ofNat']
    omega
  have hsmall : UInt8.ofNat bit < 32 := by
    rw [UInt8.lt_iff_toNat_lt, hnat]
    change bit < 32
    omega
  have hset : mask &&& channelBit wide (UInt8.ofNat bit) ≠ 0 := by
    rw [and_channelBit_iff hsmall, hnat]
    exact hbit
  obtain ⟨channel, hfound, hle⟩ := channelBitSearch_ends hset
    (UInt8.toNat_lt (UInt8.ofNat bit - 11))
  have hnear : (channel - 11).toNat ≤ 15 := by
    refine Nat.le_trans hle ?_
    rw [UInt8.toNat_sub_of_le, hnat]
    · change bit - 11 ≤ 15
      omega
    · rw [UInt8.le_iff_toNat_le, hnat]
      exact hlow
  have hchannel : channel.toNat = (channel - 11).toNat + 11 := by
    have hsum := congrArg UInt8.toNat (UInt8.sub_add_cancel channel 11)
    rw [UInt8.toNat_add] at hsum
    change (_ + 11) % 256 = _ at hsum
    omega
  refine ⟨channel, hfound, by omega, by omega, ?_⟩
  rw [← and_channelBit_iff]
  · exact channelBitSearch_found hfound
  · rw [UInt8.lt_iff_toNat_lt]
    change channel.toNat < 32
    omega

theorem mgmtNwkUpdateAlarm_ends
    (order : ByteOrder) (wide : UInt8 → UInt32) (body : List UInt8) :
    ∃ alarm, mgmtNwkUpdateAlarm order wide body = some alarm ∧
      ∀ channel ∈ alarm, 11 ≤ channel.toNat ∧ channel.toNat ≤ 26 ∧
        (UInt32.ofNat (order.ofBytes (body.take 4))).toNat.testBit
          channel.toNat = true := by
  have hsilent : ∀ channel ∈ (none : Option UInt8),
      11 ≤ channel.toNat ∧ channel.toNat ≤ 26 ∧
        (UInt32.ofNat (order.ofBytes (body.take 4))).toNat.testBit
          channel.toNat = true := by
    intro channel hchannel
    exact absurd hchannel (not_mem_none channel)
  rw [mgmtNwkUpdateAlarm]
  split
  case isFalse => exact ⟨none, rfl, hsilent⟩
  case isTrue =>
    split
    case isFalse => exact ⟨none, rfl, hsilent⟩
    case isTrue hmask =>
      rw [UInt32.le_iff_toNat_le, UInt32.le_iff_toNat_le] at hmask
      obtain ⟨channel, hfound, hbit⟩ := maskSearch_ends wide hmask.1 hmask.2
      refine ⟨some channel, ?_, ?_⟩
      · rw [hfound]
        rfl
      · rintro _ ⟨⟩
        exact hbit

theorem not_agrees_of_decided
    (wide : UInt8 → UInt32) {manager : ChannelNode} {notify : ScanNotify}
    (param : MgmtNwkUpdateReq) {channel : ℕ}
    (hchanged : manager.channelChanged = false)
    (hchannel : notify.newChannel manager.currentChannel = some channel) :
    ¬∀ next sent, zdoChangeChannel wide manager notify param =
        some (next, .sent sent) → ChangeAgrees notify manager next sent := by
  intro hagrees
  obtain ⟨next, sent, hsent, hwrong⟩ := sent_of_decided wide param hchanged hchannel
  obtain ⟨changed, hnew, hquiet, _⟩ := hagrees next sent hsent
  obtain ⟨i, hi, hout⟩ := hwrong.newChannel
  obtain rfl := some.inj (hi.symm.trans hnew)
  have hfrom : 11 ≤ i.toNat := hquiet.from_start
  have hto : i.toNat < 27 := hquiet.to_end
  omega

/-- Whenever the manager decides to move, for a channel of the lowest energy,
the change goes wrong; the loops end for every request. -/
theorem channelChange_agrees_iff
    (wide : UInt8 → UInt32) (manager : ChannelNode) (notify : ScanNotify)
    (param : MgmtNwkUpdateReq) :
    ((∀ next sent, zdoChangeChannel wide manager notify param = some (next, .sent sent) →
        ChangeAgrees notify manager next sent) ↔
      (manager.channelChanged = true ∨ notify.newChannel manager.currentChannel = none)) ∧
    (∀ channel ∈ notify.newChannel manager.currentChannel,
      notify.Quietest channel ∧ (manager.channelChanged = false →
        ∃ next sent, zdoChangeChannel wide manager notify param = some (next, .sent sent) ∧
          ChangeGoesWrong manager next sent)) ∧
    ∀ order body, ∃ alarm, mgmtNwkUpdateAlarm order wide body = some alarm ∧
      ∀ channel ∈ alarm, 11 ≤ channel.toNat ∧ channel.toNat ≤ 26 ∧
        (UInt32.ofNat (order.ofBytes (body.take 4))).toNat.testBit
          channel.toNat = true := by
  refine ⟨⟨?_, ?_⟩, ?_, ?_⟩
  · intro hagrees
    by_contra hmoves
    rw [not_or] at hmoves
    obtain ⟨channel, hchannel⟩ := ne_none_iff_exists'.mp hmoves.2
    exact not_agrees_of_decided wide param (Bool.eq_false_iff.mpr hmoves.1)
      hchannel hagrees
  · intro hstays next sent hsent
    obtain ⟨hchanged, hsome⟩ := decided_of_sent hsent
    rcases hstays with htrue | hnone
    · exact absurd (hchanged.symm.trans htrue) Bool.false_ne_true
    · rw [hnone] at hsome
      exact absurd hsome Bool.false_ne_true
  · intro channel hchannel
    exact ⟨ScanNotify.quietest_newChannel hchannel, fun hchanged =>
      sent_of_decided wide param hchanged hchannel⟩
  · exact fun order body => mgmtNwkUpdateAlarm_ends order wide body

/-- A busy channel 11 and a quiet channel 12. -/
theorem not_agrees_quietChannel :
    let manager : ChannelNode := ⟨0, 11, 0, 0, false⟩
    let notify : ScanNotify := ⟨0, 0x1800, 2, fun k => if k = 0 then 0x70 else 5⟩
    ¬∀ next sent, zdoChangeChannel (fun _ => 0) manager notify
        ⟨0, 0, 0, 0, 0, 0⟩ = some (next, .sent sent) →
      ChangeAgrees notify manager next sent :=
  not_agrees_of_decided (fun _ => 0) _ rfl (by decide : _ = some 12)

end Zboss
