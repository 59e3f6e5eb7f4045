import Zboss.Ledger
import Zboss.TransactionMatching
import Zboss.ZdpServer

/-!
# One answer, one disposal

The server owes every buffer a disposal and most unicast requests a response.
A step is described by the buffers it has to dispose of and the calls it makes
with them.
-/

namespace Zboss

open Option ZdpAct TransitionSystem

namespace ZdpServerRun

variable {run : ZdpServerRun} {server : ZdpServer} {room : ℕ → Bool}

structure Closes (run : ZdpServerRun) (ended : List ZdpOwed) (calls : List ZdpCall)
    (room : ℕ → Bool) : Prop where
  moved : (↑(run.held.map fun entry => entry.1.param) : Multiset ℕ) +
      ↑(ended.map ZdpOwed.param) =
    ↑((run.finish run.server ended calls room).1.held.map
      fun entry => entry.1.param) + (run.finish run.server ended calls room).2
  answered : (run.finish run.server ended calls room).1.unanswered = []

def Cares (owed : ZdpOwed) (act : ZdpAct) (room : ℕ → Bool) : Prop :=
  (act.queued = true → room owed.param = true) ∧ (act.stage ≠ none ∨ act ≠ .schedule none ∧
      ∀ asker, owed.asker = some asker → act.answers asker = true)

theorem not_closes_nil (owed : ZdpOwed) : ¬ run.Closes [owed] [] room := by
  intro hcloses
  have hmoved := hcloses.moved
  simp [finish] at hmoved

theorem finish_of_stage {owed : ZdpOwed} {act : ZdpAct} {stage : ZdpStage}
    (hroom : act.queued = true → room owed.param = true)
    (hstage : act.stage = some stage) :
    run.finish server [owed] [⟨owed.param, act⟩] room =
      (⟨server, run.held ++ [(owed, stage)], run.unanswered⟩, 0) := by
  have haccepted : (!act.queued || room owed.param) = true := by
    cases hqueued : act.queued with
    | false => rfl
    | true => exact hroom hqueued
  have hdisposes : act.disposes = false := by
    rw [disposes, hstage]
    rfl
  simp [finish, haccepted, hstage, hdisposes]

theorem finish_of_stage_eq_none {owed : ZdpOwed} {act : ZdpAct}
    (hroom : act.queued = true → room owed.param = true)
    (hstage : act.stage = none) :
    run.finish server [owed] [⟨owed.param, act⟩] room =
      (⟨server, run.held, run.unanswered ++ owed.asker.toList.filter
          fun asker => !act.answers asker⟩,
        if act = .schedule none then 0 else {owed.param}) := by
  have haccepted : (!act.queued || room owed.param) = true := by
    cases hqueued : act.queued with
    | false => rfl
    | true => exact hroom hqueued
  have hasker : [owed].filterMap ZdpOwed.asker = owed.asker.toList := by
    cases howed : owed.asker with
    | none => simp [howed]
    | some asker => simp [howed]
  by_cases hnull : act = .schedule none
  · have hdisposes : act.disposes = false := by simp [disposes, hnull]
    rw [if_pos hnull]
    simp [finish, haccepted, hstage, hdisposes, hasker]
  · have hdisposes : act.disposes = true := by
      simp [disposes, hnull, hstage]
    rw [if_neg hnull]
    simp [finish, haccepted, hstage, hdisposes, hasker]

theorem not_closes_of_full {owed : ZdpOwed} {act : ZdpAct}
    (hqueued : act.queued = true) (hroom : room owed.param = false) :
    ¬ run.Closes [owed] [⟨owed.param, act⟩] room := by
  intro hcloses
  have hmoved := hcloses.moved
  simp [finish, hqueued, hroom] at hmoved

theorem closes_single_iff (hrun : run.unanswered = []) (owed : ZdpOwed) (act : ZdpAct) :
    run.Closes [owed] [⟨owed.param, act⟩] room ↔
      Cares owed act room := by
  by_cases hroom : act.queued = true → room owed.param = true
  · cases hstage : act.stage with
    | some stage =>
      refine iff_of_true ⟨?_, ?_⟩ ⟨hroom, .inl (by simp [hstage])⟩
      · rw [finish_of_stage hroom hstage, List.map_append, add_zero]
        exact Multiset.coe_add _ _
      · rw [finish_of_stage hroom hstage]
        exact hrun
    | none =>
      have hfinish := @finish_of_stage_eq_none run run.server room _ _ hroom hstage
      constructor
      · intro hcloses
        have hmoved := hcloses.moved
        have hanswered := hcloses.answered
        rw [hfinish] at hmoved hanswered
        refine ⟨hroom, .inr ⟨?_, ?_⟩⟩
        · intro hnull
          simp [hnull] at hmoved
        · intro asker hasker
          simpa [hasker, hrun] using hanswered
      · rintro ⟨-, hkept | ⟨hnull, hasker⟩⟩
        · exact absurd hstage hkept
        · refine ⟨?_, ?_⟩
          · rw [hfinish, if_neg hnull]
            simp
          · rw [hfinish, hrun]
            cases howed : owed.asker with
            | none => rfl
            | some asker => simp [hasker asker howed]
  · refine iff_of_false ?_ fun hcares => hroom hcares.1
    have hqueued : act.queued = true := by
      by_contra hdirect
      exact hroom fun hqueued => absurd hqueued hdirect
    refine not_closes_of_full hqueued ?_
    exact eq_false_of_ne_true fun htrue => hroom fun _ => htrue

section Calls

variable {owed : ZdpOwed} {resp : ZdpResp}

theorem cares_freeBuf_iff : Cares owed .freeBuf room ↔ owed.asker = none := by
  simp [Cares, queued, stage, answers, eq_none_iff_forall_not_mem]

theorem cares_nwkDoLeave_iff : Cares owed .nwkDoLeave room ↔ owed.asker = none := by
  simp [Cares, queued, stage, answers, eq_none_iff_forall_not_mem]

theorem cares_sendResp_iff : Cares owed (.sendResp resp) room ↔ room owed.param = true ∧
      ∀ asker, owed.asker = some asker →
        resp.dstAddr = asker.addr ∧ resp.tsn = asker.tsn := by
  simp [Cares, queued, stage, answers]

theorem cares_localResp_iff : Cares owed (.localResp resp) room ↔ room owed.param = true ∧
      ∀ asker, owed.asker = some asker →
        resp.dstAddr = asker.addr ∧ resp.tsn = asker.tsn := by
  simp [Cares, queued, stage, answers]

theorem cares_silent_iff
    {act : ZdpAct} (hqueued : act.queued = true) (hstage : act.stage = none)
    (hsilent : ∀ asker, act.answers asker = false) :
    Cares owed act room ↔ room owed.param = true ∧
      act ≠ .schedule none ∧ owed.asker = none := by
  simp [Cares, hqueued, hstage, hsilent, eq_none_iff_forall_not_mem]

theorem closes_keep_iff (hrun : run.unanswered = []) (owed : ZdpOwed) {act : ZdpAct}
    (hqueued : act.queued = true) (hstage : act.stage ≠ none) :
    run.Closes [owed] [⟨owed.param, act⟩] room ↔ room owed.param = true := by
  rw [closes_single_iff hrun]
  simp [Cares, hqueued, hstage]

end Calls

section Indications

variable {ind : ZdpInd}

theorem asker_owed (ind : ZdpInd) : ind.owed.asker =
      if ind.needsResp then some ⟨ind.srcAddr, ind.tsn⟩ else none :=
  rfl

theorem asker_owed_eq_none : ind.owed.asker = none ↔ ind.needsResp = false := by
  rw [asker_owed]
  cases ind.needsResp <;> simp

theorem closes_freeBuf_iff (hrun : run.unanswered = []) :
    run.Closes [ind.owed] [⟨ind.param, .freeBuf⟩] room ↔ ind.needsResp = false :=
  (closes_single_iff hrun ind.owed .freeBuf).trans
    (cares_freeBuf_iff.trans asker_owed_eq_none)

theorem finish_responses (inds : List ZdpInd) (status : UInt8) :
    run.finish server (inds.map ZdpInd.owed)
        (inds.flatMap fun ind => zdoAnswer ind status) room =
      (⟨server, run.held, run.unanswered ++
          (inds.filterMap fun ind => ind.owed.asker).filter fun asker =>
            !(inds.filter fun ind => room ind.param).any fun ind =>
              ind.srcAddr = asker.addr ∧ ind.tsn = asker.tsn⟩,
        ↑((inds.filter fun ind => room ind.param).map ZdpInd.param)) := by
  have hdone : (inds.flatMap fun ind => zdoAnswer ind status).filter
      (fun call => !call.act.queued || room call.param) =
        (inds.filter fun ind => room ind.param).map fun ind =>
          ⟨ind.param, .sendResp
            ⟨ZdpCluster.resp ind.clusterId, status, ind.tsn, ind.srcAddr⟩⟩ := by
    induction inds with
    | nil => rfl
    | cons ind rest ih =>
      rw [List.flatMap_cons, List.filter_append, ih, List.filter_cons]
      cases hroom : room ind.param with
      | false => simp [zdoAnswer, zdoSendRespByShort, queued, hroom]
      | true => simp [zdoAnswer, zdoSendRespByShort, queued, hroom]
  have hdisposes (resp : ZdpResp) : (sendResp resp).disposes = true := rfl
  have hnone : (inds.any fun _ => false) = false :=
    List.any_eq_false.mpr fun _ _ => Bool.false_ne_true
  rw [finish, hdone]
  simp only [List.filter_map, Function.comp_def, hdisposes, List.filter_true, List.map_map]
  simp [hnone, stage, answers, List.filterMap_map, Function.comp_def]

theorem closes_responses_iff
    (hrun : run.unanswered = []) (inds : List ZdpInd) (status : UInt8) :
    run.Closes (inds.map ZdpInd.owed) (inds.flatMap fun ind => zdoAnswer ind status) room ↔
      ∀ ind ∈ inds, room ind.param = true := by
  constructor
  · intro hcloses ind hmem
    have hmoved := hcloses.moved
    rw [finish_responses, add_right_inj, Multiset.coe_eq_coe] at hmoved
    have hlength := hmoved.length_eq
    rw [List.length_map, List.length_map, List.length_map] at hlength
    exact List.length_filter_eq_length_iff.mp hlength.symm ind hmem
  · intro hall
    have hfilter : inds.filter (fun ind => room ind.param) = inds :=
      List.filter_eq_self.mpr hall
    refine ⟨?_, ?_⟩
    · rw [finish_responses, hfilter, List.map_map]
      rfl
    · rw [finish_responses, hfilter, hrun, List.nil_append, List.filter_eq_nil_iff]
      intro asker hasker
      obtain ⟨ind, hmem, howed⟩ := List.mem_filterMap.mp hasker
      rw [asker_owed] at howed
      split at howed
      · obtain rfl := some.inj howed
        simp only [Bool.not_eq_true', Bool.not_eq_false, List.any_eq_true]
        exact ⟨ind, hmem, by simp⟩
      · contradiction

end Indications

end ZdpServerRun

def ZdoTransactions.Knows (ctx : ZdoTransactions) (tsn : UInt8) : Prop :=
  ∃ i, ctx.Live i ∧ (ctx.zdoCb i).tsn = tsn

theorem ZdpCluster.not_mem_answered
    {cluster : UInt16} (hresp : cluster ∈ afResps) : cluster ∉ answered := by
  have hall : afResps.all fun cluster => !answered.contains cluster := by decide
  simpa using List.all_eq_true.mp hall cluster hresp

namespace ZdpInd

variable {ind : ZdpInd}

theorem needsResp_of_mem (hmem : ind.clusterId ∈ ZdpCluster.answered)
    (hne : ind.clusterId ≠ ZdpCluster.mgmtNwkUpdateReq) :
    ind.needsResp = ind.unicast := by
  simp [needsResp, hmem, hne]

theorem needsResp_of_not_mem (hmem : ind.clusterId ∉ ZdpCluster.answered) :
    ind.needsResp = false := by
  simp [needsResp, hmem]

def KeepsSrcAddr (ind : ZdpInd) (tail : Option UInt8 × Option UInt8) : Prop :=
  (∀ byte ∈ tail.1, byte.toNat = ind.srcAddr / 256) ∧
    ∀ byte ∈ tail.2, byte.toNat = ind.srcAddr % 256

theorem srcAddrUnder_eq_iff {tail : Option UInt8 × Option UInt8} :
    ind.srcAddrUnder tail = ind.srcAddr ↔ ind.KeepsSrcAddr tail := by
  obtain ⟨high, low⟩ := tail
  cases high with
  | none =>
    cases low with
    | none => simp [srcAddrUnder, KeepsSrcAddr, Nat.div_add_mod]
    | some low =>
      simp only [srcAddrUnder, KeepsSrcAddr, elim_none, elim_some, mem_def,
        reduceCtorEq, false_implies, implies_true, true_and, some.injEq,
        forall_eq']
      omega
  | some high =>
    cases low with
    | none =>
      simp only [srcAddrUnder, KeepsSrcAddr, elim_none, elim_some, mem_def,
        reduceCtorEq, false_implies, implies_true, and_true, some.injEq,
        forall_eq']
      omega
    | some low =>
      have hlow := low.toNat_lt
      simp only [srcAddrUnder, KeepsSrcAddr, elim_some, mem_def, some.injEq, forall_eq']
      omega

end ZdpInd

namespace ZdpServer

variable {server : ZdpServer} {device : ZdpDevice} {ind : ZdpInd}
  {room : ℕ → Bool} {alarmRoom : Bool}

def ServesUpdate (server : ZdpServer) (ind : ZdpInd) (room : ℕ → Bool) : Prop :=
  let scanDuration := ind.frame.byte 5
  let scanCount := ind.frame.byte 6
  scanDuration ≠ 0xfe ∧ scanDuration ≠ 0xff ∧ room ind.param = true ∧
    (scanDuration ≤ 5 ∧ 0 < scanCount ∧ scanCount ≤ 5 ∨
      (scanDuration ≤ 5 ∨ ind.unicast = true) ∧ ind.srcAddr < broadcastLowPowerRouter ∧
          (ind.unicast = true → server.sendWithAck = false))

def ServesBind (server : ZdpServer) (ind : ZdpInd) (room : ℕ → Bool) (alarmRoom : Bool) :
    Prop :=
  if ind.frame.validEndp then
    match server.bindDev1 with
    | none => alarmRoom = true
    | some first =>
        room ind.param = true ∧ (server.bindDev2 = none → room first.param = true)
  else room ind.param = true

/-- The descriptor fits the buffer, and what a unicast request finds over its
address are the bytes of the address. -/
def ServesSimpleDesc (device : ZdpDevice) (ind : ZdpInd) : Prop :=
  device.shortAddress = ind.frame.word 1 → ind.frame.byte 3 ≠ 0 →
    ∀ desc, device.srcDesc (ind.frame.byte 3) = some desc → desc.numClusters ≤ 32 ∧
        (ind.unicast = true → ind.KeepsSrcAddr desc.overSrcAddr)

def ServesLqi (device : ZdpDevice) (ind : ZdpInd) : Prop :=
  device.routerRole = true →
    let recordsNum := device.lqiRecordsNum (ind.frame.byte 1)
    recordsNum ≤ 6 ∧ (ind.unicast = true →
      ind.KeepsSrcAddr (device.lqiOverSrcAddr recordsNum))

/-- When an indication is disposed of once and, if it is a request which has a
response, answered or kept. -/
def Serves (server : ZdpServer) (device : ZdpDevice) (ind : ZdpInd)
    (room : ℕ → Bool) (alarmRoom : Bool) : Prop :=
  let cluster := ind.clusterId
  let taken := room ind.param = true
  if cluster = ZdpCluster.nodeDescReq ∨ cluster = ZdpCluster.powerDescReq then
    ind.unicast = false
  else if cluster = ZdpCluster.nwkAddrReq then
    (ind.unicast = false ∧
      device.noAssocDev (ind.frame.byte 9) (ind.frame.byte 10) = true) ∨ taken
  else if cluster = ZdpCluster.ieeeAddrReq then
    if device.shortAddress = ind.frame.word 1 then
      if device.noAssocDev (ind.frame.byte 3) (ind.frame.byte 4) then ind.unicast = false
      else taken
    else ind.broadcast = false ∧ taken
  else if cluster = ZdpCluster.simpleDescReq then taken ∧ ServesSimpleDesc device ind
  else if cluster = ZdpCluster.mgmtLqiReq then taken ∧ ServesLqi device ind
  else if cluster = ZdpCluster.mgmtNwkUpdateReq then server.ServesUpdate ind room
  else if cluster = ZdpCluster.mgmtLeaveReq then
    taken ∧ (ind.unicast = true →
      (∀ i < zdoPendingLeaveSize, (server.pendingList i).used = true) →
        ind.frame.dataOffset = (ioBufSize - 1) / 2 → ind.tsn = ZdpStatus.insufficientSpace)
  else if cluster = ZdpCluster.endDeviceBindReq then server.ServesBind ind room alarmRoom
  else if cluster ∈ ZdpCluster.answered then taken
  else if cluster = ZdpCluster.systemServerDiscoveryReq then
    ind.frame.word 1 &&& device.serverMask = 0 ∨ taken
  else if cluster = ZdpCluster.mgmtPermitJoining then
    device.routerRole = true ∧ (device.joinedPro = true ∨ taken)
  else if cluster ∈ ZdpCluster.afResps then device.zdo.Knows ind.tsn → taken
  else if cluster = ZdpCluster.systemServerDiscoveryResp then
    ind.tsn = device.zdo.systemServerDiscoveryTsn →
      taken ∧ device.zdo.systemServerDiscoveryCb ≠ none
  else if cluster = ZdpCluster.mgmtNwkUpdateNotify then
    device.zdo.Knows ind.tsn ∨ (server.channelChanged = false ∧
          ind.changesChannel device.currentChannel = true) →
      taken
  else True

end ZdpServer

/-! ## Handlers -/

namespace ZdoTransactions

theorem zdoAfResp_of_knows {ctx : ZdoTransactions} {tsn : UInt8} (hknows : ctx.Knows tsn) :
    ∃ ent, (ctx.zdoAfResp tsn).2 = some ent ∧ ent.func ≠ none := by
  obtain ⟨i, hlive, htsn⟩ := hknows
  cases hfound : ctx.found tsn with
  | none => exact absurd htsn (found_eq_none hfound hlive)
  | some j =>
    rw [zdoAfResp_of_some hfound]
    exact ⟨_, rfl, (found_eq_some hfound).1.2⟩

theorem zdoAfResp_of_not_knows
    {ctx : ZdoTransactions} {tsn : UInt8} (hknows : ¬ ctx.Knows tsn) :
    (ctx.zdoAfResp tsn).2 = none := by
  cases hfound : ctx.found tsn with
  | none => rw [zdoAfResp_of_none hfound]
  | some i => exact absurd ⟨i, found_eq_some hfound⟩ hknows

end ZdoTransactions

namespace ZdpServerRun

variable {run : ZdpServerRun} {device : ZdpDevice} {ind : ZdpInd}
  {room : ℕ → Bool} {alarmRoom : Bool}

theorem closes_resp_iff (hrun : run.unanswered = []) (status : UInt8) :
    run.Closes [ind.owed] (zdoAnswer ind status) room ↔ room ind.param = true := by
  have hresponses := @closes_responses_iff run room hrun [ind] status
  simpa using hresponses

theorem closes_respTo_iff (hrun : run.unanswered = [])
    (hneeds : ind.needsResp = ind.unicast) (status : UInt8) (addr : ℕ) :
    run.Closes [ind.owed] (zdoSendRespByShort ind status addr) room ↔
      room ind.param = true ∧ (ind.unicast = true → addr = ind.srcAddr) := by
  refine (closes_single_iff hrun ind.owed _).trans (cares_sendResp_iff.trans ?_)
  rw [asker_owed, hneeds]
  cases ind.unicast with
  | false => exact and_congr_right fun _ => by simp
  | true => exact and_congr_right fun _ => by simp

theorem closes_simpleDescResp_iff
    (hrun : run.unanswered = []) (hneeds : ind.needsResp = ind.unicast) :
    run.Closes [ind.owed] (zdoSendSimpleDescResp device ind) room ↔
      room ind.param = true ∧ ZdpServer.ServesSimpleDesc device ind := by
  rw [zdoSendSimpleDescResp, ZdpServer.ServesSimpleDesc]
  split
  case isTrue hown =>
    rw [forall_prop_of_true hown]
    split
    case isTrue hzdo => rw [closes_resp_iff hrun, and_iff_left fun hep => absurd hzdo hep]
    case isFalse hep =>
      rw [forall_prop_of_true hep]
      cases hdesc : device.srcDesc (ind.frame.byte 3) with
      | none =>
        rw [and_iff_left fun _ hsome => nomatch hsome]
        exact closes_resp_iff hrun _
      | some desc =>
        dsimp only
        simp only [some.injEq, forall_eq']
        split
        case isTrue hfits =>
          have hclusters : desc.numClusters ≤ 32 := by
            rw [ioBufSize] at hfits
            omega
          rw [closes_respTo_iff hrun hneeds, and_iff_right hclusters,
            ZdpInd.srcAddrUnder_eq_iff]
        case isFalse hfits =>
          refine iff_of_false (not_closes_nil _) fun hserved => hfits ?_
          have hclusters := hserved.2.1
          rw [ioBufSize]
          omega
  case isFalse hother =>
    rw [and_iff_left fun hown => absurd hown hother]
    split
    case isTrue => exact closes_resp_iff hrun _
    case isFalse => exact closes_resp_iff hrun _

theorem closes_lqiResp_iff
    (hrun : run.unanswered = []) (hneeds : ind.needsResp = ind.unicast) :
    run.Closes [ind.owed] (zdoLqiResp device ind) room ↔
      room ind.param = true ∧ ZdpServer.ServesLqi device ind := by
  rw [zdoLqiResp, ZdpServer.ServesLqi]
  dsimp only
  split
  case isTrue hrouter =>
    rw [forall_prop_of_true hrouter]
    split
    case isTrue hfits =>
      have hrecords : device.lqiRecordsNum (ind.frame.byte 1) ≤ 6 := by
        rw [ioBufSize] at hfits
        omega
      rw [closes_respTo_iff hrun hneeds, and_iff_right hrecords,
        ZdpInd.srcAddrUnder_eq_iff]
    case isFalse hfits =>
      refine iff_of_false (not_closes_nil _) fun hserved => hfits ?_
      have hrecords := hserved.2.1
      rw [ioBufSize]
      omega
  case isFalse hrouter =>
    rw [and_iff_left fun hrole => absurd hrole hrouter]
    exact closes_resp_iff hrun _

theorem closes_silent_iff (hrun : run.unanswered = []) {act : ZdpAct}
    (hneeds : ind.needsResp = false)
    (hqueued : act.queued = true) (hstage : act.stage = none)
    (hsilent : ∀ asker, act.answers asker = false) :
    run.Closes [ind.owed] [⟨ind.param, act⟩] room ↔
      room ind.param = true ∧ act ≠ .schedule none := by
  refine (closes_single_iff hrun ind.owed act).trans
    ((cares_silent_iff hqueued hstage hsilent).trans ?_)
  rw [asker_owed_eq_none, hneeds, and_iff_left rfl]
  rfl

theorem noAssocDev_eq_true {requestType startIndex : UInt8}
    (hnone : device.noAssocDev requestType startIndex = true) :
    requestType = zdoExtendedResponse :=
  (of_decide_eq_true hnone).1

theorem noAssocDev_of_lt {requestType startIndex : UInt8}
    (hlt : zdoExtendedResponse < requestType) :
    device.noAssocDev requestType startIndex = false := by
  refine eq_false_of_ne_true fun hnone => ?_
  rw [noAssocDev_eq_true hnone] at hlt
  exact UInt8.lt_irrefl _ hlt

theorem closes_nwkAddrRes_iff
    (hrun : run.unanswered = []) (hneeds : ind.needsResp = ind.unicast) :
    run.Closes [ind.owed] (zdoDeviceNwkAddrRes device ind) room ↔ (ind.unicast = false ∧
        device.noAssocDev (ind.frame.byte 9) (ind.frame.byte 10) = true) ∨
          room ind.param = true := by
  unfold zdoDeviceNwkAddrRes
  dsimp only
  split
  case isTrue hunknown =>
    rw [closes_resp_iff hrun, hunknown.2, or_iff_right]
    exact fun hfreed => Bool.noConfusion hfreed.1
  case isFalse hknown =>
    split
    case isTrue hlt =>
      rw [closes_resp_iff hrun, noAssocDev_of_lt hlt, or_iff_right]
      exact fun hfreed => Bool.noConfusion hfreed.2
    case isFalse =>
      split
      case isTrue hnone =>
        -- an extended request does not look for the address
        have hunicast : ind.unicast = false := by
          refine eq_false_of_ne_true fun hunicast => hknown ⟨?_, hunicast⟩
          rw [noAssocDev_eq_true hnone]
          rfl
        rw [closes_freeBuf_iff hrun, hneeds]
        exact iff_of_true hunicast (.inl ⟨hunicast, hnone⟩)
      case isFalse hsome =>
        rw [closes_resp_iff hrun, or_iff_right]
        exact fun hfreed => hsome hfreed.2

theorem closes_ieeeAddrRes_iff
    (hrun : run.unanswered = []) (hneeds : ind.needsResp = ind.unicast) :
    run.Closes [ind.owed] (zdoDeviceIeeeAddrRes device ind) room ↔
      if device.shortAddress = ind.frame.word 1 then
        if device.noAssocDev (ind.frame.byte 3) (ind.frame.byte 4) then ind.unicast = false
        else room ind.param = true
      else ind.broadcast = false ∧ room ind.param = true := by
  unfold zdoDeviceIeeeAddrRes
  dsimp only
  split
  case isTrue hother =>
    split
    case isTrue hunicast =>
      have hbroadcast : ind.broadcast = false := by
        rw [ZdpInd.broadcast, of_decide_eq_true hunicast]
        rfl
      rw [closes_resp_iff hrun, and_iff_right hbroadcast]
    case isFalse hunicast =>
      split
      case isTrue hbroadcast =>
        refine iff_of_false (not_closes_nil _) ?_
        rw [hbroadcast]
        exact fun hserved => Bool.noConfusion hserved.1
      case isFalse hbroadcast =>
        rw [closes_resp_iff hrun, and_iff_right (eq_false_of_ne_true hbroadcast)]
  case isFalse hown =>
    rw [if_pos (of_not_not hown)]
    split
    case isTrue hlt =>
      rw [closes_resp_iff hrun, noAssocDev_of_lt hlt, if_neg Bool.false_ne_true]
    case isFalse =>
      split
      case isTrue hnone => rw [closes_freeBuf_iff hrun, hneeds]
      case isFalse hsome => rw [closes_resp_iff hrun]

theorem closes_discoveryRes_iff
    (hrun : run.unanswered = []) (hneeds : ind.needsResp = false) :
    run.Closes [ind.owed] (zdoSystemServerDiscoveryRes device ind) room ↔
      ind.frame.word 1 &&& device.serverMask = 0 ∨ room ind.param = true := by
  rw [zdoSystemServerDiscoveryRes]
  split
  case isTrue hmask => rw [closes_resp_iff hrun, or_iff_right hmask]
  case isFalse hmask =>
    rw [closes_freeBuf_iff hrun]
    exact iff_of_true hneeds (.inl (of_not_not hmask))

theorem closes_afRespCalls (hrun : run.unanswered = []) (hneeds : ind.needsResp = false)
    (hknows : device.zdo.Knows ind.tsn) :
    ∃ calls, zdoAfRespCalls device ind = some calls ∧
      (run.Closes [ind.owed] calls room ↔ room ind.param = true) := by
  obtain ⟨ent, hent, hfunc⟩ := ZdoTransactions.zdoAfResp_of_knows hknows
  refine ⟨_, by rw [zdoAfRespCalls, hent, map_some], ?_⟩
  rw [closes_silent_iff hrun hneeds rfl rfl fun _ => rfl, and_iff_left]
  exact fun hnull => hfunc (schedule.inj hnull)

theorem zdoAfRespCalls_eq_none (hknows : ¬ device.zdo.Knows ind.tsn) :
    zdoAfRespCalls device ind = none := by
  rw [zdoAfRespCalls, ZdoTransactions.zdoAfResp_of_not_knows hknows, map_none]

section

variable (hrun : run.unanswered = [])

include hrun

theorem closes_discoveryResp_iff (hneeds : ind.needsResp = false) :
    run.Closes [ind.owed] (zdoSystemServerDiscoveryResp device ind) room ↔
      (ind.tsn = device.zdo.systemServerDiscoveryTsn →
        room ind.param = true ∧ device.zdo.systemServerDiscoveryCb ≠ none) := by
  rw [zdoSystemServerDiscoveryResp]
  split
  case isTrue htsn =>
    rw [closes_silent_iff hrun hneeds rfl rfl fun _ => rfl, forall_prop_of_true htsn]
    exact and_congr_right fun _ => not_congr ⟨schedule.inj, congrArg _⟩
  case isFalse htsn =>
    rw [closes_freeBuf_iff hrun]
    exact iff_of_true hneeds fun hsame => absurd hsame htsn

theorem closes_changeChannel_iff (hneeds : ind.needsResp = false) :
    run.Closes [ind.owed] (run.server.zdoChangeChannel device ind).2 room ↔
      (run.server.channelChanged = false ∧
          ind.changesChannel device.currentChannel = true →
        room ind.param = true) := by
  rw [ZdpServer.zdoChangeChannel]
  split
  case isTrue hchanges =>
    have hreq : sendReq ZdpCluster.mgmtNwkUpdateReq ≠ .schedule none := by simp
    rw [closes_silent_iff hrun hneeds rfl rfl fun _ => rfl, and_iff_left hreq,
      forall_prop_of_true]
    exact ⟨eq_false_of_ne_true hchanges.1, hchanges.2⟩
  case isFalse hstays =>
    rw [closes_freeBuf_iff hrun]
    refine iff_of_true hneeds fun hchanges => absurd ?_ hstays
    exact ⟨fun htrue => by simp [htrue] at hchanges, hchanges.2⟩

theorem closes_nwkUpdNotify_iff (server : ZdpServer) (owed : ZdpOwed)
    (notify : UpdNotify) :
    run.Closes [owed] (server.nwkUpdNotify owed.param notify).2 room ↔
      room owed.param = true ∧ ∀ asker, owed.asker = some asker →
        server.sendWithAck = false ∧ notify.dstAddr = asker.addr ∧
          notify.tsn = asker.tsn := by
  refine (closes_single_iff hrun owed _).trans ?_
  cases hack : server.sendWithAck with
  | true =>
    rw [if_pos rfl, cares_silent_iff rfl rfl fun _ => rfl, eq_none_iff_forall_not_mem]
    simp
  | false =>
    rw [if_neg Bool.false_ne_true, cares_sendResp_iff]
    simp

theorem closes_nwkUpdateAnswer_iff (status : UInt8) :
    run.Closes [ind.owed] (run.server.nwkUpdateAnswer ind status).2 room ↔
      ind.srcAddr < ZdpServer.broadcastLowPowerRouter ∧ room ind.param = true ∧
          (ind.needsResp = true → run.server.sendWithAck = false) := by
  rw [ZdpServer.nwkUpdateAnswer]
  split
  case isTrue hsrc =>
    refine (closes_nwkUpdNotify_iff hrun run.server ind.owed _).trans ?_
    rw [and_iff_right hsrc, asker_owed]
    refine and_congr_right fun _ => ?_
    cases ind.needsResp with
    | false => simp
    | true => simp
  case isFalse hsrc => exact iff_of_false (not_closes_nil _) fun hserved => hsrc hserved.1

theorem closes_mgmtNwkUpdate_iff (hcluster : ind.clusterId = ZdpCluster.mgmtNwkUpdateReq) :
    run.Closes [ind.owed] (run.server.mgmtNwkUpdateHandler ind).2 room ↔
      run.server.ServesUpdate ind room := by
  have hneeds : ind.frame.byte 5 ≠ 0xfe → ind.frame.byte 5 ≠ 0xff →
      ind.needsResp = ind.unicast := by
    intro hchannel hmask
    have hmem : ZdpCluster.mgmtNwkUpdateReq ∈ ZdpCluster.answered := by decide
    simp [ZdpInd.needsResp, hcluster, hmem, hchannel, hmask]
  unfold ZdpServer.mgmtNwkUpdateHandler ZdpServer.ServesUpdate
  dsimp only
  split
  case isTrue hchannel =>
    exact iff_of_false (not_closes_nil _) fun hserved => hserved.1 hchannel
  case isFalse hchannel =>
    split
    case isTrue hmask =>
      exact iff_of_false (not_closes_nil _) fun hserved => hserved.2.1 hmask
    case isFalse hmask =>
      rw [and_iff_right hchannel, and_iff_right hmask]
      split
      case isTrue hduration =>
        split
        case isTrue hcount =>
          have hmany : ¬ ind.frame.byte 6 ≤ 5 := UInt8.not_le.mpr hcount
          rw [closes_nwkUpdateAnswer_iff hrun, hneeds hchannel hmask]
          grind
        case isFalse hcount =>
          split
          case isTrue hpos =>
            rw [and_iff_left (.inl ⟨hduration, hpos, UInt8.not_lt.mp hcount⟩)]
            exact closes_keep_iff hrun ind.owed rfl (some_ne_none _)
          case isFalse hzero =>
            rw [closes_nwkUpdateAnswer_iff hrun, hneeds hchannel hmask]
            grind
      case isFalse hduration =>
        split
        case isTrue hunicast =>
          rw [closes_nwkUpdateAnswer_iff hrun, hneeds hchannel hmask]
          grind
        case isFalse hunicast =>
          refine iff_of_false (not_closes_nil _) ?_
          grind

theorem closes_mgmtLeaveSrv_iff (hneeds : ind.needsResp = ind.unicast) :
    run.Closes [ind.owed] (run.server.mgmtLeaveSrv ind).2 room ↔
      room ind.param = true ∧ (ind.unicast = true →
        (∀ i < zdoPendingLeaveSize, (run.server.pendingList i).used = true) →
          ind.frame.dataOffset = (ioBufSize - 1) / 2 →
            ind.tsn = ZdpStatus.insufficientSpace) := by
  rw [ZdpServer.mgmtLeaveSrv]
  cases hfree : (List.range zdoPendingLeaveSize).find? fun i =>
      !(run.server.pendingList i).used with
  | none =>
    have hfull : ∀ i < zdoPendingLeaveSize, (run.server.pendingList i).used = true := by
      intro i hi
      have hused := List.find?_eq_none.mp hfree i (List.mem_range.mpr hi)
      simpa using hused
    refine (closes_single_iff hrun ind.owed _).trans (cares_sendResp_iff.trans ?_)
    refine and_congr_right fun _ => ?_
    rw [asker_owed, hneeds]
    cases ind.unicast with
    | false => simp
    | true =>
      rw [if_pos rfl, forall_prop_of_true rfl, forall_prop_of_true hfull]
      by_cases hoffset : ind.frame.dataOffset = (ioBufSize - 1) / 2
      · simp [hoffset, eq_comm]
      · simp [hoffset]
  | some i =>
    refine Iff.trans (closes_keep_iff hrun ind.owed rfl
      (some_ne_none _)) (and_iff_left fun _ hfull => ?_).symm
    have hunused := List.find?_some hfree
    have hi := List.mem_range.mp (List.mem_of_find?_eq_some hfree)
    rw [hfull i hi] at hunused
    contradiction

theorem closes_afResp_iff (hneeds : ind.needsResp = false) : run.Closes [ind.owed]
        ((zdoAfRespCalls device ind).getD [⟨ind.param, .freeBuf⟩]) room ↔
      (device.zdo.Knows ind.tsn → room ind.param = true) := by
  by_cases hknows : device.zdo.Knows ind.tsn
  · obtain ⟨calls, hcalls, hiff⟩ := @closes_afRespCalls run device ind room
      hrun hneeds hknows
    rw [hcalls, getD_some, hiff, forall_prop_of_true hknows]
  · rw [zdoAfRespCalls_eq_none hknows, Option.getD_none]
    exact (closes_freeBuf_iff hrun).trans (iff_of_true hneeds fun h => absurd h hknows)

theorem closes_notify_iff (hneeds : ind.needsResp = false) :
    run.Closes [ind.owed] (match zdoAfRespCalls device ind with
          | some calls => (run.server, calls)
          | none => run.server.zdoChangeChannel device ind).2 room ↔
      (device.zdo.Knows ind.tsn ∨ (run.server.channelChanged = false ∧
            ind.changesChannel device.currentChannel = true) →
        room ind.param = true) := by
  by_cases hknows : device.zdo.Knows ind.tsn
  · obtain ⟨calls, hcalls, hiff⟩ := @closes_afRespCalls run device ind room
      hrun hneeds hknows
    rw [hcalls, forall_prop_of_true (.inl hknows)]
    exact hiff
  · rw [zdoAfRespCalls_eq_none hknows, or_iff_right hknows]
    exact closes_changeChannel_iff hrun hneeds

theorem closes_permitJoining_iff (hneeds : ind.needsResp = false) :
    run.Closes [ind.owed] (if device.routerRole then
          (run.server, if device.joinedPro then [⟨ind.param, .freeBuf⟩]
            else zdoMgmtPermitJoiningHandle ind)
        else (run.server, [])).2 room ↔
      device.routerRole = true ∧ (device.joinedPro = true ∨ room ind.param = true) := by
  cases device.routerRole with
  | false =>
    exact iff_of_false (not_closes_nil _) fun hserved => Bool.noConfusion hserved.1
  | true =>
    cases device.joinedPro with
    | true => exact (closes_freeBuf_iff hrun).trans (iff_of_true hneeds ⟨rfl, .inl rfl⟩)
    | false =>
      refine (closes_silent_iff hrun hneeds rfl rfl fun _ => rfl).trans ?_
      simp

theorem closes_dataIndication_iff (hbind : ind.clusterId ≠ ZdpCluster.endDeviceBindReq) :
    run.Closes [ind.owed] (run.server.zdoDataIndication device ind alarmRoom).2 room ↔
      run.server.Serves device ind room alarmRoom := by
  have hneeds (hmem : ind.clusterId ∈ ZdpCluster.answered)
      (hne : ind.clusterId ≠ ZdpCluster.mgmtNwkUpdateReq) :
      ind.needsResp = ind.unicast := ZdpInd.needsResp_of_mem hmem hne
  have hsilent (hmem : ind.clusterId ∉ ZdpCluster.answered) :
      ind.needsResp = false := ZdpInd.needsResp_of_not_mem hmem
  rw [ZdpServer.zdoDataIndication]
  by_cases hannce : device.routerRole = true ∧
      ind.clusterId = ZdpCluster.deviceAnnce ∧ ¬ device.joinedPro = true
  · have hcluster := hannce.2.1
    rw [if_pos hannce, closes_freeBuf_iff hrun, ZdpServer.Serves, hcluster]
    exact iff_of_true (hsilent (by rw [hcluster]; decide)) trivial
  have hboth : ¬ (ind.clusterId = ZdpCluster.nodeDescReq ∧
      ind.clusterId = ZdpCluster.powerDescReq) := by
    rintro ⟨hnode, hpower⟩
    rw [hnode] at hpower
    exact absurd hpower (by decide)
  rw [if_neg hannce, if_neg hboth]
  by_cases hsimple : ind.clusterId = ZdpCluster.simpleDescReq
  · rw [if_pos hsimple, ZdpServer.Serves, hsimple]
    exact closes_simpleDescResp_iff hrun
      (hneeds (by rw [hsimple]; decide) (by rw [hsimple]; decide))
  rw [if_neg hsimple]
  by_cases hnwkAddr : ind.clusterId = ZdpCluster.nwkAddrReq
  · rw [if_pos hnwkAddr, ZdpServer.Serves, hnwkAddr]
    exact closes_nwkAddrRes_iff hrun
      (hneeds (by rw [hnwkAddr]; decide) (by rw [hnwkAddr]; decide))
  rw [if_neg hnwkAddr]
  by_cases hieeeAddr : ind.clusterId = ZdpCluster.ieeeAddrReq
  · rw [if_pos hieeeAddr, ZdpServer.Serves, hieeeAddr]
    exact closes_ieeeAddrRes_iff hrun
      (hneeds (by rw [hieeeAddr]; decide) (by rw [hieeeAddr]; decide))
  rw [if_neg hieeeAddr]
  by_cases hactiveEp : ind.clusterId = ZdpCluster.activeEpReq
  · rw [if_pos hactiveEp, ZdpServer.Serves, hactiveEp]
    exact closes_resp_iff hrun _
  rw [if_neg hactiveEp]
  by_cases hmatch : ind.clusterId = ZdpCluster.matchDescReq
  · rw [if_pos hmatch, ZdpServer.Serves, hmatch]
    exact closes_resp_iff hrun _
  rw [if_neg hmatch]
  by_cases hupdate : ind.clusterId = ZdpCluster.mgmtNwkUpdateReq
  · rw [if_pos hupdate, ZdpServer.Serves, hupdate]
    exact closes_mgmtNwkUpdate_iff hrun hupdate
  rw [if_neg hupdate]
  by_cases hdiscovery : ind.clusterId = ZdpCluster.systemServerDiscoveryReq
  · rw [if_pos hdiscovery, ZdpServer.Serves, hdiscovery]
    exact closes_discoveryRes_iff hrun (hsilent (by rw [hdiscovery]; decide))
  rw [if_neg hdiscovery]
  by_cases hlqi : ind.clusterId = ZdpCluster.mgmtLqiReq
  · rw [if_pos hlqi, ZdpServer.Serves, hlqi]
    exact closes_lqiResp_iff hrun (hneeds (by rw [hlqi]; decide) (by rw [hlqi]; decide))
  rw [if_neg hlqi]
  by_cases hleave : ind.clusterId = ZdpCluster.mgmtLeaveReq
  · rw [if_pos hleave, ZdpServer.Serves, hleave]
    exact closes_mgmtLeaveSrv_iff hrun
      (hneeds (by rw [hleave]; decide) (by rw [hleave]; decide))
  rw [if_neg hleave]
  by_cases hbindReq : ind.clusterId = ZdpCluster.bindReq
  · rw [if_pos hbindReq, ZdpServer.Serves, hbindReq]
    exact closes_resp_iff hrun _
  rw [if_neg hbindReq]
  by_cases hunbind : ind.clusterId = ZdpCluster.unbindReq
  · rw [if_pos hunbind, ZdpServer.Serves, hunbind]
    exact closes_resp_iff hrun _
  rw [if_neg hunbind]
  rw [if_neg hbind]
  by_cases hpermit : ind.clusterId = ZdpCluster.mgmtPermitJoining
  · rw [if_pos hpermit, ZdpServer.Serves, hpermit]
    exact closes_permitJoining_iff hrun (hsilent (by rw [hpermit]; decide))
  rw [if_neg hpermit]
  by_cases hresp : ind.clusterId ∈ ZdpCluster.afResps
  · have hother : ∀ cluster ∉ ZdpCluster.afResps, ind.clusterId ≠ cluster :=
      fun cluster hnot hsame => hnot (hsame ▸ hresp)
    have hnot := ZdpCluster.not_mem_answered hresp
    rw [if_pos hresp, ZdpServer.Serves, if_neg (not_or.mpr
      ⟨hother _ (by decide), hother _ (by decide)⟩), if_neg hnwkAddr,
      if_neg hieeeAddr, if_neg hsimple, if_neg hlqi, if_neg hupdate,
      if_neg hleave, if_neg hbind, if_neg hnot, if_neg hdiscovery, if_neg hpermit,
      if_pos hresp]
    exact closes_afResp_iff hrun (hsilent hnot)
  rw [if_neg hresp]
  by_cases hserverResp : ind.clusterId = ZdpCluster.systemServerDiscoveryResp
  · rw [if_pos hserverResp, ZdpServer.Serves, hserverResp]
    exact closes_discoveryResp_iff hrun (hsilent (by rw [hserverResp]; decide))
  rw [if_neg hserverResp]
  by_cases hnotify : ind.clusterId = ZdpCluster.mgmtNwkUpdateNotify
  · rw [if_pos hnotify, ZdpServer.Serves, hnotify]
    exact closes_notify_iff hrun (hsilent (by rw [hnotify]; decide))
  rw [if_neg hnotify]
  by_cases hdesc : ind.clusterId = ZdpCluster.nodeDescReq ∨
      ind.clusterId = ZdpCluster.powerDescReq
  · have hmem : ind.clusterId ∈ ZdpCluster.answered := by
      obtain hnode | hpower := hdesc
      · rw [hnode]
        decide
      · rw [hpower]
        decide
    rw [closes_freeBuf_iff hrun, hneeds hmem hupdate, ZdpServer.Serves, if_pos hdesc]
  · have hnot : ind.clusterId ∉ ZdpCluster.answered := by
      obtain ⟨hnode, hpower⟩ := not_or.mp hdesc
      simp [ZdpCluster.answered, *]
    rw [closes_freeBuf_iff hrun, ZdpServer.Serves, if_neg hdesc,
      if_neg hnwkAddr, if_neg hieeeAddr, if_neg hsimple, if_neg hlqi,
      if_neg hupdate, if_neg hleave, if_neg hbind, if_neg hnot, if_neg hdiscovery,
      if_neg hpermit,
      if_neg hresp, if_neg hserverResp, if_neg hnotify]
    exact iff_of_true (hsilent hnot) trivial

end

end ZdpServerRun

namespace ZdpServer

variable {server next : ZdpServer} {device : ZdpDevice} {ind : ZdpInd} {alarmRoom : Bool}

def Timed (server : ZdpServer) : Prop :=
  ∀ ind, server.bindDev1 = some ind → server.bindDev2 = none → server.bindTimer = some ind

structure Bound (server : ZdpServer) : Prop where
  timer : ∀ ind, server.bindTimer = some ind →
    server.bindDev1 = some ind ∧ server.bindDev2 = none
  first : server.bindDev2 ≠ none → server.bindDev1 ≠ none

structure SameBind (server next : ZdpServer) : Prop where
  dev1 : next.bindDev1 = server.bindDev1
  dev2 : next.bindDev2 = server.bindDev2
  timer : next.bindTimer = server.bindTimer

namespace SameBind

theorem refl (server : ZdpServer) : SameBind server server := ⟨rfl, rfl, rfl⟩

theorem trans {last : ZdpServer} (hfirst : SameBind server next)
    (hsecond : SameBind next last) : SameBind server last :=
  ⟨hsecond.dev1.trans hfirst.dev1, hsecond.dev2.trans hfirst.dev2,
    hsecond.timer.trans hfirst.timer⟩

theorem waiting (hsame : SameBind server next) : next.waiting = server.waiting := by
  rw [ZdpServer.waiting, ZdpServer.waiting, hsame.dev1, hsame.dev2]

theorem timed (hsame : SameBind server next) (htimed : server.Timed) : next.Timed := by
  rw [Timed, hsame.dev1, hsame.dev2, hsame.timer]
  exact htimed

theorem bound (hsame : SameBind server next) (hbound : server.Bound) : next.Bound := by
  constructor
  · rw [hsame.dev1, hsame.dev2, hsame.timer]
    exact hbound.timer
  · rw [hsame.dev1, hsame.dev2]
    exact hbound.first

end SameBind

theorem sameBind_nwkUpdateAnswer (ind : ZdpInd) (status : UInt8) :
    SameBind server (server.nwkUpdateAnswer ind status).1 := by
  rw [nwkUpdateAnswer]
  split
  · exact ⟨rfl, rfl, rfl⟩
  · exact .refl server

theorem sameBind_mgmtNwkUpdateHandler (ind : ZdpInd) :
    SameBind server (server.mgmtNwkUpdateHandler ind).1 := by
  unfold mgmtNwkUpdateHandler
  dsimp only
  split
  · exact .refl server
  · split
    · exact ⟨rfl, rfl, rfl⟩
    · split
      · split
        · exact sameBind_nwkUpdateAnswer ind _
        · split
          · exact ⟨rfl, rfl, rfl⟩
          · exact sameBind_nwkUpdateAnswer ind _
      · split
        · exact sameBind_nwkUpdateAnswer ind _
        · exact .refl server

theorem sameBind_mgmtLeaveSrv (ind : ZdpInd) :
    SameBind server (server.mgmtLeaveSrv ind).1 := by
  rw [mgmtLeaveSrv]
  split
  · exact .refl server
  · exact ⟨rfl, rfl, rfl⟩

theorem sameBind_zdoChangeChannel (device : ZdpDevice) (ind : ZdpInd) :
    SameBind server (server.zdoChangeChannel device ind).1 := by
  rw [zdoChangeChannel]
  split
  · exact ⟨rfl, rfl, rfl⟩
  · exact .refl server

theorem sameBind_tryMgmtLeaveComplete (param : ℕ) :
    SameBind server (server.tryMgmtLeaveComplete param) := by
  rw [tryMgmtLeaveComplete]
  split
  · exact ⟨rfl, rfl, rfl⟩
  · exact .refl server

theorem sameBind_mgmtLeaveRsp (device : ZdpDevice) (i param : ℕ) (status : UInt8) :
    SameBind server (server.mgmtLeaveRsp device i param status).1 := by
  unfold mgmtLeaveRsp
  dsimp only
  split
  · split
    · exact sameBind_tryMgmtLeaveComplete param
    · exact .refl server
  · exact .refl server

theorem sameBind_nlmeLeaveConfirm
    (device : ZdpDevice) (param : ℕ) (status : UInt8) (willLeave : Bool) :
    SameBind server (server.nlmeLeaveConfirm device param status willLeave).1 := by
  rw [nlmeLeaveConfirm]
  split
  case h_1 i _ =>
    unfold sendMgmtLeaveRsp
    dsimp only
    split
    · exact (sameBind_mgmtLeaveRsp device i param status).trans ⟨rfl, rfl, rfl⟩
    · exact sameBind_mgmtLeaveRsp device i param status
  case h_2 => exact .refl server

theorem sameBind_channelCheckScanResult (param : ℕ) (busy : Bool) (status : UInt8) :
    SameBind server (server.channelCheckScanResult param busy status).1 := by
  unfold channelCheckScanResult
  dsimp only
  split
  · exact ⟨rfl, rfl, rfl⟩
  · exact ⟨rfl, rfl, rfl⟩

theorem sameBind_ite
    {condition : Prop} [Decidable condition] {yes no : ZdpServer × List ZdpCall}
    (hyes : SameBind server yes.1) (hno : SameBind server no.1) :
    SameBind server (if condition then yes else no).1 := by
  split
  · exact hyes
  · exact hno

theorem sameBind_zdoDataIndication (hbind : ind.clusterId ≠ ZdpCluster.endDeviceBindReq) :
    SameBind server (server.zdoDataIndication device ind alarmRoom).1 := by
  have hrefl (calls : List ZdpCall) :
      SameBind server (Prod.fst (server, calls)) := .refl server
  rw [zdoDataIndication, if_neg hbind]
  refine sameBind_ite (hrefl _) (sameBind_ite (hrefl _) (sameBind_ite (hrefl _)
    (sameBind_ite (hrefl _) (sameBind_ite (hrefl _) (sameBind_ite (hrefl _)
    (sameBind_ite (hrefl _) ?_))))))
  refine sameBind_ite (sameBind_mgmtNwkUpdateHandler ind) (sameBind_ite
    (hrefl _) (sameBind_ite (hrefl _) ?_))
  refine sameBind_ite (sameBind_mgmtLeaveSrv ind) (sameBind_ite (hrefl _)
    (sameBind_ite (hrefl _) ?_))
  refine sameBind_ite (sameBind_ite (hrefl _) (hrefl _)) (sameBind_ite
    (hrefl _) (sameBind_ite (hrefl _) (sameBind_ite ?_ (hrefl _))))
  cases zdoAfRespCalls device ind with
  | some calls => exact hrefl calls
  | none => exact sameBind_zdoChangeChannel device ind

end ZdpServer

section Results

variable {first frame : ZdpFrame} {busy : Bool}

theorem endDeviceBind_invalid {first : Option ZdpFrame} (hendp : frame.validEndp = false) :
    (zdoEndDeviceBindHandler first busy frame).1 = .invalidEp := by
  unfold zdoEndDeviceBindHandler
  rw [hendp, if_neg Bool.false_ne_true]

theorem endDeviceBind_waiting (hendp : frame.validEndp = true) :
    (zdoEndDeviceBindHandler none busy frame).1 = .waiting := by
  rw [zdoEndDeviceBindHandler, if_pos hendp]

theorem endDeviceBind_timeout (hendp : frame.validEndp = true) :
    (zdoEndDeviceBindHandler (some first) true frame).1 = .timeout := by
  rw [zdoEndDeviceBindHandler, if_pos hendp]
  rfl

theorem endDeviceBind_both (hendp : frame.validEndp = true) :
    (zdoEndDeviceBindHandler (some first) false frame).1 = .noMatch ∨
      (zdoEndDeviceBindHandler (some first) false frame).1 = .success := by
  rw [zdoEndDeviceBindHandler, if_pos hendp]
  dsimp only
  rw [if_neg Bool.false_ne_true]
  split
  · split
    · exact .inl rfl
    · exact .inr rfl
  · exact .inl rfl

end Results

namespace ZdpServerRun

variable {run rest : ZdpServerRun} {server : ZdpServer} {device : ZdpDevice}
  {ind : ZdpInd} {event : ZdpServerEvent} {room : ℕ → Bool} {alarmRoom : Bool}

structure Good (run : ZdpServerRun) (issued : Multiset ℕ)
    (result : ZdpServerRun × Multiset ℕ) : Prop where
  moved : run.bufs + issued = result.1.bufs + result.2
  answered : result.1.unanswered = []
  timed : result.1.server.Timed

theorem good_finish_iff {issued : Multiset ℕ} {ended : List ZdpOwed} {calls : List ZdpCall}
    (hbufs : run.bufs + issued = ↑(rest.held.map fun entry => entry.1.param) +
        ↑(ended.map ZdpOwed.param) + ↑(server.waiting.map ZdpOwed.param))
    (htimed : server.Timed) :
    Good run issued (rest.finish server ended calls room) ↔
      rest.Closes ended calls room := by
  have hmoved : run.bufs + issued = (rest.finish server ended calls room).1.bufs +
          (rest.finish server ended calls room).2 ↔
      (↑(rest.held.map fun entry => entry.1.param) : Multiset ℕ) +
          ↑(ended.map ZdpOwed.param) =
        ↑((rest.finish rest.server ended calls room).1.held.map
          fun entry => entry.1.param) + (rest.finish rest.server ended calls room).2 := by
    rw [hbufs, bufs, add_right_comm _ _ (rest.finish server ended calls room).2]
    exact add_left_inj _
  constructor
  · intro hgood
    exact ⟨hmoved.mp hgood.moved, hgood.answered⟩
  · intro hcloses
    exact ⟨hmoved.mpr hcloses.moved, hcloses.answered, htimed⟩

theorem diff_waiting (owed : ZdpOwed) (server : ZdpServer) :
    (owed :: server.waiting).diff server.waiting = [owed] := by
  rw [ZdpServer.waiting]
  split
  · rfl
  · cases server.bindDev1 with
    | none => rfl
    | some first =>
      rw [toList_some, List.map_singleton, List.diff_cons, List.diff_nil, List.erase_cons]
      split
      case isTrue hsame => rw [beq_iff_eq.mp hsame]
      case isFalse => rw [List.erase_cons_head]

def indicate (run : ZdpServerRun) (device : ZdpDevice) (ind : ZdpInd) (room : ℕ → Bool)
    (alarmRoom : Bool) : ZdpServerRun × Multiset ℕ :=
  run.finish (run.server.zdoDataIndication device ind alarmRoom).1
    ((ind.owed :: run.server.waiting).diff
      (run.server.zdoDataIndication device ind alarmRoom).1.waiting)
    (run.server.zdoDataIndication device ind alarmRoom).2 room

theorem good_indicate_iff_of_ne (hrun : run.unanswered = []) (htimed : run.server.Timed)
    (hbind : ind.clusterId ≠ ZdpCluster.endDeviceBindReq) :
    Good run {ind.param} (run.indicate device ind room alarmRoom) ↔
      run.server.Serves device ind room alarmRoom := by
  have hsame := @ZdpServer.sameBind_zdoDataIndication run.server device ind alarmRoom hbind
  rw [indicate, hsame.waiting, diff_waiting]
  refine (good_finish_iff ?_ (hsame.timed htimed)).trans
    (closes_dataIndication_iff hrun hbind)
  rw [hsame.waiting, bufs, add_right_comm]
  rfl

theorem dataIndication_of_bind (hbind : ind.clusterId = ZdpCluster.endDeviceBindReq) :
    run.server.zdoDataIndication device ind alarmRoom =
      run.server.endDeviceBindHandler ind alarmRoom := by
  rw [ZdpServer.zdoDataIndication, hbind, if_neg fun h => absurd h.2.1 (by decide)]
  rfl

theorem waiting_of_none {server : ZdpServer} (hdev1 : server.bindDev1 = none) :
    server.waiting = [] := by
  rw [ZdpServer.waiting, hdev1]
  split <;> rfl

theorem waiting_of_busy {server : ZdpServer} (hdev2 : server.bindDev2 ≠ none) :
    server.waiting = [] :=
  if_pos (isSome_iff_ne_none.mpr hdev2)

theorem waiting_of_first {server : ZdpServer} (hdev1 : server.bindDev1 = some ind)
    (hdev2 : server.bindDev2 = none) : server.waiting = [ind.owed] := by
  rw [ZdpServer.waiting, hdev1, hdev2]
  rfl

theorem good_waiting_iff (hrun : run.unanswered = []) (hbound : run.server.Bound)
    (hdev1 : run.server.bindDev1 = none)
    (hserver : server = { run.server with
      bindDev1 := some ind
      bindTimer := if alarmRoom then some ind else run.server.bindTimer }) :
    Good run {ind.param} (run.finish server
          ((ind.owed :: run.server.waiting).diff server.waiting) [] room) ↔
      alarmRoom = true := by
  have hdev2 : run.server.bindDev2 = none := by
    by_contra hbusy
    exact hbound.first hbusy hdev1
  have htimer : run.server.bindTimer = none := by
    cases htimer : run.server.bindTimer with
    | none => rfl
    | some other =>
      rw [(hbound.timer other htimer).1] at hdev1
      contradiction
  have hfirst : server.bindDev1 = some ind := by rw [hserver]
  have hsecond : server.bindDev2 = none := by rw [hserver, hdev2]
  rw [waiting_of_none hdev1, waiting_of_first hfirst hsecond, List.diff_cons,
    List.erase_cons_head, List.diff_nil]
  constructor
  · intro hgood
    have htimed : server.bindTimer = some ind := hgood.timed ind hfirst hsecond
    rw [hserver, htimer] at htimed
    cases alarmRoom with
    | false => contradiction
    | true => rfl
  · rintro rfl
    refine ⟨?_, ?_, ?_⟩
    · rw [bufs, bufs, waiting_of_none hdev1]
      change _ = _ + (↑(server.waiting.map ZdpOwed.param) : Multiset ℕ) + 0
      rw [waiting_of_first hfirst hsecond]
      simp [finish]
      rfl
    · rw [finish, hrun]
      rfl
    · intro other hother _
      change server.bindDev1 = some other at hother
      change server.bindTimer = some other
      rw [← hother, hfirst, hserver]
      rfl

theorem good_both_iff (hrun : run.unanswered = []) {first : ZdpInd}
    (hdev1 : run.server.bindDev1 = some first)
    (hdev2 : run.server.bindDev2 = none)
    (hwaiting : server.waiting = []) (htimed : server.Timed)
    (status : UInt8) :
    Good run {ind.param} (run.finish server
          ((ind.owed :: run.server.waiting).diff server.waiting)
          ([ind, first].flatMap fun ind => zdoAnswer ind status)
          room) ↔
      room ind.param = true ∧ room first.param = true := by
  have hresponses := @closes_responses_iff run room hrun [ind, first] status
  rw [hwaiting, waiting_of_first hdev1 hdev2, List.diff_nil]
  refine (good_finish_iff ?_ htimed).trans (hresponses.trans ?_)
  · rw [hwaiting, bufs, waiting_of_first hdev1 hdev2, List.map_nil,
      Multiset.coe_nil, add_zero, add_assoc]
    exact congrArg _ (add_comm _ _)
  · simp

theorem good_indicate_iff_of_bind (hrun : run.unanswered = []) (htimed : run.server.Timed)
    (hbound : run.server.Bound)
    (hbind : ind.clusterId = ZdpCluster.endDeviceBindReq) :
    Good run {ind.param} (run.indicate device ind room alarmRoom) ↔
      run.server.ServesBind ind room alarmRoom := by
  rw [indicate, dataIndication_of_bind hbind, ZdpServer.ServesBind]
  have hstay (status : UInt8) : Good run {ind.param} (run.finish run.server
            ((ind.owed :: run.server.waiting).diff run.server.waiting)
            (zdoAnswer ind status) room) ↔
        room ind.param = true := by
    rw [diff_waiting]
    refine (good_finish_iff ?_ htimed).trans (closes_resp_iff hrun status)
    rw [bufs, add_right_comm]
    rfl
  cases hendp : ind.frame.validEndp with
  | false =>
    rw [ZdpServer.endDeviceBindHandler, endDeviceBind_invalid hendp,
      if_neg Bool.false_ne_true]
    exact hstay _
  | true =>
    rw [if_pos rfl]
    cases hdev1 : run.server.bindDev1 with
    | none =>
      rw [ZdpServer.endDeviceBindHandler, hdev1, map_none, endDeviceBind_waiting hendp]
      exact good_waiting_iff hrun hbound hdev1 rfl
    | some first =>
      cases hdev2 : run.server.bindDev2 with
      | some other =>
        rw [ZdpServer.endDeviceBindHandler, hdev1, hdev2, map_some,
          isSome_some, endDeviceBind_timeout hendp]
        exact (hstay _).trans (by simp)
      | none =>
        dsimp only
        rw [forall_prop_of_true rfl, ZdpServer.endDeviceBindHandler,
          hdev1, hdev2, map_some, isSome_none]
        obtain hresult | hresult := @endDeviceBind_both first.frame ind.frame hendp
        · rw [hresult]
          refine good_both_iff hrun hdev1 hdev2 rfl ?_ ZdpStatus.noMatch
          intro other hfirst
          contradiction
        · rw [hresult]
          refine good_both_iff hrun hdev1 hdev2 rfl ?_ ZdpStatus.success
          intro other _ hsecond
          contradiction

/-! ## Procedures -/

theorem bufs_of_take
    {param : ℕ} {isStage : ZdpStage → Bool} {owed : ZdpOwed} {stage : ZdpStage}
    (htake : run.take param isStage = some (rest, owed, stage)) :
    owed.param = param ∧ isStage stage = true ∧ rest.server = run.server ∧
      rest.unanswered = run.unanswered ∧
      (↑(run.held.map fun entry => entry.1.param) : Multiset ℕ) =
        ↑(rest.held.map fun entry => entry.1.param) + {owed.param} := by
  obtain ⟨entry, hfind, heq⟩ := map_eq_some_iff.mp htake
  obtain ⟨rfl, rfl⟩ := Prod.mk.inj heq
  have hpred := List.find?_some hfind
  rw [Bool.and_eq_true, decide_eq_true_eq] at hpred
  refine ⟨hpred.1, hpred.2, rfl, rfl, ?_⟩
  have hperm := (List.perm_cons_erase (List.mem_of_find?_eq_some hfind)).map
    fun entry : ZdpOwed × ZdpStage => entry.1.param
  rw [Multiset.coe_eq_coe.mpr hperm, List.map_cons, ← Multiset.cons_coe,
    ← Multiset.singleton_add, add_comm]

theorem good_taken_iff
    {param : ℕ} {isStage : ZdpStage → Bool} {owed : ZdpOwed} {stage : ZdpStage}
    (htimed : run.server.Timed)
    (htake : run.take param isStage = some (rest, owed, stage))
    (hsame : run.server.SameBind server) (calls : List ZdpCall) :
    Good run 0 (rest.finish server [owed] calls room) ↔ rest.Closes [owed] calls room := by
  obtain ⟨-, -, -, -, hheld⟩ := bufs_of_take htake
  refine good_finish_iff ?_ (hsame.timed htimed)
  rw [bufs, hheld, hsame.waiting, add_zero]
  rfl

def ServesLeave (server : ZdpServer) (device : ZdpDevice) (owed : ZdpOwed)
    (room : ℕ → Bool) : Prop :=
  match server.findLeave owed.param with
  | none => owed.asker = none
  | some i =>
      room owed.param = true ∧ ((server.pendingList i).srcAddr = device.shortAddress →
          device.zdo.Knows (server.pendingList i).tsn) ∧
        ∀ asker, owed.asker = some asker → (server.pendingList i).srcAddr = asker.addr ∧
            (server.pendingList i).tsn = asker.tsn

theorem closes_leaveConfirm_iff
    (hrun : rest.unanswered = []) (owed : ZdpOwed) (status : UInt8)
    (willLeave : Bool) :
    rest.Closes [owed]
        (server.nlmeLeaveConfirm device owed.param status willLeave).2 room ↔
      ServesLeave server device owed room := by
  rw [ZdpServer.nlmeLeaveConfirm, ServesLeave]
  cases server.findLeave owed.param with
  | none =>
    refine (closes_single_iff hrun owed _).trans ?_
    cases willLeave with
    | false => exact cares_freeBuf_iff
    | true => exact cares_nwkDoLeave_iff
  | some i =>
    change rest.Closes [owed] (server.mgmtLeaveRsp device i owed.param status).2 room ↔ _
    unfold ZdpServer.mgmtLeaveRsp
    dsimp only
    split
    case isTrue hlocal =>
      split
      case isTrue hfound =>
        have hknows : device.zdo.Knows (server.pendingList i).tsn := by
          by_contra hknows
          rw [ZdoTransactions.zdoAfResp_of_not_knows hknows] at hfound
          contradiction
        refine (closes_single_iff hrun owed _).trans
          (cares_localResp_iff.trans (and_congr_right fun _ => ?_))
        exact (and_iff_right fun _ => hknows).symm
      case isFalse hfound =>
        refine iff_of_false (not_closes_nil owed) fun hserved => ?_
        obtain ⟨ent, hent, -⟩ := ZdoTransactions.zdoAfResp_of_knows (hserved.2.1 hlocal)
        rw [hent] at hfound
        exact hfound rfl
    case isFalse hremote =>
      refine (closes_single_iff hrun owed _).trans
        (cares_sendResp_iff.trans (and_congr_right fun _ => ?_))
      exact (and_iff_right fun hlocal => absurd hlocal hremote).symm

theorem closes_edScanConfirm_iff
    (hrun : rest.unanswered = []) (owed : ZdpOwed) (status : UInt8) :
    rest.Closes [owed] (server.nlmeEdScanConfirm owed.param status) room ↔
      (server.zdoEdScan = true ∨ server.channelManagerEdScan = true) ∧
        room owed.param = true := by
  rw [ZdpServer.nlmeEdScanConfirm]
  split
  case isTrue hscan =>
    rw [and_iff_right (.inl hscan)]
    exact closes_keep_iff hrun owed rfl (some_ne_none _)
  case isFalse hscan =>
    split
    case isTrue hmanager =>
      rw [and_iff_right (.inr hmanager)]
      exact closes_keep_iff hrun owed rfl (some_ne_none _)
    case isFalse hmanager =>
      exact iff_of_false (not_closes_nil owed) fun hserved => hserved.1.elim hscan hmanager

theorem closes_channelCheck_iff
    (hrun : rest.unanswered = []) (owed : ZdpOwed) (busy : Bool)
    (status : UInt8) :
    rest.Closes [owed] (server.channelCheckScanResult owed.param busy status).2 room ↔
      if busy then room owed.param = true else owed.asker = none := by
  unfold ZdpServer.channelCheckScanResult
  cases busy with
  | true =>
    simp only [↓reduceIte]
    refine (closes_edScanConfirm_iff hrun owed status).trans ?_
    exact and_iff_right (.inl rfl)
  | false => exact (closes_single_iff hrun owed _).trans cares_freeBuf_iff

def Allows (run : ZdpServerRun) : ZdpServerEvent → Prop
  | .dataIndication device ind room alarmRoom =>
      run.server.Serves device ind room alarmRoom
  | .leaveConfirm device param _ _ room =>
      ∀ rest owed stage, run.take param (· = .leaving) =
        some (rest, owed, stage) → ServesLeave run.server device owed room
  | .startEdScan param room => 0 < run.server.delayedScans → room param = true
  | .edScanConfirm param _ room =>
      ∀ rest owed stage, run.take param (· = .scanning) = some (rest, owed, stage) →
          (run.server.zdoEdScan = true ∨
            run.server.channelManagerEdScan = true) ∧ room param = true
  | .nwkUpdNotify param room =>
      ∀ rest owed notify, run.take param ZdpStage.isNotifying =
        some (rest, owed, .notifying notify) →
          room param = true ∧ ∀ asker, owed.asker = some asker →
            run.server.sendWithAck = false ∧ notify.dstAddr = asker.addr ∧
              notify.tsn = asker.tsn
  | .channelCheckScanResult param busy _ room =>
      ∀ rest owed stage, run.take param (· = .checking) = some (rest, owed, stage) →
          if busy then room param = true else owed.asker = none
  | .endDeviceBindTimer room =>
      ∀ ind, run.server.bindTimer = some ind → room ind.param = true
  | _ => True

theorem good_map_iff {param : ℕ} {isStage : ZdpStage → Bool} {condition : ZdpOwed → Prop}
    {result : ZdpServerRun × ZdpOwed × ZdpStage → ZdpServerRun × Multiset ℕ}
    (hresult : ∀ rest owed stage, run.take param isStage = some (rest, owed, stage) →
        (Good run 0 (result (rest, owed, stage)) ↔ condition owed)) :
    (∀ next, (run.take param isStage).map result = some next → Good run 0 next) ↔
      ∀ rest owed stage, run.take param isStage = some (rest, owed, stage) →
        condition owed := by
  constructor
  · intro hgood rest owed stage htake
    refine (hresult rest owed stage htake).mp (hgood _ ?_)
    rw [htake, map_some]
  · intro hcondition next hnext
    obtain ⟨⟨rest, owed, stage⟩, htake, rfl⟩ := map_eq_some_iff.mp hnext
    exact (hresult rest owed stage htake).mpr (hcondition rest owed stage htake)

theorem good_some_iff {issued : Multiset ℕ} {result : ZdpServerRun × Multiset ℕ} :
    (∀ next, some result = some next → Good run issued next) ↔
      Good run issued result :=
  ⟨fun hgood => hgood result rfl, fun hgood _ hnext => some.inj hnext ▸ hgood⟩

theorem good_of_sameBind (hrun : run.unanswered = []) (htimed : run.server.Timed)
    (hsame : run.server.SameBind server) :
    Good run 0 ({ run with server }, 0) := by
  refine ⟨?_, hrun, hsame.timed htimed⟩
  rw [bufs, bufs, hsame.waiting]

theorem good_step_iff (hrun : run.unanswered = []) (htimed : run.server.Timed)
    (hbound : run.server.Bound) :
    (∀ next, run.step event = some next → Good run event.issued next) ↔
      run.Allows event := by
  cases event with
  | dataIndication device ind room alarmRoom =>
    refine good_some_iff.trans ?_
    by_cases hbind : ind.clusterId = ZdpCluster.endDeviceBindReq
    · refine (good_indicate_iff_of_bind hrun htimed hbound hbind).trans ?_
      rw [Allows, ZdpServer.Serves, hbind]
      rfl
    · exact good_indicate_iff_of_ne hrun htimed hbind
  | leaveConfirm device param status willLeave room =>
    refine good_map_iff fun rest owed stage htake => ?_
    obtain ⟨rfl, -, hserver, hunanswered, -⟩ := bufs_of_take htake
    dsimp only
    rw [hserver]
    exact (good_taken_iff htimed htake
      (ZdpServer.sameBind_nlmeLeaveConfirm device _ status willLeave) _).trans
        (closes_leaveConfirm_iff (hunanswered.trans hrun) owed status willLeave)
  | leaveComplete param =>
    refine good_some_iff.trans (iff_of_true ?_ trivial)
    exact good_of_sameBind hrun htimed (ZdpServer.sameBind_tryMgmtLeaveComplete param)
  | startEdScan param room =>
    rw [Allows, step]
    by_cases hdelayed : 0 < run.server.delayedScans
    · have hkeep : run.Closes [⟨param, none⟩] [⟨param, .nlmeEdScanRequest⟩]
          room ↔ room param = true :=
        closes_keep_iff hrun ⟨param, none⟩ rfl (some_ne_none _)
      have hsame : run.server.SameBind ({ run.server with
          delayedScans := run.server.delayedScans - 1 }.startEdScan param).1 :=
        ⟨rfl, rfl, rfl⟩
      rw [if_pos hdelayed, forall_prop_of_true hdelayed]
      refine good_some_iff.trans ((good_finish_iff ?_ (hsame.timed htimed)).trans hkeep)
      rw [hsame.waiting, bufs, add_right_comm]
      rfl
    · rw [if_neg hdelayed]
      exact iff_of_true (fun next hnext => nomatch hnext) fun hpos => absurd hpos hdelayed
  | edScanConfirm param status room =>
    refine good_map_iff fun rest owed stage htake => ?_
    obtain ⟨rfl, -, hserver, hunanswered, -⟩ := bufs_of_take htake
    dsimp only
    rw [hserver]
    exact (good_taken_iff htimed htake (.refl _) _).trans
      (closes_edScanConfirm_iff (hunanswered.trans hrun) owed status)
  | nwkUpdNotify param room =>
    rw [Allows, step]
    cases htake : run.take param ZdpStage.isNotifying with
    | none =>
      exact iff_of_true (fun next hnext => nomatch hnext) fun _ _ _ hsome => nomatch hsome
    | some taken =>
      obtain ⟨rest, owed, stage⟩ := taken
      obtain ⟨rfl, hstage, hserver, hunanswered, -⟩ := bufs_of_take htake
      cases stage with
      | notifying notify =>
        dsimp only
        rw [hserver]
        have hsame : run.server.SameBind (run.server.nwkUpdNotify owed.param notify).1 :=
          ⟨rfl, rfl, rfl⟩
        refine good_some_iff.trans ((good_taken_iff htimed htake
          hsame _).trans ((closes_nwkUpdNotify_iff
            (hunanswered.trans hrun) run.server owed notify).trans ?_))
        constructor
        · rintro hserved other _ _ hother
          obtain ⟨rfl, rfl, hnotify⟩ := some.inj hother
          exact hserved
        · exact fun hall => hall rest owed notify rfl
      | leaving => contradiction
      | scanning => contradiction
      | checking => contradiction
  | channelCheckScanResult param busy status room =>
    refine good_map_iff fun rest owed stage htake => ?_
    obtain ⟨rfl, -, hserver, hunanswered, -⟩ := bufs_of_take htake
    dsimp only
    rw [hserver]
    exact (good_taken_iff htimed htake
      (ZdpServer.sameBind_channelCheckScanResult _ busy status) _).trans
        (closes_channelCheck_iff (hunanswered.trans hrun) owed busy status)
  | checkFails =>
    refine good_some_iff.trans (iff_of_true ?_ trivial)
    exact good_of_sameBind hrun htimed ⟨rfl, rfl, rfl⟩
  | zdoCtx nwkUpdReq =>
    refine good_some_iff.trans (iff_of_true ?_ trivial)
    exact good_of_sameBind hrun htimed ⟨rfl, rfl, rfl⟩
  | channelChangeTimer =>
    refine good_some_iff.trans (iff_of_true ?_ trivial)
    exact good_of_sameBind hrun htimed ⟨rfl, rfl, rfl⟩
  | endDeviceBindTimer room =>
    rw [Allows, step]
    cases htimer : run.server.bindTimer with
    | none =>
      exact iff_of_true (fun next hnext => nomatch hnext) fun ind hind => nomatch hind
    | some ind =>
      obtain ⟨hdev1, hdev2⟩ := hbound.timer ind htimer
      have hwaiting := waiting_of_first hdev1 hdev2
      have hresp := @closes_resp_iff run ind room hrun ZdpStatus.timeout
      refine good_some_iff.trans (Iff.trans ?_ (hresp.trans ?_))
      · dsimp only
        rw [hwaiting]
        refine good_finish_iff ?_ fun _ hfirst => nomatch hfirst
        rw [bufs, hwaiting]
        rfl
      · exact ⟨fun hroom other hother => some.inj hother ▸ hroom, fun hall => hall ind rfl⟩
  | endDeviceBindDone =>
    rw [step]
    split
    case isTrue hbusy =>
      have hdev2 := isSome_iff_ne_none.mp hbusy
      refine good_some_iff.trans (iff_of_true ⟨?_, hrun, ?_⟩ trivial)
      · rw [bufs, bufs, waiting_of_busy hdev2]
        rfl
      · intro ind hfirst
        contradiction
    case isFalse => exact iff_of_true (fun next hnext => nomatch hnext) trivial

theorem bound_endDeviceBindHandler (hbound : run.server.Bound) :
    (run.server.endDeviceBindHandler ind alarmRoom).1.Bound := by
  cases hendp : ind.frame.validEndp with
  | false =>
    rw [ZdpServer.endDeviceBindHandler, endDeviceBind_invalid hendp]
    exact hbound
  | true =>
    cases hdev1 : run.server.bindDev1 with
    | none =>
      have hdev2 : run.server.bindDev2 = none := by
        by_contra hbusy
        exact hbound.first hbusy hdev1
      rw [ZdpServer.endDeviceBindHandler, hdev1, map_none, endDeviceBind_waiting hendp]
      refine ⟨fun other hother => ⟨?_, hdev2⟩, fun hbusy => absurd hdev2 hbusy⟩
      change (if alarmRoom then some ind else run.server.bindTimer) = some other at hother
      split at hother
      case isTrue => exact hother
      case isFalse =>
        rw [(hbound.timer other hother).1] at hdev1
        contradiction
    | some first =>
      cases hdev2 : run.server.bindDev2 with
      | some other =>
        rw [ZdpServer.endDeviceBindHandler, hdev1, hdev2, map_some,
          isSome_some, endDeviceBind_timeout hendp]
        exact hbound
      | none =>
        rw [ZdpServer.endDeviceBindHandler, hdev1, hdev2, map_some, isSome_none]
        obtain hresult | hresult := @endDeviceBind_both first.frame ind.frame hendp
        · rw [hresult]
          exact ⟨fun _ hother => (nomatch hother), fun hbusy => absurd rfl hbusy⟩
        · rw [hresult]
          exact ⟨fun _ hother => (nomatch hother), fun _ => some_ne_none first⟩

theorem bound_of_taken {param : ℕ} {isStage : ZdpStage → Bool} {next : ZdpServerRun}
    {out : Multiset ℕ}
    {result : ZdpServerRun × ZdpOwed × ZdpStage → ZdpServerRun × Multiset ℕ}
    (hbound : run.server.Bound)
    (hsame : ∀ rest owed stage, rest.server = run.server →
      run.server.SameBind (result (rest, owed, stage)).1.server)
    (hstep : (run.take param isStage).map result = some (next, out)) :
    next.server.Bound := by
  obtain ⟨⟨rest, owed, stage⟩, htake, hresult⟩ := map_eq_some_iff.mp hstep
  obtain ⟨-, -, hserver, -, -⟩ := bufs_of_take htake
  have hbound := (hsame rest owed stage hserver).bound hbound
  rwa [hresult] at hbound

theorem bound_step {next : ZdpServerRun} {out : Multiset ℕ} (hbound : run.server.Bound)
    (hstep : run.step event = some (next, out)) : next.server.Bound := by
  cases event with
  | dataIndication device ind room alarmRoom =>
    obtain ⟨rfl, -⟩ := some_pair_inj hstep
    change (run.server.zdoDataIndication device ind alarmRoom).1.Bound
    by_cases hbind : ind.clusterId = ZdpCluster.endDeviceBindReq
    · rw [dataIndication_of_bind hbind]
      exact bound_endDeviceBindHandler hbound
    · exact (ZdpServer.sameBind_zdoDataIndication hbind).bound hbound
  | leaveConfirm device param status willLeave room =>
    refine bound_of_taken hbound (fun rest owed stage hserver => ?_) hstep
    rw [← hserver]
    exact ZdpServer.sameBind_nlmeLeaveConfirm device param status willLeave
  | leaveComplete param =>
    obtain ⟨rfl, -⟩ := some_pair_inj hstep
    exact (ZdpServer.sameBind_tryMgmtLeaveComplete param).bound hbound
  | startEdScan param room =>
    rw [step] at hstep
    split at hstep
    case isTrue =>
      obtain ⟨rfl, -⟩ := some_pair_inj hstep
      exact ⟨hbound.timer, hbound.first⟩
    case isFalse => contradiction
  | edScanConfirm param status room =>
    refine bound_of_taken hbound (fun rest owed stage hserver => ?_) hstep
    rw [← hserver]
    exact .refl rest.server
  | nwkUpdNotify param room =>
    rw [step] at hstep
    split at hstep
    case h_1 rest owed notify htake =>
      obtain ⟨-, -, hserver, -, -⟩ := bufs_of_take htake
      obtain ⟨rfl, -⟩ := some_pair_inj hstep
      rw [← hserver] at hbound
      exact ⟨hbound.timer, hbound.first⟩
    case h_2 => contradiction
  | channelCheckScanResult param busy status room =>
    refine bound_of_taken hbound (fun rest owed stage hserver => ?_) hstep
    rw [← hserver]
    exact ZdpServer.sameBind_channelCheckScanResult param busy status
  | checkFails =>
    obtain ⟨rfl, -⟩ := some_pair_inj hstep
    exact ⟨hbound.timer, hbound.first⟩
  | zdoCtx nwkUpdReq =>
    obtain ⟨rfl, -⟩ := some_pair_inj hstep
    exact ⟨hbound.timer, hbound.first⟩
  | channelChangeTimer =>
    obtain ⟨rfl, -⟩ := some_pair_inj hstep
    exact ⟨hbound.timer, hbound.first⟩
  | endDeviceBindTimer room =>
    obtain ⟨ind, -, hresult⟩ := map_eq_some_iff.mp hstep
    obtain ⟨rfl, -⟩ := Prod.mk.inj hresult
    exact ⟨fun _ hother => (nomatch hother), fun hbusy => absurd rfl hbusy⟩
  | endDeviceBindDone =>
    rw [step] at hstep
    split at hstep
    case isTrue hbusy =>
      obtain ⟨rfl, -⟩ := some_pair_inj hstep
      refine ⟨fun other hother => ?_, fun hbusy => absurd rfl hbusy⟩
      rw [(hbound.timer other hother).2] at hbusy
      contradiction
    case isFalse => contradiction

/-- Every buffer is with the server or was disposed of once, and every request
with a response waits for it or has it. -/
def Served (book : Ledger.Book ZdpServerRun ℕ) : Prop :=
  Ledger.Balanced bufs book ∧ book.state.unanswered = [] ∧ book.state.server.Timed

theorem served_step_iff {book : Ledger.Book ZdpServerRun ℕ} (hserved : Served book)
    (hbound : book.state.server.Bound) :
    (∀ next, Ledger.step step ZdpServerEvent.issued book event = some next →
        Served next) ↔ book.state.Allows event := by
  obtain ⟨hbalanced, hrun, htimed⟩ := hserved
  refine Iff.trans ?_ (good_step_iff hrun htimed hbound)
  have hmoves := @Ledger.balanced_step_iff _ _ _ step ZdpServerEvent.issued
    bufs book event hbalanced
  constructor
  · rintro hall ⟨next, out⟩ hstep
    have hmoved := hmoves.mp fun after hafter => (hall after hafter).1
    obtain ⟨-, hanswered, htimed⟩ :=
      hall _ (Ledger.step_eq_some.mpr ⟨next, out, hstep, rfl⟩)
    exact ⟨hmoved next out hstep, hanswered, htimed⟩
  · intro hgood after hafter
    refine ⟨hmoves.mpr (fun next out hstep => (hgood _ hstep).moved) after hafter, ?_⟩
    obtain ⟨next, out, hstep, rfl⟩ := Ledger.step_eq_some.mp hafter
    exact ⟨(hgood _ hstep).answered, (hgood _ hstep).timed⟩

def nodeDescReq : ZdpServerEvent :=
  .dataIndication
    { routerRole := true
      coordinatorRole := true
      deviceType := .coordinator
      joinedPro := false
      shortAddress := 0
      extendedAddress := List.replicate 8 1
      neighbors := []
      baseNeighborUsed := 0
      descs := ⟨[], Nat.zero_le _⟩
      stack := fun _ => 0
      serverMask := 0
      currentChannel := 11
      zdo := ZdpRun.start.ctx }
    { param := 1
      fc := 0
      srcAddr := 1
      clusterId := ZdpCluster.nodeDescReq
      frame := ⟨fun i => if i = 0 then 7 else 0, 0, 3, by decide⟩ }
    (fun _ => true) true

end ZdpServerRun

end Zboss
