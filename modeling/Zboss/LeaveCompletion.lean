import Zboss.DataConfirms

/-!
# Completing leaves

A device is to leave only for a leave of its own which was confirmed and
answered.  The entry of a pending leave is found by its buffer again, once for
the leave confirm and, if the device will leave, once for the confirm of the
response; whether a response is awaited at all is one flag for all entries.
-/

namespace Zboss

open Function Option ConfirmNode BufPhase ConfirmCall TransitionSystem

def BufPhase.entry : BufPhase → Option ℕ
  | .leaving entry _ => entry
  | .sent (.leaveResponse i) => some i
  | _ => none

def ConfirmEvent.requested : ConfirmEvent → Option ℕ
  | .sendDeviceAnnce param => some param
  | .sendNwkKeySwitch param => some param
  | .dataRequest param => some param
  | .mgmtLeaveSrv ind => some ind.param
  | .mgmtLeaveCli _ param _ _ => some param
  | .nlmeLeaveRequest param _ => some param
  | _ => none

namespace ConfirmRun

def pending (run : ConfirmRun) : ℕ → PendingLeave :=
  run.node.server.pendingList

def calls (run : ConfirmRun) : ConfirmEvent → List ConfirmCall
  | .nlmeLeaveConfirm device param status _ =>
      match run.phase param with
      | .leaving _ own => (run.node.zbNlmeLeaveConfirm device param status own).2
      | _ => []
  | .apsdeDataConfirm shortAddress param status room =>
      match run.phase param with
      | .sent _ => (run.node.zbApsdeDataConfirm shortAddress param status room).2
      | _ => []
  | _ => []

def LeaveDue (run : ConfirmRun) (event : ConfirmEvent) : Prop :=
  match event with
  | .nlmeLeaveConfirm _ param status _ =>
      ∃ entry, run.phase param = .leaving entry true ∧ status = 0 ∧
        (entry.isSome → .localLeaveResp param ∈ run.calls event)
  | .apsdeDataConfirm _ param _ _ => ∃ i, run.phase param = .sent (.leaveResponse i)
  | _ => False

def ChildLeft : ConfirmEvent → Prop
  | .nlmeLeaveConfirm _ _ status known => status = 0 ∧ known = true
  | _ => False

def Ends (run : ConfirmRun) (i : ℕ) : ConfirmEvent → Prop
  | .nlmeLeaveConfirm device param status _ =>
      ∃ own, run.phase param = .leaving (some i) own ∧
        ((run.pending i).srcAddr = device.shortAddress ∨ ¬(status = 0 ∧ own = true))
  | .apsdeDataConfirm _ param _ _ => run.phase param = .sent (.leaveResponse i)
  | _ => False

/-- The device leaves only if it is to, a neighbor is deleted only if it has
left, and a pending leave is released when it ends. -/
structure LeavesWell (run : ConfirmRun) (event : ConfirmEvent) : Prop where
  leaves : (run.calls event).any leaves → run.LeaveDue event
  neighbor : .neighborDelete ∈ run.calls event → ChildLeft event
  released : ∀ next, run.step event = some next → ∀ i,
    ((run.pending i).used = true ∧ (next.pending i).used = false ↔ run.Ends i event)

/-- A leave which nobody asked for over the air succeeds, for the device or a
neighbor.  The entry of a pending leave is in the part of the list which is
searched, and the callback of a request of this device is there exactly if it
will leave.  A response before a leave does not look like an announcement or a
key switch, and the last leave confirm for a pending leave was for a leave of
the device as well. -/
def LeavesWhen (run : ConfirmRun) : ConfirmEvent → Prop
  | .nlmeLeaveConfirm device param status known =>
      ∀ entry own, run.phase param = .leaving entry own → match entry with
        | none => status = 0 ∧ (own = true ∨ known = true)
        | some i =>
            i < run.node.server.pendingListSize ∧
              ((run.pending i).srcAddr = device.shortAddress →
                ((device.zdo.zdoAfResp (run.pending i).tsn).2.isSome ↔
                  status = 0 ∧ own = true))
  | .apsdeDataConfirm _ param _ _ =>
      ∀ i, run.phase param = .sent (.leaveResponse i) →
        (run.node.devAnnce ≠ param ∧ run.node.keySw ≠ param) ∧
          run.node.leaveAfterMgmtLeaveRspConf = true ∧
          i < run.node.server.pendingListSize
  | _ => True

def Tracked (run : ConfirmRun) : Prop :=
  ∀ i param, (run.pending i).used = true ∧ (run.pending i).bufRef = param ↔
    (run.phase param).entry = some i

variable {run next : ConfirmRun} {param i : ℕ}

theorem Tracked.findLeave_eq (htracked : run.Tracked) (param : ℕ) :
    run.node.server.findLeave param = (run.phase param).entry.filter fun i =>
        decide (i < run.node.server.pendingListSize) := by
  have hpred : (fun i => (run.pending i).used && decide ((run.pending i).bufRef = param)) =
        fun i => decide ((run.phase param).entry = some i) := by
    funext i
    rw [Bool.eq_iff_iff, Bool.and_eq_true, decide_eq_true_eq, decide_eq_true_eq]
    exact htracked i param
  rw [ZdpServer.findLeave]
  refine (congrArg (List.find? · _) hpred).trans ?_
  cases hentry : (run.phase param).entry with
  | none => simp
  | some j =>
    rw [Option.filter_some]
    split
    case isTrue hlt =>
      rw [List.find?_range_eq_some]
      simp only [decide_eq_true_eq, List.mem_range] at hlt ⊢
      refine ⟨trivial, hlt, fun k hk => ?_⟩
      simpa using (Nat.ne_of_lt hk).symm
    case isFalse hlt =>
      rw [List.find?_range_eq_none]
      simp only [decide_eq_true_eq] at hlt ⊢
      intro k hk
      have hne : j ≠ k := fun h => hlt (h ▸ hk)
      simpa using hne

section Steps

variable {phase : BufPhase}

theorem Tracked.move (htracked : run.Tracked) (hpending : next.pending = run.pending)
    (hphase : next.phase = update run.phase param phase)
    (hentry : phase.entry = (run.phase param).entry) : next.Tracked := by
  intro i other
  rw [hpending, htracked i other, hphase]
  by_cases hother : other = param
  case pos => rw [hother, update_self, hentry]
  case neg => rw [update_of_ne hother]

theorem Tracked.fill (htracked : run.Tracked) {tsn : UInt8} {srcAddr : ℕ}
    (hunused : (run.pending i).used = false)
    (hfree : (run.phase param).entry = none)
    (hpending : next.pending = update run.pending i ⟨true, param, tsn, srcAddr⟩)
    (hphase : next.phase = update run.phase param phase)
    (hentry : phase.entry = some i) : next.Tracked := by
  intro j other
  have hold := htracked j other
  rw [hpending, hphase]
  by_cases hj : j = i
  case pos =>
    subst j
    rw [update_self]
    by_cases hother : other = param
    case pos => simp [hother, hentry]
    case neg =>
      rw [update_of_ne hother, ← hold, hunused]
      simpa using Ne.symm hother
  case neg =>
    rw [update_of_ne hj]
    by_cases hother : other = param
    case pos =>
      subst other
      rw [update_self, hentry, hold, hfree]
      simpa using Ne.symm hj
    case neg => rw [update_of_ne hother, hold]

theorem Tracked.release (htracked : run.Tracked) (hhas : (run.phase param).entry = some i)
    (hused : (next.pending i).used = false)
    (hpending : ∀ j, j ≠ i → next.pending j = run.pending j)
    (hphase : next.phase = update run.phase param phase)
    (hentry : phase.entry = none) : next.Tracked := by
  intro j other
  have hold := htracked j other
  rw [hphase]
  by_cases hj : j = i
  case pos =>
    subst j
    by_cases hother : other = param
    case pos => simp [hother, hentry, hused]
    case neg =>
      rw [update_of_ne hother, ← hold, hused]
      have hparam := ((htracked i param).mpr hhas).2
      simpa [hparam] using fun _ => Ne.symm hother
  case neg =>
    rw [hpending j hj]
    by_cases hother : other = param
    case pos =>
      subst other
      rw [update_self, hentry, hold, hhas]
      simpa using Ne.symm hj
    case neg => rw [update_of_ne hother, hold]

end Steps

section Handlers

variable {node : ConfirmNode}

@[simp] theorem entry_leftIn (param : ℕ) (calls : List ConfirmCall) :
    (leftIn param calls).entry = none := by
  rw [leftIn]
  split <;> rfl

theorem releaseLeave_pendingList (server : ZdpServer) (i j : ℕ) :
    (server.releaseLeave i).pendingList j =
      if j = i then { server.pendingList i with used := false }
      else server.pendingList j := by
  rw [ZdpServer.releaseLeave]
  exact update_apply ..

theorem zbNlmeLeaveConfirm_entry (device : ZdpDevice) (status : UInt8) (own : Bool)
    (hfind : node.server.findLeave param = some i)
    (hused : (node.server.pendingList i).used = true) :
    let ent := node.server.pendingList i
    let found := (device.zdo.zdoAfResp ent.tsn).2.isSome
    let result := node.zbNlmeLeaveConfirm device param status own
    result.2 = (if ent.srcAddr = device.shortAddress then
          if found then [.localLeaveResp param, .doLeaveLocal] else []
        else [.sendLeaveResp param]) ∧
      ((result.1.server.pendingList i).used = false ↔
        (ent.srcAddr = device.shortAddress ∧ found) ∨ ¬(status = 0 ∧ own = true)) ∧
      ∀ j, (j = i → (result.1.server.pendingList i).used = true) →
        result.1.server.pendingList j = node.server.pendingList j := by
  dsimp only
  rw [ConfirmNode.zbNlmeLeaveConfirm, hfind]
  simp only [zdoTrySendMgmtLeaveRsp, ZdpServer.sendMgmtLeaveRsp,
    ZdpServer.mgmtLeaveRsp, ZdpServer.tryMgmtLeaveComplete, hfind]
  by_cases hlocal : (node.server.pendingList i).srcAddr = device.shortAddress
  case pos =>
    by_cases hfound :
        (device.zdo.zdoAfResp (node.server.pendingList i).tsn).2.isSome = true
    case pos =>
      by_cases hleave : status = 0 ∧ own = true <;>
        simp +contextual [hlocal, hfound, hleave, releaseLeave_pendingList]
    case neg =>
      by_cases hleave : status = 0 ∧ own = true <;>
        simp +contextual [hlocal, hfound, hleave, hused, releaseLeave_pendingList]
  case neg =>
    by_cases hleave : status = 0 ∧ own = true <;>
      simp +contextual [hlocal, hleave, hused, releaseLeave_pendingList]

theorem zbApsdeDataConfirm_entry (shortAddress : ℕ) (status : UInt8) (room : Bool)
    (hannce : node.devAnnce ≠ param) (hswitch : node.keySw ≠ param)
    (hflag : node.leaveAfterMgmtLeaveRspConf = true)
    (hfind : node.server.findLeave param = some i) :
    let result := node.zbApsdeDataConfirm shortAddress param status room
    .neighborDelete ∉ result.2 ∧ (result.1.server.pendingList i).used = false ∧
      ∀ j, j ≠ i → result.1.server.pendingList j = node.server.pendingList j := by
  dsimp only
  rw [zbApsdeDataConfirm, if_neg hannce, if_neg hswitch,
    if_pos hflag, zdoTryMgmtLeaveComplete, hfind]
  by_cases hlocal : (node.server.pendingList i).srcAddr = shortAddress <;>
    simp +contextual [hlocal, releaseLeave_pendingList, ConfirmNode.zbNwkDoLeave]

theorem zbApsdeDataConfirm_unrelated (shortAddress : ℕ) (status : UInt8) (room : Bool)
    (hother : (node.devAnnce = param ∨ node.keySw = param) ∨
      node.leaveAfterMgmtLeaveRspConf = false ∨ node.server.findLeave param = none) :
    let result := node.zbApsdeDataConfirm shortAddress param status room
    (∀ call ∈ result.2, call.leaves = false ∧ call ≠ .neighborDelete) ∧
      result.1.server.pendingList = node.server.pendingList := by
  dsimp only
  rw [zbApsdeDataConfirm]
  by_cases hannce : node.devAnnce = param
  case pos => cases hstarted : node.started <;> simp [hannce, leaves]
  case neg =>
    by_cases hswitch : node.keySw = param
    case pos => simp [hannce, hswitch, leaves]
    case neg =>
      have hnone : (if node.leaveAfterMgmtLeaveRspConf then
          node.zdoTryMgmtLeaveComplete shortAddress param else none) =
            none := by
        rcases hother with (h | h) | h | h
        · exact absurd h hannce
        · exact absurd h hswitch
        · simp [h]
        · simp [zdoTryMgmtLeaveComplete, h]
      rw [if_neg hannce, if_neg hswitch, hnone]
      by_cases hstatus : status = 0 ∨ status = retNoAck <;> simp [hstatus, leaves]

end Handlers

section Step

variable {device : ZdpDevice} {status : UInt8} {known own room : Bool}
  {entry : Option ℕ} {shortAddress : ℕ} {purpose : RequestPurpose}

theorem leavesWell_iff {event : ConfirmEvent} {result : ConfirmNode × List ConfirmCall}
    (hcalls : run.calls event = result.2)
    (hnext : run.step event = some next) (hnode : next.node = result.1) :
    run.LeavesWell event ↔ (result.2.any leaves → run.LeaveDue event) ∧
        (.neighborDelete ∈ result.2 → ChildLeft event) ∧
        ∀ j, ((run.pending j).used = true ∧ (result.1.server.pendingList j).used = false ↔
          run.Ends j event) := by
  constructor
  · rintro ⟨hleaves, hneighbor, hreleased⟩
    rw [hcalls] at hleaves hneighbor
    refine ⟨hleaves, hneighbor, ?_⟩
    rw [← hnode]
    exact hreleased next hnext
  · rintro ⟨hleaves, hneighbor, hreleased⟩
    rw [← hcalls] at hleaves hneighbor
    refine ⟨hleaves, hneighbor, ?_⟩
    intro other hother
    obtain rfl := some.inj (hnext.symm.trans hother)
    rw [← hnode] at hreleased
    exact hreleased

theorem step_leaveConfirm (hphase : run.phase param = .leaving entry own) :
    let result := run.node.zbNlmeLeaveConfirm device param status own
    ∃ next, run.step (.nlmeLeaveConfirm device param status known) = some next ∧
      next.node = result.1 ∧
      next.phase = update run.phase param
        (afterLeaveConfirm entry (decide (status = 0) && own) param result.2) := by
  simp only [step, hphase]
  exact ⟨_, rfl, rfl, rfl⟩

theorem step_dataConfirm (hphase : run.phase param = .sent purpose) :
    let result := run.node.zbApsdeDataConfirm shortAddress param status room
    ∃ next, run.step (.apsdeDataConfirm shortAddress param status room) = some next ∧
      next.node = result.1 ∧
      next.phase = update run.phase param (leftIn param result.2) := by
  simp only [step, hphase]
  exact ⟨_, rfl, rfl, rfl⟩

theorem leavesWell_leaveConfirm_iff (hphase : run.phase param = .leaving entry own) :
    run.LeavesWell (.nlmeLeaveConfirm device param status known) ↔
      let result := run.node.zbNlmeLeaveConfirm device param status own
      (result.2.any leaves → own = true ∧ status = 0 ∧
          (entry.isSome → .localLeaveResp param ∈ result.2)) ∧
        (.neighborDelete ∈ result.2 → status = 0 ∧ known = true) ∧
        ∀ j, ((run.pending j).used = true ∧ (result.1.server.pendingList j).used = false ↔
          entry = some j ∧ ((run.pending j).srcAddr = device.shortAddress ∨
              ¬(status = 0 ∧ own = true))) := by
  have hcalls : run.calls (.nlmeLeaveConfirm device param status known) =
      (run.node.zbNlmeLeaveConfirm device param status own).2 := by
    simp only [calls, hphase]
  have hdue : run.LeaveDue (.nlmeLeaveConfirm device param status known) ↔
      own = true ∧ status = 0 ∧ (entry.isSome → .localLeaveResp param ∈
        (run.node.zbNlmeLeaveConfirm device param status own).2) := by
    simp only [LeaveDue, hcalls, hphase, leaving.injEq]
    constructor
    · rintro ⟨_, ⟨rfl, rfl⟩, hrest⟩
      exact ⟨rfl, hrest⟩
    · rintro ⟨rfl, hrest⟩
      exact ⟨entry, ⟨rfl, rfl⟩, hrest⟩
  have hends : ∀ j, run.Ends j (.nlmeLeaveConfirm device param status known) ↔
      entry = some j ∧ ((run.pending j).srcAddr = device.shortAddress ∨
        ¬(status = 0 ∧ own = true)) := by
    intro j
    simp only [Ends, hphase, leaving.injEq]
    constructor
    · rintro ⟨_, ⟨rfl, rfl⟩, hrest⟩
      exact ⟨rfl, hrest⟩
    · rintro ⟨rfl, hrest⟩
      exact ⟨own, ⟨rfl, rfl⟩, hrest⟩
  simp only [← hdue, ← hends]
  obtain ⟨next, hnext, hnode, -⟩ := step_leaveConfirm hphase
  exact leavesWell_iff hcalls hnext hnode

theorem leavesWell_dataConfirm_iff (hphase : run.phase param = .sent purpose) :
    run.LeavesWell (.apsdeDataConfirm shortAddress param status room) ↔
      let result := run.node.zbApsdeDataConfirm shortAddress param status room
      (result.2.any leaves → ∃ i, purpose = .leaveResponse i) ∧
        .neighborDelete ∉ result.2 ∧
        ∀ j, ((run.pending j).used = true ∧ (result.1.server.pendingList j).used = false ↔
          purpose = .leaveResponse j) := by
  have hcalls : run.calls (.apsdeDataConfirm shortAddress param status room) =
      (run.node.zbApsdeDataConfirm shortAddress param status room).2 := by
    simp only [calls, hphase]
  have hpurpose : ∀ j, run.phase param = .sent (.leaveResponse j) ↔
      purpose = .leaveResponse j := by
    intro j
    rw [hphase, sent.injEq]
  simp only [← hpurpose]
  obtain ⟨next, hnext, hnode, -⟩ := step_dataConfirm hphase
  refine (leavesWell_iff hcalls hnext hnode).trans ?_
  simp only [LeaveDue, ChildLeft, Ends, imp_false]

section

variable (htracked : run.Tracked)

include htracked

theorem Tracked.leavesWell_direct (hphase : run.phase param = .leaving none own) :
    run.LeavesWell (.nlmeLeaveConfirm device param status known) ↔
      status = 0 ∧ (own = true ∨ known = true) := by
  have hfind : run.node.server.findLeave param = none := by
    rw [htracked.findLeave_eq, hphase]
    rfl
  rw [leavesWell_leaveConfirm_iff hphase, ConfirmNode.zbNlmeLeaveConfirm, hfind]
  by_cases hleave : status = 0 ∧ own = true
  case pos => simp [hleave, leaves, ConfirmNode.zbNwkDoLeave, pending]
  case neg =>
    simp [hleave, leaves, pending]
    grind

theorem Tracked.find_entry (hentry : (run.phase param).entry = some i) :
    run.node.server.findLeave param =
      if i < run.node.server.pendingListSize then some i else none := by
  rw [htracked.findLeave_eq, hentry, Option.filter_some]
  simp only [decide_eq_true_eq]

theorem Tracked.leavesWell_entry (hphase : run.phase param = .leaving (some i) own) :
    run.LeavesWell (.nlmeLeaveConfirm device param status known) ↔
      i < run.node.server.pendingListSize ∧
        ((run.pending i).srcAddr = device.shortAddress →
          ((device.zdo.zdoAfResp (run.pending i).tsn).2.isSome ↔
            status = 0 ∧ own = true)) := by
  have hentry : (run.phase param).entry = some i := by rw [hphase]; rfl
  have hused := ((htracked i param).mpr hentry).1
  have hfind := htracked.find_entry hentry
  rw [leavesWell_leaveConfirm_iff hphase]
  by_cases hlt : i < run.node.server.pendingListSize
  case neg =>
    rw [if_neg hlt] at hfind
    rw [ConfirmNode.zbNlmeLeaveConfirm, hfind]
    refine iff_of_false ?_ fun h => hlt h.1
    rintro ⟨hleaves, -, hreleased⟩
    by_cases hleave : status = 0 ∧ own = true
    case pos => simp [hleave, leaves] at hleaves
    case neg =>
      have hend := (hreleased i).mpr ⟨rfl, .inr hleave⟩
      simp [hleave, pending] at hend
  case pos =>
    rw [if_pos hlt] at hfind
    obtain ⟨hcalls, hreleased, hothers⟩ :=
      zbNlmeLeaveConfirm_entry device status own hfind hused
    have hends : (∀ j, ((run.pending j).used = true ∧
        ((run.node.zbNlmeLeaveConfirm device param status
          own).1.server.pendingList j).used = false ↔
        some i = some j ∧ ((run.pending j).srcAddr = device.shortAddress ∨
            ¬(status = 0 ∧ own = true)))) ↔
        ((run.pending i).srcAddr = device.shortAddress → status = 0 ∧ own = true →
            (device.zdo.zdoAfResp (run.pending i).tsn).2.isSome) := by
      constructor
      · intro hall hlocal hleave
        have hreleases := ((hall i).mpr ⟨rfl, .inl hlocal⟩).2
        rcases hreleased.mp hreleases with ⟨-, hfound⟩ | hstays
        · exact hfound
        · exact absurd hleave hstays
      · intro hfound j
        by_cases hj : j = i
        case neg =>
          refine iff_of_false ?_ fun h => hj (some.inj h.1).symm
          rintro ⟨husing, hunused⟩
          rw [hothers j fun h => absurd h hj] at hunused
          exact absurd (husing.symm.trans hunused) nofun
        case pos =>
          subst j
          rw [and_iff_right hused, and_iff_right rfl]
          refine hreleased.trans ?_
          change ((run.pending i).srcAddr = device.shortAddress ∧
            (device.zdo.zdoAfResp (run.pending i).tsn).2.isSome) ∨ _ ↔ _
          grind
    dsimp only
    rw [hcalls, hends, and_iff_right hlt]
    simp only [pending]
    by_cases hlocal : (run.node.server.pendingList i).srcAddr = device.shortAddress
    case pos =>
      by_cases hfound : (device.zdo.zdoAfResp
          (run.node.server.pendingList i).tsn).2.isSome = true
      case pos => simp [hlocal, hfound, leaves, and_comm]
      case neg => simp [hlocal, hfound]
    case neg => simp [hlocal, leaves]

theorem Tracked.leavesWell_response (hphase : run.phase param = .sent (.leaveResponse i)) :
    run.LeavesWell (.apsdeDataConfirm shortAddress param status room) ↔
      (run.node.devAnnce ≠ param ∧ run.node.keySw ≠ param) ∧
        run.node.leaveAfterMgmtLeaveRspConf = true ∧
        i < run.node.server.pendingListSize := by
  have hentry : (run.phase param).entry = some i := by rw [hphase]; rfl
  have hused := ((htracked i param).mpr hentry).1
  have hfind := htracked.find_entry hentry
  rw [leavesWell_dataConfirm_iff hphase]
  by_cases hcond : (run.node.devAnnce ≠ param ∧ run.node.keySw ≠ param) ∧
      run.node.leaveAfterMgmtLeaveRspConf = true ∧
      i < run.node.server.pendingListSize
  case pos =>
    obtain ⟨⟨hannce, hswitch⟩, hflag, hlt⟩ := hcond
    rw [if_pos hlt] at hfind
    obtain ⟨hneighbor, hreleased, hothers⟩ := zbApsdeDataConfirm_entry
      shortAddress status room hannce hswitch hflag hfind
    refine iff_of_true ⟨fun _ => ⟨i, rfl⟩, hneighbor, fun j => ?_⟩
      ⟨⟨hannce, hswitch⟩, hflag, hlt⟩
    by_cases hj : j = i
    case pos =>
      subst j
      exact iff_of_true ⟨hused, hreleased⟩ rfl
    case neg =>
      rw [hothers j hj]
      refine iff_of_false ?_ fun h => hj (RequestPurpose.leaveResponse.inj h).symm
      rintro ⟨husing, hunused⟩
      exact absurd (husing.symm.trans hunused) nofun
  case neg =>
    refine iff_of_false ?_ hcond
    rintro ⟨-, -, hreleased⟩
    have hother : (run.node.devAnnce = param ∨ run.node.keySw = param) ∨
        run.node.leaveAfterMgmtLeaveRspConf = false ∨
          run.node.server.findLeave param = none := by
      by_cases hlt : i < run.node.server.pendingListSize
      · have hflag := run.node.leaveAfterMgmtLeaveRspConf.eq_false_or_eq_true
        grind
      · exact .inr (.inr (hfind.trans (if_neg hlt)))
    have hunrelated := zbApsdeDataConfirm_unrelated shortAddress status room hother
    have hunused := ((hreleased i).mpr rfl).2
    rw [hunrelated.2] at hunused
    exact absurd (hused.symm.trans hunused) nofun

theorem Tracked.leavesWell_unrelated (hphase : run.phase param = .sent purpose)
    (hpurpose : ∀ i, purpose ≠ .leaveResponse i) :
    run.LeavesWell (.apsdeDataConfirm shortAddress param status room) := by
  have hentry : (run.phase param).entry = none := by
    rw [hphase]
    cases purpose with
    | leaveResponse i => exact absurd rfl (hpurpose i)
    | _ => rfl
  have hfind : run.node.server.findLeave param = none := by
    rw [htracked.findLeave_eq, hentry]
    rfl
  obtain ⟨hcalls, hpending⟩ := zbApsdeDataConfirm_unrelated
    shortAddress status room (.inr (.inr hfind))
  rw [leavesWell_dataConfirm_iff hphase]
  refine ⟨fun hleaves => ?_, fun hmem => (hcalls _ hmem).2 rfl, fun j => ?_⟩
  · obtain ⟨call, hmem, hleave⟩ := List.any_eq_true.mp hleaves
    rw [(hcalls call hmem).1] at hleave
    cases hleave
  · rw [hpending]
    refine iff_of_false ?_ (hpurpose j)
    rintro ⟨husing, hunused⟩
    exact absurd (husing.symm.trans hunused) nofun

end

end Step

section Requests

def Takes (run next : ConfirmRun) (param : ℕ) : Prop :=
  run.phase param = .free ∧ ∃ phase, next.phase = update run.phase param phase ∧
      ((phase.entry = none ∧ next.pending = run.pending) ∨
        ∃ i tsn srcAddr, phase.entry = some i ∧ (run.pending i).used = false ∧
          next.pending = update run.pending i ⟨true, param, tsn, srcAddr⟩)

theorem Takes.tracked (htakes : run.Takes next param)
    (htracked : run.Tracked) : next.Tracked := by
  obtain ⟨hfree, phase, hphase, hpending⟩ := htakes
  have hentry : (run.phase param).entry = none := by
    rw [hfree]
    rfl
  rcases hpending with ⟨hnone, hpending⟩ | ⟨i, tsn, srcAddr, hsome, hunused, hpending⟩
  · exact htracked.move hpending hphase (hnone.trans hentry.symm)
  · exact htracked.fill hunused hentry hpending hphase hsome

theorem Takes.keeps (htakes : run.Takes next param)
    (hused : (run.pending i).used = true) : (next.pending i).used = true := by
  obtain ⟨-, phase, -, hpending⟩ := htakes
  rcases hpending with ⟨-, hpending⟩ | ⟨j, tsn, srcAddr, -, -, hpending⟩
  · rw [hpending, hused]
  · rw [hpending, update_apply]
    split
    · rfl
    · exact hused

theorem Takes.unlisted {phase : BufPhase} {taken : ConfirmRun}
    (hstep : (if run.phase param = .free then some taken else none) = some next)
    (hphase : taken.phase = update run.phase param phase)
    (hentry : phase.entry = none) (hpending : taken.pending = run.pending) :
    run.Takes next param := by
  obtain ⟨hfree, hnext⟩ := ite_none_right_eq_some.mp hstep
  obtain rfl := some.inj hnext
  exact ⟨hfree, phase, hphase, .inl ⟨hentry, hpending⟩⟩

theorem takes_of_step {event : ConfirmEvent} (hrequested : event.requested = some param)
    (hstep : run.step event = some next) : run.Takes next param := by
  cases event with
  | sendDeviceAnnce =>
    obtain rfl := some.inj hrequested
    exact .unlisted hstep rfl rfl rfl
  | sendNwkKeySwitch =>
    obtain rfl := some.inj hrequested
    exact .unlisted hstep rfl rfl rfl
  | dataRequest =>
    obtain rfl := some.inj hrequested
    exact .unlisted hstep rfl rfl rfl
  | nlmeLeaveRequest =>
    obtain rfl := some.inj hrequested
    exact .unlisted hstep rfl rfl rfl
  | mgmtLeaveSrv ind =>
    obtain rfl := some.inj hrequested
    obtain ⟨hfree, hnext⟩ := ite_none_right_eq_some.mp hstep
    obtain rfl := some.inj hnext
    refine ⟨hfree, _, rfl, ?_⟩
    cases hfind : (List.range zdoPendingLeaveSize).find? fun i =>
        !(run.node.server.pendingList i).used with
    | none =>
      refine .inl ?_
      simp [pending, entry]
    | some i =>
      have hunused := List.find?_some hfind
      refine .inr ⟨i, ind.tsn, ind.srcAddr, ?_⟩
      simpa [pending, ZdpServer.mgmtLeaveSrv, hfind, entry] using hunused
  | mgmtLeaveCli shortAddress _ tsn own =>
    obtain rfl := some.inj hrequested
    obtain ⟨hfree, hnext⟩ := ite_none_right_eq_some.mp hstep
    obtain rfl := some.inj hnext
    refine ⟨hfree, _, rfl, ?_⟩
    cases hfind : (List.range zdoPendingLeaveSize).find? fun i =>
        !(run.node.server.pendingList i).used with
    | none =>
      refine .inl ?_
      simp [pending, entry]
    | some i =>
      have hunused := List.find?_some hfind
      refine .inr ⟨i, tsn, shortAddress, ?_⟩
      simpa [pending, zdoMgmtLeaveCli, hfind, entry] using hunused
  | nlmeLeaveConfirm => cases hrequested
  | apsdeDataConfirm => cases hrequested
  | doLeaveLocal => cases hrequested

end Requests

section Runs

variable {event : ConfirmEvent}

theorem leavesWell_of_keeps (hcalls : run.calls event = [])
    (hends : ∀ i, ¬run.Ends i event)
    (hkeeps : ∀ next, run.step event = some next → ∀ i,
      (run.pending i).used = true → (next.pending i).used = true) :
    run.LeavesWell event where
  leaves hleaves := by
    rw [hcalls] at hleaves
    cases hleaves
  neighbor hneighbor := by
    rw [hcalls] at hneighbor
    cases hneighbor
  released next hnext i := by
    refine iff_of_false ?_ (hends i)
    rintro ⟨husing, hunused⟩
    have hused := hkeeps next hnext i husing
    exact absurd (hused.symm.trans hunused) nofun

theorem leavesWell_of_requested (hrequested : event.requested = some param) :
    run.LeavesWell event := by
  apply leavesWell_of_keeps
  case hcalls => cases event <;> first | rfl | cases hrequested
  case hends => cases event <;> first | exact fun _ h => h | cases hrequested
  case hkeeps =>
    intro next hnext i hused
    exact (takes_of_step hrequested hnext).keeps hused

theorem Tracked.leavesWell_iff (htracked : run.Tracked) :
    run.LeavesWell event ↔ run.LeavesWhen event := by
  cases event with
  | nlmeLeaveConfirm device param status known =>
    cases hphase : run.phase param with
    | leaving entry own =>
      rw [LeavesWhen]
      simp only [hphase, leaving.injEq, and_imp, forall_apply_eq_imp_iff, forall_eq']
      cases entry with
      | none => exact htracked.leavesWell_direct hphase
      | some i => exact htracked.leavesWell_entry hphase
    | _ =>
      refine iff_of_true (leavesWell_of_keeps ?_ ?_ ?_) ?_ <;>
        simp [calls, Ends, step, LeavesWhen, hphase]
  | apsdeDataConfirm shortAddress param status room =>
    cases hphase : run.phase param with
    | sent purpose =>
      rw [LeavesWhen]
      simp only [hphase, sent.injEq]
      cases purpose with
      | leaveResponse i =>
        simp only [RequestPurpose.leaveResponse.injEq, forall_eq']
        exact htracked.leavesWell_response hphase
      | _ =>
        exact iff_of_true (htracked.leavesWell_unrelated hphase (by simp))
          (by simp)
    | _ =>
      refine iff_of_true (leavesWell_of_keeps ?_ ?_ ?_) ?_ <;>
        simp [calls, Ends, step, LeavesWhen, hphase]
  | doLeaveLocal =>
    refine iff_of_true (leavesWell_of_keeps rfl (fun _ => id) ?_) trivial
    intro next hnext i hused
    obtain ⟨-, hnext⟩ := ite_none_right_eq_some.mp hnext
    obtain rfl := some.inj hnext
    exact hused
  | _ => exact iff_of_true (leavesWell_of_requested rfl) trivial

theorem entry_afterLeaveConfirm_none
    (willLeave : Bool) (param : ℕ) (calls : List ConfirmCall) :
    (afterLeaveConfirm none willLeave param calls).entry = none := by
  rw [afterLeaveConfirm]
  split
  · rfl
  · exact entry_leftIn ..

theorem entry_afterLeaveConfirm_some
    (i : ℕ) (willLeave : Bool) (param : ℕ) (calls : List ConfirmCall) :
    (afterLeaveConfirm (some i) willLeave param calls).entry =
      if .sendLeaveResp param ∈ calls ∧ willLeave = true then some i
      else none := by
  rw [afterLeaveConfirm]
  by_cases hsend : .sendLeaveResp param ∈ calls
  · cases willLeave <;> simp [hsend, entry]
  · simp [hsend]

theorem Tracked.afterLeaveConfirm (htracked : run.Tracked)
    {device : ZdpDevice} {status : UInt8} {known : Bool}
    (hwhen : run.LeavesWhen (.nlmeLeaveConfirm device param status known))
    (hstep : run.step (.nlmeLeaveConfirm device param status known) =
      some next) : next.Tracked := by
  cases hleaving : run.phase param with
  | leaving entry own =>
    obtain ⟨other, hother, hnode, hphase⟩ := step_leaveConfirm hleaving
    obtain rfl := some.inj (hother.symm.trans hstep)
    have hpending : other.pending = (run.node.zbNlmeLeaveConfirm device param
        status own).1.server.pendingList := by rw [← hnode]; rfl
    have hcond := hwhen entry own hleaving
    cases entry with
    | none =>
      have hfind : run.node.server.findLeave param = none := by
        rw [htracked.findLeave_eq, hleaving]
        rfl
      refine htracked.move ?_ hphase ?_
      · rw [hpending, ConfirmNode.zbNlmeLeaveConfirm, hfind]
        by_cases hleave : status = 0 ∧ own = true <;>
          simp [hleave, ConfirmNode.zbNwkDoLeave, pending]
      · rw [entry_afterLeaveConfirm_none, hleaving]
        rfl
    | some i =>
      have hentry : (run.phase param).entry = some i := by
        rw [hleaving]
        rfl
      have hused := ((htracked i param).mpr hentry).1
      have hfind := (htracked.find_entry hentry).trans (if_pos hcond.1)
      obtain ⟨hcalls, hreleased, hothers⟩ :=
        zbNlmeLeaveConfirm_entry device status own hfind hused
      have hsend : .sendLeaveResp param ∈ (run.node.zbNlmeLeaveConfirm
          device param status own).2 ↔
          (run.pending i).srcAddr ≠ device.shortAddress := by
        rw [hcalls, pending]
        split
        case isTrue hlocal => split <;> simp [hlocal]
        case isFalse hremote => simpa using hremote
      have hends : (other.pending i).used = false ↔
          run.Ends i (.nlmeLeaveConfirm device param status known) := by
        rw [← (htracked.leavesWell_iff.mpr hwhen).released other hother i]
        exact (and_iff_right hused).symm
      have hover : run.Ends i (.nlmeLeaveConfirm device param status known) ↔
          ¬(.sendLeaveResp param ∈ (run.node.zbNlmeLeaveConfirm device
            param status own).2 ∧ (decide (status = 0) && own) = true) := by
        rw [hsend, Ends]
        simp only [hleaving, leaving.injEq, true_and,
          exists_eq_left', Bool.and_eq_true, decide_eq_true_eq]
        grind
      have hafter := entry_afterLeaveConfirm_some i (decide (status = 0) && own) param
        (run.node.zbNlmeLeaveConfirm device param status own).2
      rw [← hpending] at hothers
      by_cases hunused : (other.pending i).used = false
      case pos =>
        rw [if_neg (hover.mp (hends.mp hunused))] at hafter
        exact htracked.release hentry hunused
          (fun j hj => hothers j fun h => absurd h hj) hphase hafter
      case neg =>
        rw [if_pos (not_not.mp fun h => hunused (hends.mpr (hover.mpr h)))] at hafter
        refine htracked.move (funext fun j => hothers j fun _ => ?_) hphase
          (hafter.trans hentry.symm)
        exact Bool.eq_true_of_not_eq_false hunused
  | _ => simp [step, hleaving] at hstep

theorem Tracked.afterDataConfirm (htracked : run.Tracked)
    {shortAddress : ℕ} {status : UInt8} {room : Bool}
    (hwhen : run.LeavesWhen (.apsdeDataConfirm shortAddress param status room))
    (hstep : run.step (.apsdeDataConfirm shortAddress param status room) =
      some next) : next.Tracked := by
  cases hsent : run.phase param with
  | sent purpose =>
    obtain ⟨other, hother, hnode, hphase⟩ := step_dataConfirm hsent
    obtain rfl := some.inj (hother.symm.trans hstep)
    have hpending : other.pending = (run.node.zbApsdeDataConfirm shortAddress
        param status room).1.server.pendingList := by rw [← hnode]; rfl
    cases hentry : (run.phase param).entry with
    | some i =>
      have hpurpose : purpose = .leaveResponse i := by
        rw [hsent] at hentry
        cases purpose <;> cases hentry
        rfl
      obtain ⟨⟨hannce, hswitch⟩, hflag, hlt⟩ := hwhen i (hpurpose ▸ hsent)
      have hfind := (htracked.find_entry hentry).trans (if_pos hlt)
      obtain ⟨-, hreleased, hothers⟩ := zbApsdeDataConfirm_entry
        shortAddress status room hannce hswitch hflag hfind
      rw [← hpending] at hreleased hothers
      exact htracked.release hentry hreleased hothers hphase (entry_leftIn ..)
    | none =>
      have hfind : run.node.server.findLeave param = none := by
        rw [htracked.findLeave_eq, hentry]
        rfl
      have hsame := (zbApsdeDataConfirm_unrelated shortAddress status room
        (.inr (.inr hfind))).2
      exact htracked.move (hpending.trans hsame) hphase
        ((entry_leftIn ..).trans hentry.symm)
  | _ => simp [step, hsent] at hstep

theorem tracked_step (htracked : run.Tracked) (hwhen : run.LeavesWhen event)
    (hstep : run.step event = some next) : next.Tracked := by
  cases event with
  | nlmeLeaveConfirm device param status known =>
    exact htracked.afterLeaveConfirm hwhen hstep
  | apsdeDataConfirm shortAddress param status room =>
    exact htracked.afterDataConfirm hwhen hstep
  | doLeaveLocal =>
    obtain ⟨-, hnext⟩ := ite_none_right_eq_some.mp hstep
    obtain rfl := some.inj hnext
    exact htracked
  | _ => exact (takes_of_step rfl hstep).tracked htracked

theorem tracked_start : (start ZdpServerRun.start.server).Tracked := by
  intro i param
  exact iff_of_false (fun h => absurd h.1 nofun) nofun

/-- In every run the leaves are handled well exactly as long as `LeavesWhen`
holds. -/
theorem leaves_well_iff (events : List ConfirmEvent) :
    AlongRun step LeavesWell (start ZdpServerRun.start.server) events ↔
      AlongRun step LeavesWhen (start ZdpServerRun.start.server) events :=
  alongRun_congr (fun _ _ htracked => htracked.leavesWell_iff)
    (fun _ _ _ htracked hwhen hstep => tracked_step htracked hwhen hstep)
    tracked_start

def leaveRequester : ZdpDevice where
  routerRole := true
  coordinatorRole := true
  deviceType := .coordinator
  joinedPro := false
  shortAddress := 0
  extendedAddress := List.replicate 8 1
  neighbors := []
  baseNeighborUsed := 0
  descs := ⟨[], Nat.zero_le _⟩
  stack := fun _ => 0
  serverMask := 0
  currentChannel := 11
  zdo := ZdpRun.start.ctx.registerZdoCb 7 (some 1) 1 0

/-- A leave of a child, requested by the coordinator, fails, and the coordinator
leaves. -/
theorem not_leavesWell_childOfCoordinator :
    ¬AlongRun step LeavesWell (start ZdpServerRun.start.server) [.mgmtLeaveCli 0 1 7 false,
        .nlmeLeaveConfirm leaveRequester 1 1 true] := by
  intro hall
  have hwell := (hall.2 _ rfl).1
  have hdue := hwell.leaves (by decide)
  obtain ⟨entry, hphase, -⟩ := hdue
  cases hphase

end Runs

end ConfirmRun

end Zboss
