import Zboss.DataConfirms

/-!
# Telling data confirms apart

A confirm is taken for that of the last announcement or key switch by the number
of its buffer.  Where none is awaited, the confirm of buffer 0 is taken for one,
and with two of them on the way only the last one is known.
-/

namespace Zboss

open Function Option ConfirmCall ConfirmNode TransitionSystem

namespace ConfirmRun

/-- The confirm of an announcement and that of a key switch are taken for
what they are, and no other confirm is. -/
def Told (run : ConfirmRun) : ConfirmEvent → Prop
  | .apsdeDataConfirm _ param _ _ =>
      ∀ purpose, run.phase param = .sent purpose →
        (run.node.devAnnce = param ↔ purpose = .announcement) ∧
        (run.node.devAnnce ≠ param ∧ run.node.keySw = param ↔ purpose = .keySwitch)
  | _ => True

/-- Besides, an announcement ends with a completed start-up, a key switch with a
new key, nothing else does, and the buffer is given away once. -/
def Handled (run : ConfirmRun) (event : ConfirmEvent) : Prop :=
  run.Told event ∧ match event with
    | .apsdeDataConfirm shortAddress param status room =>
        ∀ purpose, run.phase param = .sent purpose →
          let calls := (run.node.zbApsdeDataConfirm shortAddress param status room).2
          calls.count (.startupComplete param) =
              (if purpose = .announcement then 1 else 0) ∧
            calls.count .nwkKeySwitch = (if purpose = .keySwitch then 1 else 0) ∧
            calls.countP (disposes param) = 1
    | _ => True

def LooksLike (ref : Option ℕ) (param : ℕ) : Prop :=
  ref = some param ∨ (ref = none ∧ param = 0)

/-- The announcement is the last one, or none is awaited and it has buffer 0; a
key switch as well, unless it looks like an announcement; anything else has not
buffer 0 if one of them is not awaited. -/
def ToldWhen (run : ConfirmRun) : ConfirmEvent → Prop
  | .apsdeDataConfirm _ param _ _ =>
      ∀ purpose, run.phase param = .sent purpose → match purpose with
        | .announcement => LooksLike run.annce param
        | .keySwitch => LooksLike run.switch param ∧ ¬(run.annce = none ∧ param = 0)
        | _ => param = 0 → run.annce ≠ none ∧ run.switch ≠ none
  | _ => True

/-- Besides, the start-up has not been completed before, there is no key
switch, a leave which is completed here was not requested here, and the callback
queue takes the callbacks. -/
def HandledWhen (run : ConfirmRun) (event : ConfirmEvent) : Prop :=
  run.ToldWhen event ∧ match event with
    | .apsdeDataConfirm shortAddress param status room =>
        ∀ purpose, run.phase param = .sent purpose → match purpose with
          | .announcement => run.node.started = false ∧ room = true
          | .keySwitch => False
          | _ =>
              match (if run.node.leaveAfterMgmtLeaveRspConf then
                  run.node.server.findLeave param else none) with
              | some i => (run.node.server.pendingList i).srcAddr ≠ shortAddress
              | none => status = 0 ∨ status = retNoAck → room = true
    | _ => True

structure RefsSound (run : ConfirmRun) : Prop where
  devAnnce : run.node.devAnnce = run.annce.getD 0
  keySw : run.node.keySw = run.switch.getD 0
  annce : ∀ param ∈ run.annce, run.phase param = .sent .announcement
  switch : ∀ param ∈ run.switch, run.phase param = .sent .keySwitch

variable {run next : ConfirmRun} {ref : Option ℕ} {param : ℕ}

theorem getD_eq_iff : ref.getD 0 = param ↔ LooksLike ref param := by
  rw [LooksLike]
  cases ref with
  | none => simp [eq_comm]
  | some other => simp

theorem not_looksLike_iff (href : ref ≠ some param) :
    ¬LooksLike ref param ↔ (param = 0 → ref ≠ none) := by
  rw [LooksLike, or_iff_right href]
  tauto

section Confirm

variable {purpose : RequestPurpose}

section

variable (hrefs : run.RefsSound) (hphase : run.phase param = .sent purpose)

include hrefs hphase

theorem RefsSound.annce_ne
    (hpurpose : purpose ≠ .announcement) : run.annce ≠ some param := by
  intro hsome
  have hannce := hrefs.annce param hsome
  rw [hphase] at hannce
  exact hpurpose (BufPhase.sent.inj hannce)

theorem RefsSound.switch_ne
    (hpurpose : purpose ≠ .keySwitch) : run.switch ≠ some param := by
  intro hsome
  have hswitch := hrefs.switch param hsome
  rw [hphase] at hswitch
  exact hpurpose (BufPhase.sent.inj hswitch)

theorem RefsSound.told_other
    (hannce : purpose ≠ .announcement) (hswitch : purpose ≠ .keySwitch) :
    ((run.node.devAnnce = param ↔ purpose = .announcement) ∧
        (run.node.devAnnce ≠ param ∧ run.node.keySw = param ↔ purpose = .keySwitch)) ↔
      (param = 0 → run.annce ≠ none ∧ run.switch ≠ none) := by
  rw [iff_false_right hannce, iff_false_right hswitch, hrefs.devAnnce,
    hrefs.keySw, Ne, getD_eq_iff, getD_eq_iff]
  have hannce' := not_looksLike_iff (hrefs.annce_ne hphase hannce)
  have hswitch' := not_looksLike_iff (hrefs.switch_ne hphase hswitch)
  tauto

end

theorem RefsSound.told_iff (hrefs : run.RefsSound) (event : ConfirmEvent) :
    run.Told event ↔ run.ToldWhen event := by
  cases event with
  | apsdeDataConfirm shortAddress param status room =>
    refine forall₂_congr fun purpose hphase => ?_
    cases purpose with
    | announcement =>
      rw [hrefs.devAnnce, Ne, getD_eq_iff]
      simp only [reduceCtorEq, iff_true, iff_false]
      exact and_iff_left_of_imp fun hlooks hother => hother.1 hlooks
    | keySwitch =>
      have hannce := hrefs.annce_ne hphase (by decide)
      rw [hrefs.devAnnce, hrefs.keySw, Ne, getD_eq_iff, getD_eq_iff]
      have hlooks : LooksLike run.annce param ↔
          run.annce = none ∧ param = 0 := or_iff_right hannce
      simp only [hlooks, reduceCtorEq, iff_false, iff_true]
      tauto
    | leaveResponse entry => exact hrefs.told_other hphase nofun nofun
    | other => exact hrefs.told_other hphase nofun nofun
  | _ => exact Iff.rfl

theorem zbApsdeDataConfirm_other
    (node : ConfirmNode) (shortAddress : ℕ) (status : UInt8) (room : Bool)
    (hannce : node.devAnnce ≠ param) (hswitch : node.keySw ≠ param) :
    let calls := (node.zbApsdeDataConfirm shortAddress param status room).2
    calls.count (.startupComplete param) = 0 ∧ calls.count .nwkKeySwitch = 0 ∧
      (calls.countP (disposes param) = 1 ↔ match (if node.leaveAfterMgmtLeaveRspConf then
            node.server.findLeave param else none) with
        | some i => (node.server.pendingList i).srcAddr ≠ shortAddress
        | none => status = 0 ∨ status = retNoAck → room = true) := by
  rw [zbApsdeDataConfirm, if_neg hannce, if_neg hswitch]
  cases hleave : (if node.leaveAfterMgmtLeaveRspConf then
      node.server.findLeave param else none) with
  | none =>
    have hcomplete : (if node.leaveAfterMgmtLeaveRspConf then
        node.zdoTryMgmtLeaveComplete shortAddress param else none) =
          none := by
      split at hleave
      case isTrue hflag => rw [if_pos hflag, zdoTryMgmtLeaveComplete, hleave]
      case isFalse hflag => rw [if_neg hflag]
    rw [hcomplete]
    cases room <;> by_cases hstatus : status = 0 ∨ status = retNoAck <;>
      simp [hstatus, queued, disposes]
  | some i =>
    split at hleave
    case isTrue hflag =>
      rw [if_pos hflag, zdoTryMgmtLeaveComplete, hleave]
      by_cases hlocal : (node.server.pendingList i).srcAddr = shortAddress <;>
        simp [hlocal, queued, disposes]
    case isFalse => cases hleave

theorem zbApsdeDataConfirm_annce {node : ConfirmNode}
    {shortAddress : ℕ} {status : UInt8} {room : Bool}
    (hannce : node.devAnnce = param) :
    (node.zbApsdeDataConfirm shortAddress param status room).2 =
      if node.started = false ∧ room = true then [.startupComplete param]
      else [] := by
  rw [zbApsdeDataConfirm, if_pos hannce]
  cases node.started <;> cases room <;> rfl

theorem zbApsdeDataConfirm_switch {node : ConfirmNode}
    {shortAddress : ℕ} {status : UInt8} {room : Bool}
    (hannce : node.devAnnce ≠ param) (hswitch : node.keySw = param) :
    (node.zbApsdeDataConfirm shortAddress param status room).2 = [.nwkKeySwitch] := by
  rw [zbApsdeDataConfirm, if_neg hannce, if_pos hswitch]
  rfl

theorem handled_other {shortAddress : ℕ} {status : UInt8} {room : Bool}
    (hannce : run.node.devAnnce = param ↔ purpose = .announcement)
    (hswitch : run.node.devAnnce ≠ param ∧ run.node.keySw = param ↔ purpose = .keySwitch)
    (hnotAnnce : purpose ≠ .announcement) (hnotSwitch : purpose ≠ .keySwitch) :
    let calls := (run.node.zbApsdeDataConfirm shortAddress param status room).2
    (calls.count (.startupComplete param) = (if purpose = .announcement then 1 else 0) ∧
        calls.count .nwkKeySwitch = (if purpose = .keySwitch then 1 else 0) ∧
        calls.countP (disposes param) = 1) ↔
      match (if run.node.leaveAfterMgmtLeaveRspConf then
          run.node.server.findLeave param else none) with
      | some i => (run.node.server.pendingList i).srcAddr ≠ shortAddress
      | none => status = 0 ∨ status = retNoAck → room = true := by
  have hother : run.node.devAnnce ≠ param := fun h => hnotAnnce (hannce.mp h)
  have hother' : run.node.keySw ≠ param := fun h => hnotSwitch (hswitch.mp ⟨hother, h⟩)
  obtain ⟨hstartup, hkey, hdisposes⟩ := zbApsdeDataConfirm_other
    run.node shortAddress status room hother hother'
  dsimp only
  rw [if_neg hnotAnnce, if_neg hnotSwitch, hstartup, hkey]
  exact (and_iff_right rfl).trans ((and_iff_right rfl).trans hdisposes)

theorem RefsSound.handled_iff (hrefs : run.RefsSound) (event : ConfirmEvent) :
    run.Handled event ↔ run.HandledWhen event := by
  cases event with
  | apsdeDataConfirm shortAddress param status room =>
    rw [Handled, HandledWhen, ← hrefs.told_iff]
    apply and_congr_right
    intro htold
    refine forall₂_congr fun purpose hphase => ?_
    obtain ⟨hannce, hswitch⟩ := htold purpose hphase
    cases purpose with
    | announcement =>
      rw [zbApsdeDataConfirm_annce (hannce.mpr rfl)]
      split
      case isTrue hfirst => simp [hfirst, disposes]
      case isFalse hlater => simp [hlater]
    | keySwitch =>
      obtain ⟨hother, href⟩ := hswitch.mpr rfl
      rw [zbApsdeDataConfirm_switch hother href]
      simp [disposes]
    | leaveResponse entry => exact handled_other hannce hswitch nofun nofun
    | other => exact handled_other hannce hswitch nofun nofun
  | _ => exact and_congr_left' (hrefs.told_iff _)

end Confirm

theorem RefsSound.congr (hrefs : run.RefsSound)
    (hdev : next.node.devAnnce = run.node.devAnnce)
    (hkey : next.node.keySw = run.node.keySw)
    (hannce : next.annce = run.annce) (hswitch : next.switch = run.switch)
    (hphase : ∀ purpose other, run.phase other = .sent purpose →
      next.phase other = .sent purpose) : next.RefsSound where
  devAnnce := by rw [hdev, hannce, hrefs.devAnnce]
  keySw := by rw [hkey, hswitch, hrefs.keySw]
  annce other hother := hphase _ _ (hrefs.annce other (hannce ▸ hother))
  switch other hother := hphase _ _ (hrefs.switch other (hswitch ▸ hother))

theorem setPhase_of_not_sent (phase : BufPhase)
    (hparam : ∀ purpose, run.phase param ≠ .sent purpose)
    (purpose : RequestPurpose) (other : ℕ)
    (hother : run.phase other = .sent purpose) :
    (run.setPhase param phase).phase other = .sent purpose := by
  have hne : other ≠ param := fun h => hparam purpose (h ▸ hother)
  rw [setPhase]
  exact (update_of_ne hne _ _).trans hother

theorem zbNlmeLeaveConfirm_refs (node : ConfirmNode) (device : ZdpDevice)
    (param : ℕ) (status : UInt8) (own : Bool) :
    let next := (node.zbNlmeLeaveConfirm device param status own).1
    next.devAnnce = node.devAnnce ∧ next.keySw = node.keySw := by
  dsimp only
  rw [ConfirmNode.zbNlmeLeaveConfirm]
  split
  case h_1 => exact ⟨rfl, rfl⟩
  case h_2 => split <;> exact ⟨rfl, rfl⟩

theorem zdoMgmtLeaveCli_refs (node : ConfirmNode) (shortAddress param : ℕ) (tsn : UInt8) :
    let next := (node.zdoMgmtLeaveCli shortAddress param tsn).1
    next.devAnnce = node.devAnnce ∧ next.keySw = node.keySw := by
  dsimp only
  rw [zdoMgmtLeaveCli]
  split <;> exact ⟨rfl, rfl⟩

theorem zdoTryMgmtLeaveComplete_refs {node next : ConfirmNode}
    {shortAddress : ℕ} {call : ConfirmCall}
    (hcomplete : node.zdoTryMgmtLeaveComplete shortAddress param = some (next, call)) :
    next.devAnnce = node.devAnnce ∧ next.keySw = node.keySw := by
  rw [zdoTryMgmtLeaveComplete] at hcomplete
  split at hcomplete
  case h_1 => cases hcomplete
  case h_2 =>
    split at hcomplete <;>
      obtain ⟨rfl, -⟩ := some_pair_inj hcomplete <;> exact ⟨rfl, rfl⟩

theorem zbApsdeDataConfirm_refs (node : ConfirmNode)
    (shortAddress param : ℕ) (status : UInt8) (room : Bool) :
    let next := (node.zbApsdeDataConfirm shortAddress param status room).1
    next.devAnnce = (if node.devAnnce = param then 0 else node.devAnnce) ∧
      next.keySw = (if node.devAnnce ≠ param ∧ node.keySw = param then 0
        else node.keySw) := by
  dsimp only
  rw [zbApsdeDataConfirm]
  by_cases hannce : node.devAnnce = param
  · simp [hannce]
  · by_cases hswitch : node.keySw = param
    · simp [hannce, hswitch]
    · have hnot : ¬(node.devAnnce ≠ param ∧ node.keySw = param) :=
        fun h => hswitch h.2
      simp only [if_neg hannce, if_neg hswitch, if_neg hnot]
      cases hcomplete : (if node.leaveAfterMgmtLeaveRspConf then
          node.zdoTryMgmtLeaveComplete shortAddress param else none) with
      | none => exact ⟨rfl, rfl⟩
      | some completed =>
        split at hcomplete
        case isTrue => exact zdoTryMgmtLeaveComplete_refs hcomplete
        case isFalse => cases hcomplete

theorem mem_confirmed {ref : Option ℕ} {param other : ℕ} :
    other ∈ confirmed ref param ↔ other ∈ ref ∧ other ≠ param := by
  rw [confirmed]
  split
  case isTrue hsome => simp [hsome, eq_comm]
  case isFalse hsome =>
    refine (and_iff_left_of_imp ?_).symm
    rintro hother rfl
    exact hsome hother

theorem getD_confirmed {ref : Option ℕ} {param : ℕ} : (confirmed ref param).getD 0 =
      if ref.getD 0 = param then 0 else ref.getD 0 := by
  rw [confirmed]
  cases ref with
  | none => simp
  | some other => by_cases hother : other = param <;> simp [hother]

theorem RefsSound.eq_zero (hrefs : run.RefsSound)
    (hannce : run.node.devAnnce = param) (hswitch : run.node.keySw = param) :
    param = 0 := by
  rw [hrefs.devAnnce, getD_eq_iff] at hannce
  rw [hrefs.keySw, getD_eq_iff] at hswitch
  rcases hannce with hannce | ⟨-, hzero⟩
  · rcases hswitch with hswitch | ⟨-, hzero⟩
    · have hphase := (hrefs.annce param hannce).symm.trans (hrefs.switch param hswitch)
      cases hphase
    · exact hzero
  · exact hzero

theorem RefsSound.confirmed
    (hrefs : run.RefsSound) (shortAddress : ℕ) (status : UInt8) (room : Bool)
    (hnode : next.node = (run.node.zbApsdeDataConfirm shortAddress param status room).1)
    (hannce : next.annce = confirmed run.annce param)
    (hswitch : next.switch = confirmed run.switch param)
    (hphases : ∀ other, other ≠ param → next.phase other = run.phase other) :
    next.RefsSound := by
  obtain ⟨hdev, hkey⟩ := zbApsdeDataConfirm_refs run.node shortAddress param status room
  constructor
  case devAnnce => rw [hnode, hdev, hannce, getD_confirmed, hrefs.devAnnce]
  case keySw =>
    rw [hnode, hkey, hswitch, getD_confirmed, ← hrefs.keySw]
    by_cases href : run.node.keySw = param
    case pos =>
      by_cases hdev' : run.node.devAnnce = param
      case pos => simp [hdev', href, hrefs.eq_zero hdev' href]
      case neg => simp [hdev', href]
    case neg => simp [href]
  case annce =>
    rw [hannce]
    intro other hother
    obtain ⟨hsome, hne⟩ := mem_confirmed.mp hother
    rw [hphases other hne, hrefs.annce other hsome]
  case switch =>
    rw [hswitch]
    intro other hother
    obtain ⟨hsome, hne⟩ := mem_confirmed.mp hother
    rw [hphases other hne, hrefs.switch other hsome]

theorem refsSound_step {event : ConfirmEvent} (hrefs : run.RefsSound)
    (hstep : run.step event = some next) : next.RefsSound := by
  cases event with
  | sendDeviceAnnce param =>
    obtain ⟨hfree, hnext⟩ := ite_none_right_eq_some.mp hstep
    have hmoved := setPhase_of_not_sent (.sent .announcement)
      fun purpose => by rw [hfree]; nofun
    obtain rfl := some.inj hnext
    exact {
      devAnnce := rfl
      keySw := hrefs.keySw
      annce := by
        rintro other ⟨⟩
        exact update_self ..
      switch := fun other hother => hmoved _ _ (hrefs.switch other hother) }
  | sendNwkKeySwitch param =>
    obtain ⟨hfree, hnext⟩ := ite_none_right_eq_some.mp hstep
    have hmoved := setPhase_of_not_sent (.sent .keySwitch)
      fun purpose => by rw [hfree]; nofun
    obtain rfl := some.inj hnext
    exact {
      devAnnce := hrefs.devAnnce
      keySw := rfl
      annce := fun other hother => hmoved _ _ (hrefs.annce other hother)
      switch := by
        rintro other ⟨⟩
        exact update_self .. }
  | dataRequest param =>
    obtain ⟨hfree, hnext⟩ := ite_none_right_eq_some.mp hstep
    obtain rfl := some.inj hnext
    exact hrefs.congr rfl rfl rfl rfl
      (setPhase_of_not_sent _ fun purpose => by rw [hfree]; nofun)
  | mgmtLeaveSrv ind =>
    obtain ⟨hfree, hnext⟩ := ite_none_right_eq_some.mp hstep
    obtain rfl := some.inj hnext
    exact hrefs.congr rfl rfl rfl rfl
      (setPhase_of_not_sent _ fun purpose => by rw [hfree]; nofun)
  | mgmtLeaveCli shortAddress param tsn own =>
    obtain ⟨hfree, hnext⟩ := ite_none_right_eq_some.mp hstep
    obtain ⟨hdev, hkey⟩ := zdoMgmtLeaveCli_refs run.node shortAddress param tsn
    obtain rfl := some.inj hnext
    exact hrefs.congr hdev hkey rfl rfl
      (setPhase_of_not_sent _ fun purpose => by rw [hfree]; nofun)
  | nlmeLeaveRequest param own =>
    obtain ⟨hfree, hnext⟩ := ite_none_right_eq_some.mp hstep
    obtain rfl := some.inj hnext
    exact hrefs.congr rfl rfl rfl rfl
      (setPhase_of_not_sent _ fun purpose => by rw [hfree]; nofun)
  | nlmeLeaveConfirm device param status known =>
    rw [step] at hstep
    split at hstep
    case h_1 entry own hleaving =>
      obtain ⟨hdev, hkey⟩ := zbNlmeLeaveConfirm_refs run.node device param status own
      obtain rfl := some.inj hstep
      exact hrefs.congr hdev hkey rfl rfl
        (setPhase_of_not_sent _ fun purpose => by rw [hleaving]; nofun)
    case h_2 => cases hstep
  | apsdeDataConfirm shortAddress param status room =>
    rw [step] at hstep
    split at hstep
    case h_1 purpose hsent =>
      obtain rfl := some.inj hstep
      exact hrefs.confirmed shortAddress status room rfl rfl rfl
        fun other hother => update_of_ne hother ..
    case h_2 => cases hstep
  | doLeaveLocal =>
    obtain ⟨-, hnext⟩ := ite_none_right_eq_some.mp hstep
    obtain rfl := some.inj hnext
    exact hrefs.congr rfl rfl rfl rfl fun _ _ hsent => hsent

theorem refsSound_start (server : ZdpServer) : (start server).RefsSound where
  devAnnce := rfl
  keySw := rfl
  annce := nofun
  switch := nofun

/-- In every run the confirms are told apart, and handled, as long as `ToldWhen`
and `HandledWhen` hold, and no longer. -/
theorem confirms_told_iff (server : ZdpServer) (events : List ConfirmEvent) :
    (AlongRun step Told (start server) events ↔
        AlongRun step ToldWhen (start server) events) ∧
      (AlongRun step Handled (start server) events ↔
        AlongRun step HandledWhen (start server) events) := by
  constructor
  · exact alongRun_congr (fun _ event hrefs => hrefs.told_iff event)
      (fun _ _ _ hrefs _ hstep => refsSound_step hrefs hstep)
      (refsSound_start server)
  · exact alongRun_congr (fun _ event hrefs => hrefs.handled_iff event)
      (fun _ _ _ hrefs _ hstep => refsSound_step hrefs hstep)
      (refsSound_start server)

/-- The confirm of an ordinary request in buffer 0 completes the start-up, and
the buffer of a key switch is never given away. -/
theorem not_told_bufferZero : ¬AlongRun step Told (start ZdpServerRun.start.server)
        [.dataRequest 0, .apsdeDataConfirm 0 0 0 true] ∧
      ¬AlongRun step Handled (start ZdpServerRun.start.server)
        [.sendNwkKeySwitch 1, .apsdeDataConfirm 0 1 0 true] := by
  constructor
  · intro hall
    have htold := (hall.2 _ rfl).1 .other rfl
    exact absurd (htold.1.mp rfl) nofun
  · intro hall
    have hhandled := (hall.2 _ rfl).1.2 .keySwitch rfl
    exact absurd hhandled.2.2 (by decide)

end ConfirmRun

end Zboss
