import Zboss.PanidResolution
import Zboss.PanidUpdateIds

/-!
# Agreement on the new PAN identifier
-/

namespace Zboss

open Option List PanidCall TransitionSystem

theorem mem_eraseIdx_of_ne {α : Type*} {list : List α} {k : ℕ} {a b : α}
    (hk : list[k]? = some b) (hne : a ≠ b) : a ∈ list.eraseIdx k ↔ a ∈ list := by
  induction list generalizing k with
  | nil => simp
  | cons head rest ih =>
    cases k with
    | zero =>
      obtain rfl := some.inj hk
      simp [hne]
    | succ k => simp [ih (by simpa using hk)]

namespace PanidNode

def target (node : PanidNode) : UInt16 :=
  if node.SettingPanid then node.device.newPanid
  else node.starts.getLast?.getD node.device.panId

theorem target_of_setting {node : PanidNode} (h : node.SettingPanid) :
    node.target = node.device.newPanid := if_pos h

theorem target_of_not_setting {node : PanidNode} (h : ¬ node.SettingPanid) :
    node.target = node.starts.getLast?.getD node.device.panId := if_neg h

structure Started (node : PanidNode) : Prop where
  shortAddr : node.device.shortAddr ≠ macShortAddrNoValue
  joinedPro : node.device.joinedPro = false

structure Continues (node next : PanidNode) : Prop where
  target : next.target = node.target
  newPanid : next.device.newPanid = node.device.newPanid
  shortAddr : next.device.shortAddr = node.device.shortAddr
  nwkManagerAddr : next.device.nwkManagerAddr = node.device.nwkManagerAddr
  joinedPro : next.device.joinedPro = node.device.joinedPro
  heard : next.heard = node.heard

theorem Continues.started {node next : PanidNode}
    (h : node.Continues next) (hstarted : node.Started) : next.Started :=
  ⟨h.shortAddr ▸ hstarted.shortAddr, h.joinedPro.trans hstarted.joinedPro⟩

variable {node next : PanidNode}

theorem target_congr (hsetting : next.SettingPanid ↔ node.SettingPanid)
    (hnew : next.device.newPanid = node.device.newPanid)
    (hstarts : next.starts = node.starts)
    (hpan : next.device.panId = node.device.panId) :
    next.target = node.target := by
  unfold target
  rw [hnew, hstarts, hpan]
  exact if_congr hsetting rfl rfl

/-! ## Callbacks, alarms and buffers -/

section Handled

variable (result : PanidDevice × List PanidCall)

@[simp] theorem handled_device : (node.handled result).device = result.1 := rfl

@[simp] theorem handled_callbacks : (node.handled result).callbacks =
      node.callbacks ++ result.2.filterMap callback? := rfl

@[simp] theorem handled_starts : (node.handled result).starts = node.starts ++
        (result.2.filterMap callback?).filterMap startedPanid := by
  simp [starts]

theorem handled_settingPanid : (node.handled result).SettingPanid ↔
      node.SettingPanid ∨ .setPanid ∈ result.2.filterMap alarm? ∨
          .setPanid ∈ result.2.filterMap grant? := by
  unfold SettingPanid handled
  simp only [mem_append]
  tauto

@[simp] theorem handled_freeBuf (node : PanidNode) (param : ℕ) :
    node.handled (node.device, [.freeBuf param]) = node := by
  unfold handled
  simp only [filterMap_cons, filterMap_nil, callback?, alarm?, grant?, append_nil]

end Handled

variable {sent : Option PanidCommand}

theorem step_callback (hstep : node.step .callback = some (next, sent)) :
    ∃ task param rest, node.callbacks = (task, param) :: rest ∧
      runCallback { node with callbacks := rest } param task =
        some (next, sent) := by
  cases hcallbacks : node.callbacks with
  | nil => simp [step, hcallbacks] at hstep
  | cons head rest =>
    refine ⟨head.1, head.2, rest, rfl, ?_⟩
    simpa only [step, hcallbacks] using hstep

theorem runCallback_continues
    {rest : List (PanidCallback × ℕ)} {task : PanidCallback} {param : ℕ}
    (hstarted : node.Started)
    (hcallbacks : node.callbacks = (task, param) :: rest)
    (hrun : runCallback { node with callbacks := rest } param task = some (next, sent)) :
    node.Continues next := by
  have hstarts : node.starts =
      ((startedPanid (task, param)).toList ++ rest.filterMap startedPanid) := by
    unfold starts
    rw [hcallbacks]
    cases task <;> rfl
  cases task with
  | sendNwkUpdate =>
    obtain ⟨rfl, -⟩ := some_pair_inj hrun
    refine ⟨target_congr ?_ rfl ?_ rfl, rfl, rfl, rfl, rfl, rfl⟩
    · rw [handled_settingPanid]
      simp [zbPanidConflictSendNwkUpdate, alarm?, grant?, SettingPanid]
    · rw [hstarts]
      simp [zbPanidConflictSendNwkUpdate, callback?, startedPanid, starts]
  | nwkForward command =>
    obtain ⟨rfl, -⟩ := some_pair_inj hrun
    refine ⟨target_congr Iff.rfl rfl ?_ rfl, rfl, rfl, rfl, rfl, rfl⟩
    rw [hstarts]
    rfl
  | nlmeStatusIndication networkAddr =>
    obtain ⟨rfl, -⟩ := some_pair_inj hrun
    refine ⟨target_congr Iff.rfl rfl ?_ rfl, rfl, rfl, rfl, rfl, rfl⟩
    rw [hstarts]
    rfl
  | mlmeStartRequest panId =>
    obtain ⟨rfl, -⟩ := some_pair_inj hrun
    have hstart : zbMlmeStartRequest node.device panId param =
        ({ node.device with panId := panId }, [.callback .mlmeStartConfirm param]) :=
      if_pos ⟨hstarted.shortAddr, hstarted.joinedPro⟩
    rw [hstart]
    refine ⟨?_, rfl, rfl, rfl, rfl, rfl⟩
    by_cases hsetting : node.SettingPanid
    · rw [target_of_setting hsetting, target_of_setting]
      · rfl
      · exact (handled_settingPanid _).mpr (Or.inl hsetting)
    · have hnot : ¬ (PanidNode.handled { node with callbacks := rest }
          ({ node.device with panId := panId },
            [.callback .mlmeStartConfirm param])).SettingPanid := by
        rw [handled_settingPanid]
        simpa [alarm?, grant?, SettingPanid] using hsetting
      rw [target_of_not_setting hsetting, target_of_not_setting hnot, hstarts]
      -- the request which is carried out is the last one or a later one is
      simp [callback?, startedPanid, starts, List.getLast?_cons]
  | mlmeStartConfirm =>
    obtain ⟨result, hresult, heq⟩ := map_eq_some_iff.mp hrun
    obtain ⟨rfl, -⟩ := Prod.mk.inj heq
    obtain ⟨-, hconfirm⟩ := ite_none_right_eq_some.mp hresult
    obtain rfl := some.inj hconfirm
    refine ⟨target_congr ?_ rfl ?_ rfl, rfl, rfl, rfl, rfl, rfl⟩
    · rw [handled_settingPanid]
      simp [alarm?, grant?, SettingPanid]
    · rw [hstarts]
      simp [callback?, startedPanid, starts]

theorem runAlarm_continues
    {k : ℕ} {task : PanidAlarm} (htask : node.alarms[k]? = some task) :
    node.Continues (runAlarm { node with alarms := node.alarms.eraseIdx k } task) := by
  cases task with
  | sendNetworkReport param =>
    have hmem : PanidAlarm.setPanid ∈ node.alarms.eraseIdx k ↔ .setPanid ∈ node.alarms :=
      mem_eraseIdx_of_ne htask PanidAlarm.noConfusion
    unfold runAlarm zbPanidConflictSendNetworkReport
    dsimp only
    split
    all_goals
      refine ⟨target_congr ?_ rfl ?_ rfl, rfl, rfl, rfl, rfl, rfl⟩
      · rw [handled_settingPanid]
        simp [alarm?, grant?, SettingPanid, hmem]
      · simp [callback?, startedPanid, starts]
  | setPanid =>
    have hsetting : node.SettingPanid := Or.inl (mem_of_getElem? htask)
    refine ⟨?_, rfl, rfl, rfl, rfl, rfl⟩
    rw [target_of_setting hsetting, target_of_setting]
    · rfl
    · unfold runAlarm
      rw [handled_settingPanid]
      simp [zbPanidConflictSetPanidAlarm, grant?]

theorem runGrant_continues
    {k param : ℕ} {task : PanidGrant} (htask : node.grants[k]? = some task) :
    node.Continues
      (runGrant { node with grants := node.grants.eraseIdx k } param task) := by
  cases task with
  | sendStatusInd =>
    have hmem : PanidGrant.setPanid ∈ node.grants.eraseIdx k ↔ .setPanid ∈ node.grants :=
      mem_eraseIdx_of_ne htask PanidGrant.noConfusion
    refine ⟨target_congr ?_ rfl ?_ rfl, rfl, rfl, rfl, rfl, rfl⟩
    · unfold runGrant
      rw [handled_settingPanid]
      simp [zbPanidConflictSendStatusInd, alarm?, grant?, SettingPanid, hmem]
    · simp [runGrant, zbPanidConflictSendStatusInd, callback?, startedPanid, starts]
  | setPanid =>
    have hsetting : node.SettingPanid := Or.inr (mem_of_getElem? htask)
    refine ⟨?_, rfl, rfl, rfl, rfl, rfl⟩
    rw [target_of_setting hsetting]
    by_cases hnext : (runGrant { node with grants := node.grants.eraseIdx k } param
          .setPanid).SettingPanid
    · exact target_of_setting hnext
    · rw [target_of_not_setting hnext]
      simp [runGrant, zbPanidConflictSetPanid, callback?, startedPanid]

def SameUpdates (node next : PanidNode) : Prop :=
  ∀ entry, isUpdate entry → (entry ∈ next.callbacks ↔ entry ∈ node.callbacks)

theorem SameUpdates.updatePending (h : node.SameUpdates next) :
    next.UpdatePending ↔ node.UpdatePending := by
  constructor
  · rintro ⟨entry, hmem, hupdate⟩
    exact ⟨entry, (h entry hupdate).mp hmem, hupdate⟩
  · rintro ⟨entry, hmem, hupdate⟩
    exact ⟨entry, (h entry hupdate).mpr hmem, hupdate⟩

theorem SameUpdates.handled
    {result : PanidDevice × List PanidCall} (h : node.SameUpdates next)
    (hcalls : ∀ entry ∈ result.2.filterMap callback?, isUpdate entry = false) :
    node.SameUpdates (next.handled result) := by
  intro entry hupdate
  rw [handled_callbacks, mem_append, h entry hupdate]
  refine or_iff_left fun hmem => ?_
  rw [hcalls entry hmem] at hupdate
  contradiction

theorem SameUpdates.refl (node : PanidNode) : node.SameUpdates node :=
  fun _ _ => Iff.rfl

theorem runAlarm_sameUpdates (k : ℕ) (task : PanidAlarm) : node.SameUpdates
      (runAlarm { node with alarms := node.alarms.eraseIdx k } task) := by
  have hstart : node.SameUpdates
      { node with alarms := node.alarms.eraseIdx k } := fun _ _ => Iff.rfl
  cases task with
  | sendNetworkReport param =>
    refine hstart.handled ?_
    unfold zbPanidConflictSendNetworkReport
    dsimp only
    split
    · simp [callback?]
    · simp [callback?, isUpdate]
  | setPanid =>
    refine hstart.handled ?_
    simp [zbPanidConflictSetPanidAlarm, callback?]

theorem runGrant_sameUpdates (k param : ℕ) (task : PanidGrant) : node.SameUpdates
      (runGrant { node with grants := node.grants.eraseIdx k } param task) := by
  have hstart : node.SameUpdates
      { node with grants := node.grants.eraseIdx k } := fun _ _ => Iff.rfl
  cases task with
  | sendStatusInd =>
    refine hstart.handled ?_
    simp [zbPanidConflictSendStatusInd, callback?, isUpdate]
  | setPanid =>
    refine hstart.handled ?_
    simp [zbPanidConflictSetPanid, callback?, isUpdate]

theorem runCallback_sameUpdates
    {rest : List (PanidCallback × ℕ)} {task : PanidCallback} {param : ℕ}
    (hcallbacks : node.callbacks = (task, param) :: rest)
    (htask : isUpdate (task, param) = false)
    (hrun : runCallback { node with callbacks := rest } param task = some (next, sent)) :
    node.SameUpdates next ∧ ∀ cmd, sent ≠ some (.update cmd) := by
  have hrest : node.SameUpdates { node with callbacks := rest } := by
    intro entry hupdate
    rw [hcallbacks, mem_cons]
    refine (or_iff_right ?_).symm
    rintro rfl
    rw [htask] at hupdate
    contradiction
  cases task with
  | sendNwkUpdate => contradiction
  | nwkForward command =>
    obtain ⟨rfl, rfl⟩ := some_pair_inj hrun
    refine ⟨hrest, ?_⟩
    intro cmd hcmd
    obtain rfl := some.inj hcmd
    contradiction
  | nlmeStatusIndication networkAddr =>
    obtain ⟨rfl, rfl⟩ := some_pair_inj hrun
    exact ⟨hrest, fun _ => by simp⟩
  | mlmeStartRequest panId =>
    obtain ⟨rfl, rfl⟩ := some_pair_inj hrun
    refine ⟨hrest.handled ?_, fun _ => by simp⟩
    unfold zbMlmeStartRequest
    split
    · simp [callback?, isUpdate]
    · simp
  | mlmeStartConfirm =>
    obtain ⟨result, hresult, heq⟩ := map_eq_some_iff.mp hrun
    obtain ⟨rfl, rfl⟩ := Prod.mk.inj heq
    obtain ⟨-, hconfirm⟩ := ite_none_right_eq_some.mp hresult
    obtain rfl := some.inj hconfirm
    refine ⟨hrest.handled ?_, fun _ => by simp⟩
    simp [callback?]

/-! ## The manager -/

def announcedBy : Option PanidCommand → List UInt16
  | some (.update cmd) => [cmd.newPanid]
  | _ => []

@[simp] theorem announcedBy_none : announcedBy none = [] := rfl

theorem announcedBy_eq_nil (hsent : ∀ cmd, sent ≠ some (.update cmd)) :
    announcedBy sent = [] := by
  unfold announcedBy
  split
  · exact absurd rfl (hsent _)
  · rfl

structure ManagerSound (announced : List UInt16) (node : PanidNode) : Prop where
  started : node.Started
  managed : node.device.nwkManagerAddr = node.device.shortAddr
  forwards : ∀ cmd param, (.nwkForward (.update cmd), param) ∈ node.callbacks →
      cmd.newPanid = node.device.newPanid
  target : announced ≠ [] ∨ node.UpdatePending → node.target = node.device.newPanid
  latest : ¬ node.UpdatePending → ∀ id ∈ announced.getLast?, id = node.device.newPanid

namespace ManagerSound

variable {announced : List UInt16}

theorem continues (h : ManagerSound announced node) (hcont : node.Continues next)
    (hsame : node.SameUpdates next) : ManagerSound announced next where
  started := hcont.started h.started
  managed := by rw [hcont.nwkManagerAddr, hcont.shortAddr, h.managed]
  forwards cmd param hmem := by
    rw [hcont.newPanid]
    exact h.forwards cmd param ((hsame _ rfl).mp hmem)
  target hsome := by
    rw [hsame.updatePending] at hsome
    rw [hcont.target, hcont.newPanid, h.target hsome]
  latest hnone id hid := by
    rw [hsame.updatePending] at hnone
    rw [hcont.newPanid, h.latest hnone id hid]

variable {param : ℕ} {draws : List UInt16}

theorem runCallback {rest : List (PanidCallback × ℕ)} {task : PanidCallback}
    {sent : Option PanidCommand} (h : ManagerSound announced node)
    (hcallbacks : node.callbacks = (task, param) :: rest)
    (hrun : PanidNode.runCallback { node with callbacks := rest } param task =
      some (next, sent)) :
    ManagerSound (announced ++ announcedBy sent) next := by
  have hcont := runCallback_continues h.started hcallbacks hrun
  cases htask : isUpdate (task, param) with
  | false =>
    obtain ⟨hsame, hsent⟩ := runCallback_sameUpdates hcallbacks htask hrun
    rw [announcedBy_eq_nil hsent, append_nil]
    exact h.continues hcont hsame
  | true =>
    have hpending : node.UpdatePending := ⟨_, hcallbacks ▸ mem_cons_self, htask⟩
    have htarget := h.target (Or.inr hpending)
    refine ⟨hcont.started h.started, ?_, ?_, ?_, ?_⟩
    · rw [hcont.nwkManagerAddr, hcont.shortAddr, h.managed]
    · intro cmd other hmem
      rw [hcont.newPanid]
      have hold : ∀ entry, entry ∈ rest → entry ∈ node.callbacks := by
        intro entry hentry
        rw [hcallbacks]
        exact mem_cons_of_mem _ hentry
      cases task with
      | sendNwkUpdate =>
        obtain ⟨rfl, -⟩ := some_pair_inj hrun
        rw [handled_callbacks, mem_append] at hmem
        rcases hmem with hrest | hnew
        · exact h.forwards cmd other (hold _ hrest)
        · simp [zbPanidConflictSendNwkUpdate, callback?] at hnew
          rw [hnew.1]
      | nwkForward command =>
        obtain ⟨rfl, -⟩ := some_pair_inj hrun
        exact h.forwards cmd other (hold _ hmem)
      | nlmeStatusIndication _ => contradiction
      | mlmeStartRequest _ => contradiction
      | mlmeStartConfirm => contradiction
    · intro _
      rw [hcont.target, hcont.newPanid, htarget]
    · intro hnone id hid
      rw [hcont.newPanid]
      cases task with
      | sendNwkUpdate =>
        obtain ⟨rfl, -⟩ := some_pair_inj hrun
        refine absurd ⟨(.nwkForward (.update ⟨1, node.device.extPanId,
          node.device.updateId, node.device.newPanid⟩), param), ?_, rfl⟩ hnone
        rw [handled_callbacks]
        exact mem_append_right _ mem_cons_self
      | nwkForward command =>
        obtain ⟨-, rfl⟩ := some_pair_inj hrun
        cases command with
        | report _ _ => contradiction
        | update cmd =>
          have hlast : cmd.newPanid = id := by simpa [announcedBy] using hid
          rw [← hlast]
          exact h.forwards cmd param (hcallbacks ▸ mem_cons_self)
      | nlmeStatusIndication _ => contradiction
      | mlmeStartRequest _ => contradiction
      | mlmeStartConfirm => contradiction

theorem networkUpdate {device : PanidDevice} {result : PanidDevice × List PanidCall}
    (hresult : zbPanidConflictNetworkUpdate draws device param = some result)
    (hnode : node.Started)
    (hmanaged : node.device.nwkManagerAddr = node.device.shortAddr)
    (hshort : device.shortAddr = node.device.shortAddr)
    (hmanager : device.nwkManagerAddr = node.device.nwkManagerAddr)
    (hpro : device.joinedPro = node.device.joinedPro)
    (hforwards : ∀ cmd param, (.nwkForward (.update cmd), param) ∈ node.callbacks →
        cmd.newPanid = result.1.newPanid) :
    ManagerSound announced (node.handled result) := by
  obtain ⟨newPanid, -, rfl⟩ := map_eq_some_iff.mp hresult
  have hpending : (node.handled
      (zbNwkUpdateBeaconPayload { device with newPanid := newPanid },
        [.callback .sendNwkUpdate param, .alarm .setPanid])).UpdatePending := by
    refine ⟨(.sendNwkUpdate, param), ?_, rfl⟩
    rw [handled_callbacks]
    exact mem_append_right _ mem_cons_self
  refine ⟨⟨hshort ▸ hnode.shortAddr, hpro.trans hnode.joinedPro⟩, ?_, ?_, ?_,
    fun hnone => absurd hpending hnone⟩
  · rw [handled_device]
    exact hmanager.trans (hmanaged.trans hshort.symm)
  · intro cmd other hmem
    rw [handled_callbacks, mem_append] at hmem
    rcases hmem with hold | hnew
    · exact hforwards cmd other hold
    · simp [callback?] at hnew
  · intro _
    apply target_of_setting
    rw [handled_settingPanid]
    exact Or.inr (Or.inl mem_cons_self)

theorem handled_freeBuf (h : ManagerSound announced node) (param : ℕ) :
    ManagerSound announced (node.handled (node.device, [.freeBuf param])) := by
  rwa [PanidNode.handled_freeBuf]

theorem forwards_of_resolving {newPanid : UInt16} (h : ManagerSound announced node)
    (hsame : node.Resolving → newPanid = node.device.newPanid)
    (cmd : NwkUpdateCmd) (param : ℕ)
    (hmem : (.nwkForward (.update cmd), param) ∈ node.callbacks) :
    cmd.newPanid = newPanid := by
  rw [hsame (Or.inl ⟨_, hmem, rfl⟩)]
  exact h.forwards cmd param hmem

theorem beacon {beacon : ReceivedBeacon} {result : PanidDevice × List PanidCall}
    (h : ManagerSound announced node)
    (hsame : node.device.Conflicts beacon → node.Resolving →
      chooseNewPanid (.replicate 8 0xFFFF) draws = some node.device.newPanid)
    (hresult : zbMlmeBeaconNotifyIndication draws node.device param beacon = some result) :
    ManagerSound announced (node.handled result) ∧ (node.Resolving →
        result.1.newPanid = node.device.newPanid) := by
  unfold zbMlmeBeaconNotifyIndication at hresult
  by_cases hconflicts : node.device.Conflicts beacon
  · rw [if_pos hconflicts, if_pos h.managed] at hresult
    have hkeep : node.Resolving → result.1.newPanid = node.device.newPanid := by
      intro hresolving
      obtain ⟨newPanid, hchoice, rfl⟩ := map_eq_some_iff.mp hresult
      have hdraw := hsame hconflicts hresolving
      rw [hchoice] at hdraw
      exact some.inj hdraw
    exact ⟨networkUpdate hresult h.started h.managed rfl rfl rfl
      (h.forwards_of_resolving hkeep), hkeep⟩
  · rw [if_neg hconflicts] at hresult
    obtain rfl := some.inj hresult
    exact ⟨h.handled_freeBuf param, fun _ => rfl⟩

theorem report {report : NwkReportCmd} {result : PanidDevice × List PanidCall}
    (h : ManagerSound announced node)
    (hsame : PanidNetwork.StartsResolution node.device report → node.Resolving →
        chooseNewPanid (knownOfReport report.panids
            (min (nwkReportInfoCount report.commandOptions) panidTableSize))
          draws = some node.device.newPanid)
    (hresult : nwkReportIndication draws node.device param report = some result) :
    ManagerSound announced (node.handled result) ∧ (node.Resolving →
        result.1.newPanid = node.device.newPanid) := by
  unfold nwkReportIndication zbPanidConflictGotNetworkReport at hresult
  split at hresult
  · rename_i haccepted
    split at hresult
    · obtain rfl := some.inj hresult
      exact ⟨h.handled_freeBuf param, fun _ => rfl⟩
    · rename_i hidle
      have hkeep : node.Resolving → result.1.newPanid = node.device.newPanid := by
        intro hresolving
        obtain ⟨newPanid, hchoice, rfl⟩ := map_eq_some_iff.mp hresult
        have hdraw := hsame ⟨haccepted.1, haccepted.2, hidle⟩ hresolving
        rw [hchoice] at hdraw
        exact some.inj hdraw
      exact ⟨networkUpdate hresult h.started h.managed rfl rfl rfl
        (h.forwards_of_resolving hkeep), hkeep⟩
  · obtain rfl := some.inj hresult
    exact ⟨h.handled_freeBuf param, fun _ => rfl⟩

theorem step {input : PanidInput} {sent : Option PanidCommand}
    (h : ManagerSound announced node)
    (hsame : ∀ draws param beacon, input = .beacon draws param beacon →
      node.device.Conflicts beacon → node.Resolving →
        chooseNewPanid (.replicate 8 0xFFFF) draws = some node.device.newPanid)
    (hstep : node.step input = some (next, sent)) :
    ManagerSound (announced ++ announcedBy sent) next ∧
      (node.Resolving → next.device.newPanid = node.device.newPanid) := by
  cases input with
  | beacon draws param beacon =>
    obtain ⟨result, hresult, heq⟩ := map_eq_some_iff.mp hstep
    obtain ⟨rfl, rfl⟩ := Prod.mk.inj heq
    rw [announcedBy_none, append_nil]
    exact h.beacon (hsame draws param beacon rfl) hresult
  | callback =>
    obtain ⟨task, param, rest, hcallbacks, hrun⟩ := step_callback hstep
    have hcont := runCallback_continues h.started hcallbacks hrun
    exact ⟨h.runCallback hcallbacks hrun, fun _ => hcont.newPanid⟩
  | alarm k =>
    obtain ⟨task, htask, heq⟩ := map_eq_some_iff.mp hstep
    obtain ⟨rfl, rfl⟩ := Prod.mk.inj heq
    have hcont := runAlarm_continues htask
    rw [announcedBy_none, append_nil]
    exact ⟨h.continues hcont (runAlarm_sameUpdates k task), fun _ => hcont.newPanid⟩
  | grant k param =>
    obtain ⟨task, htask, heq⟩ := map_eq_some_iff.mp hstep
    obtain ⟨rfl, rfl⟩ := Prod.mk.inj heq
    have hcont := @runGrant_continues node _ param task htask
    rw [announcedBy_none, append_nil]
    exact ⟨h.continues hcont (runGrant_sameUpdates k param task), fun _ => hcont.newPanid⟩

end ManagerSound

structure RouterSound (announced : List UInt16) (node : PanidNode) : Prop where
  started : node.Started
  managed : node.device.nwkManagerAddr ≠ node.device.shortAddr
  noUpdates : ∀ entry ∈ node.callbacks, isUpdate entry = false
  heard_lt : ∀ n ∈ node.heard, n < announced.length
  target : ∀ n ∈ node.heard, (∀ m ∈ node.heard, m ≤ n) → announced[n]? = some node.target

namespace RouterSound

variable {announced : List UInt16}

theorem continues (h : RouterSound announced node) (hcont : node.Continues next)
    (hsame : node.SameUpdates next) : RouterSound announced next where
  started := hcont.started h.started
  managed := by
    rw [hcont.nwkManagerAddr, hcont.shortAddr]
    exact h.managed
  noUpdates entry hmem := by
    by_contra hupdate
    rw [Bool.not_eq_false] at hupdate
    have hold := h.noUpdates entry ((hsame entry hupdate).mp hmem)
    rw [hupdate] at hold
    contradiction
  heard_lt := hcont.heard ▸ h.heard_lt
  target := by
    rw [hcont.heard, hcont.target]
    exact h.target

theorem append (h : RouterSound announced node) (later : List UInt16) :
    RouterSound (announced ++ later) node where
  started := h.started
  managed := h.managed
  noUpdates := h.noUpdates
  heard_lt n hn := by
    rw [length_append]
    exact Nat.lt_add_right _ (h.heard_lt n hn)
  target n hn hmax := by
    rw [List.getElem?_append_left (h.heard_lt n hn)]
    exact h.target n hn hmax

variable {param : ℕ}

theorem runCallback {rest : List (PanidCallback × ℕ)} {task : PanidCallback}
    {sent : Option PanidCommand} (h : RouterSound announced node)
    (hcallbacks : node.callbacks = (task, param) :: rest)
    (hrun : PanidNode.runCallback { node with callbacks := rest } param task =
      some (next, sent)) :
    RouterSound announced next := by
  have htask := h.noUpdates (task, param) (hcallbacks ▸ mem_cons_self)
  exact h.continues (runCallback_continues h.started hcallbacks hrun)
    (runCallback_sameUpdates hcallbacks htask hrun).1

theorem scheduleNetworkReport {panid : UInt16} (h : RouterSound announced node)
    (hquiet : node.device.panidConflict = false → node.SettingPanid →
      node.device.newPanid = 0) :
    RouterSound announced (node.handled
        (zbPanidConflictScheduleNetworkReport node.device param panid)) := by
  unfold zbPanidConflictScheduleNetworkReport
  split
  · rwa [handled_freeBuf]
  · split
    · refine h.continues ?_ ((SameUpdates.refl node).handled ?_)
      · refine ⟨target_congr ?_ rfl ?_ rfl, rfl, rfl, rfl, rfl, rfl⟩
        · rw [handled_settingPanid]
          simp [alarm?, grant?]
        · simp [callback?]
      · simp [callback?]
    · rename_i hfresh
      rw [Bool.not_eq_true] at hfresh
      have hcalls : ∀ result : PanidDevice × List PanidCall,
          result.2 = [.alarm (.sendNetworkReport param)] →
            ((node.handled result).SettingPanid ↔ node.SettingPanid) ∧
              (node.handled result).starts = node.starts := by
        intro result hresult
        rw [handled_settingPanid, handled_starts, hresult]
        simp [alarm?, grant?, callback?]
      obtain ⟨hsetting, hstarts⟩ := hcalls (_, _) rfl
      refine ⟨⟨h.started.shortAddr, h.started.joinedPro⟩, h.managed, ?_, h.heard_lt, ?_⟩
      · intro entry hmem
        rw [handled_callbacks] at hmem
        simp only [filterMap_cons, filterMap_nil, callback?, append_nil] at hmem
        exact h.noUpdates entry hmem
      · intro n hn hmax
        rw [h.target n hn hmax]
        congr 1
        by_cases hset : node.SettingPanid
        · rw [target_of_setting hset, target_of_setting (hsetting.mpr hset),
            hquiet hfresh hset]
          rfl
        · rw [target_of_not_setting hset,
            target_of_not_setting (mt hsetting.mp hset), hstarts]
          rfl

theorem beacon {draws : List UInt16} {beacon : ReceivedBeacon}
    {result : PanidDevice × List PanidCall}
    (h : RouterSound announced node)
    (hquiet : node.device.Conflicts beacon →
      node.device.panidConflict = false → node.SettingPanid → node.device.newPanid = 0)
    (hresult : zbMlmeBeaconNotifyIndication draws node.device param beacon = some result) :
    RouterSound announced (node.handled result) := by
  unfold zbMlmeBeaconNotifyIndication at hresult
  by_cases hconflicts : node.device.Conflicts beacon
  · rw [if_pos hconflicts, if_neg h.managed] at hresult
    obtain rfl := some.inj hresult
    exact h.scheduleNetworkReport (hquiet hconflicts)
  · rw [if_neg hconflicts] at hresult
    obtain rfl := some.inj hresult
    rwa [handled_freeBuf]

theorem receiveUpdate
    {param number : ℕ} {cmd : NwkUpdateCmd} (h : RouterSound announced node)
    (hcopy : announced[number]? = some cmd.newPanid)
    (horder : ∀ n ∈ node.heard, number < n → announced[n]? = some cmd.newPanid) :
    RouterSound announced (node.receiveUpdate param number cmd) := by
  unfold PanidNode.receiveUpdate nwkUpdateIndication
  by_cases haccepts : node.device.Accepts cmd
  · rw [if_pos haccepts, if_pos haccepts]
    refine ⟨⟨h.started.shortAddr, h.started.joinedPro⟩, h.managed, ?_, ?_, ?_⟩
    · intro entry hmem
      rw [handled_callbacks] at hmem
      simp only [zbPanidConflictNetworkUpdateRecv, filterMap_cons,
        filterMap_nil, callback?, append_nil] at hmem
      exact h.noUpdates entry hmem
    · intro n hn
      rcases mem_cons.mp hn with rfl | hold
      · exact (List.getElem?_eq_some_iff.mp hcopy).1
      · exact h.heard_lt n hold
    · intro n hn hmax
      rw [target_of_setting]
      · rcases mem_cons.mp hn with rfl | hold
        · exact hcopy
        · rcases (hmax number mem_cons_self).lt_or_eq with hlt | rfl
          · exact horder n hold hlt
          · exact hcopy
      · exact Or.inl (mem_append_right _ mem_cons_self)
  · rw [if_neg haccepts, if_neg haccepts, handled_freeBuf]
    exact h

theorem step {input : PanidInput} {sent : Option PanidCommand}
    (h : RouterSound announced node)
    (hquiet : ∀ draws param beacon, input = .beacon draws param beacon →
      node.device.Conflicts beacon → node.device.panidConflict = false →
        node.SettingPanid → node.device.newPanid = 0)
    (hstep : node.step input = some (next, sent)) :
    RouterSound announced next ∧ ∀ cmd, sent ≠ some (.update cmd) := by
  cases input with
  | beacon draws param beacon =>
    obtain ⟨result, hresult, heq⟩ := map_eq_some_iff.mp hstep
    obtain ⟨rfl, rfl⟩ := Prod.mk.inj heq
    exact ⟨h.beacon (hquiet draws param beacon rfl) hresult, fun _ => by simp⟩
  | callback =>
    obtain ⟨task, param, rest, hcallbacks, hrun⟩ := step_callback hstep
    have htask := h.noUpdates (task, param) (hcallbacks ▸ mem_cons_self)
    exact ⟨h.runCallback hcallbacks hrun,
      (runCallback_sameUpdates hcallbacks htask hrun).2⟩
  | alarm k =>
    obtain ⟨task, htask, heq⟩ := map_eq_some_iff.mp hstep
    obtain ⟨rfl, rfl⟩ := Prod.mk.inj heq
    exact ⟨h.continues (runAlarm_continues htask)
      (runAlarm_sameUpdates k task), fun _ => by simp⟩
  | grant k param =>
    obtain ⟨task, htask, heq⟩ := map_eq_some_iff.mp hstep
    obtain ⟨rfl, rfl⟩ := Prod.mk.inj heq
    have hcont := @runGrant_continues node _ param task htask
    exact ⟨h.continues hcont (runGrant_sameUpdates k param task), fun _ => by simp⟩

end RouterSound

end PanidNode

namespace PanidNetwork

open PanidNode

variable {manager : ℕ} {routers : List ℕ}

structure Sound (manager : ℕ) (routers : List ℕ) (net : PanidNetwork) : Prop where
  manager_notMem : manager ∉ routers
  managerSound : ManagerSound net.announced (net.node manager)
  routerSound : ∀ r ∈ routers, RouterSound net.announced (net.node r)
  copies : ∀ copy ∈ net.updates, copy.receiver ∈ routers ∧
    net.announced[copy.number]? = some copy.cmd.newPanid

theorem Formed.sound {net : PanidNetwork} (h : Formed manager routers net) :
    Sound manager routers net where
  manager_notMem := h.manager_notMem
  managerSound :=
    { started := ⟨(h.started _ mem_cons_self).1, (h.started _ mem_cons_self).2⟩
      managed := (h.managed _ mem_cons_self).mpr rfl
      forwards := by simp [h.callbacks _ mem_cons_self]
      target := by simp [h.announced, UpdatePending, h.callbacks _ mem_cons_self]
      latest := by simp [h.announced] }
  routerSound r hr :=
    { started := ⟨(h.started _ (mem_cons_of_mem _ hr)).1,
        (h.started _ (mem_cons_of_mem _ hr)).2⟩
      managed := fun heq => h.manager_notMem
        ((h.managed _ (mem_cons_of_mem _ hr)).mp heq ▸ hr)
      noUpdates := by simp [h.callbacks _ (mem_cons_of_mem _ hr)]
      heard_lt := by simp [h.heard _ (mem_cons_of_mem _ hr)]
      target := by simp [h.heard _ (mem_cons_of_mem _ hr)] }
  copies := by simp [h.updates]

/-! ## Steps of the network -/

@[simp] theorem send_node (net : PanidNetwork) (sent : Option PanidCommand) :
    (net.send routers sent).node = net.node := by
  unfold send
  split <;> rfl

@[simp] theorem send_announced (net : PanidNetwork) (sent : Option PanidCommand) :
    (net.send routers sent).announced = net.announced ++ announcedBy sent := by
  unfold send
  split
  · simp [announcedBy]
  · simp [announcedBy]
  · rfl

@[simp] theorem setNode_announced (net : PanidNetwork) (d : ℕ) (node : PanidNode) :
    (net.setNode d node).announced = net.announced := rfl

@[simp] theorem setNode_self (net : PanidNetwork) (d : ℕ) (node : PanidNode) :
    (net.setNode d node).node d = node := Function.update_self ..

theorem setNode_of_ne (net : PanidNetwork) {d e : ℕ} (node : PanidNode) (hne : e ≠ d) :
    (net.setNode d node).node e = net.node e := Function.update_of_ne hne ..

namespace Sound

variable {net next : PanidNetwork}

section

variable (h : Sound manager routers net)

include h

theorem copies_send (d : ℕ) (node : PanidNode) (sent : Option PanidCommand) :
    ∀ copy ∈ ((net.setNode d node).send routers sent).updates,
      copy.receiver ∈ routers ∧ (net.announced ++ announcedBy sent)[copy.number]? =
          some copy.cmd.newPanid := by
  intro copy hmem
  have hold : copy ∈ net.updates → copy.receiver ∈ routers ∧
      (net.announced ++ announcedBy sent)[copy.number]? =
        some copy.cmd.newPanid := by
    intro hcopy
    obtain ⟨hreceiver, hnumber⟩ := h.copies copy hcopy
    have hlt := (List.getElem?_eq_some_iff.mp hnumber).1
    exact ⟨hreceiver, (List.getElem?_append_left hlt).trans hnumber⟩
  unfold send at hmem
  split at hmem
  · exact hold hmem
  · exact hold hmem
  · rcases mem_append.mp hmem with hcopy | hnew
    · exact hold hcopy
    · obtain ⟨r, hr, rfl⟩ := mem_map.mp hnew
      refine ⟨hr, ?_⟩
      simp [announcedBy]

theorem act {d : ℕ} {input : PanidInput} {result : PanidNode × Option PanidCommand}
    (horder : net.Orderly manager (.act d input))
    (hd : d ∈ manager :: routers)
    (hresult : (net.node d).step input = some result) :
    Sound manager routers ((net.setNode d result.1).send routers result.2) ∧
      ((net.node manager).Resolving → (((net.setNode d result.1).send routers
          result.2).node manager).device.newPanid =
            (net.node manager).device.newPanid) := by
  obtain ⟨node, sent⟩ := result
  by_cases hmanager : d = manager
  · obtain rfl := hmanager
    have hsame : ∀ draws param beacon, input = .beacon draws param beacon →
        (net.node d).device.Conflicts beacon → (net.node d).Resolving →
          chooseNewPanid (.replicate 8 0xFFFF) draws =
            some (net.node d).device.newPanid := by
      rintro draws param beacon rfl hconflicts hresolving
      have hcase := horder hconflicts
      rw [if_pos rfl] at hcase
      exact hcase hresolving
    obtain ⟨hsound, hkeep⟩ := h.managerSound.step hsame hresult
    refine ⟨⟨h.manager_notMem, ?_, ?_, ?_⟩, ?_⟩
    · simpa using hsound
    · intro r hr
      have hne : r ≠ d := fun heq => h.manager_notMem (heq ▸ hr)
      rw [send_node, send_announced, setNode_of_ne net node hne]
      exact (h.routerSound r hr).append _
    · simpa using h.copies_send d node sent
    · simpa using hkeep
  · have hrouter : d ∈ routers := mem_of_ne_of_mem hmanager hd
    have hquiet : ∀ draws param beacon, input = .beacon draws param beacon →
        (net.node d).device.Conflicts beacon → (net.node d).device.panidConflict = false →
            (net.node d).SettingPanid → (net.node d).device.newPanid = 0 := by
      rintro draws param beacon rfl hconflicts
      have hcase := horder hconflicts
      rwa [if_neg hmanager] at hcase
    obtain ⟨hsound, hsent⟩ := (h.routerSound d hrouter).step hquiet hresult
    have hnone := announcedBy_eq_nil hsent
    have hcopies := h.copies_send d node sent
    rw [hnone, append_nil] at hcopies
    refine ⟨⟨h.manager_notMem, ?_, ?_, ?_⟩, ?_⟩
    · rw [send_node, send_announced, setNode_announced, hnone,
        append_nil, setNode_of_ne net node (Ne.symm hmanager)]
      exact h.managerSound
    · intro r hr
      rw [send_node, send_announced, setNode_announced, hnone, append_nil]
      by_cases hself : r = d
      · obtain rfl := hself
        rw [setNode_self]
        exact hsound
      · rw [setNode_of_ne net node hself]
        exact h.routerSound r hr
    · rw [send_announced, setNode_announced, hnone, append_nil]
      exact hcopies
    · intro _
      rw [send_node, setNode_of_ne net node (Ne.symm hmanager)]

theorem deliverUpdate {k param : ℕ} {copy : UpdateCopy}
    (horder : net.Orderly manager (.deliverUpdate k param))
    (hcopy : net.updates[k]? = some copy) :
    Sound manager routers
        ({ net with updates := net.updates.eraseIdx k }.setNode copy.receiver
          ((net.node copy.receiver).receiveUpdate param copy.number copy.cmd)) ∧
      (({ net with updates := net.updates.eraseIdx k }.setNode copy.receiver
          ((net.node copy.receiver).receiveUpdate param copy.number
            copy.cmd)).node manager).device.newPanid =
              (net.node manager).device.newPanid := by
  obtain ⟨hreceiver, hnumber⟩ := h.copies copy (mem_of_getElem? hcopy)
  have hne : manager ≠ copy.receiver := fun heq => h.manager_notMem (heq ▸ hreceiver)
  refine ⟨⟨h.manager_notMem, ?_, ?_, ?_⟩, ?_⟩
  · rw [setNode_of_ne _ _ hne]
    exact h.managerSound
  · intro r hr
    by_cases hself : r = copy.receiver
    · obtain rfl := hself
      rw [setNode_self]
      exact (h.routerSound _ hr).receiveUpdate hnumber (horder copy hcopy)
    · rw [setNode_of_ne _ _ hself]
      exact h.routerSound r hr
  · intro other hother
    exact h.copies other (mem_of_mem_eraseIdx hother)
  · rw [setNode_of_ne _ _ hne]

theorem deliverReport {k param : ℕ} {draws : List UInt16} {report : NwkReportCmd}
    {result : PanidDevice × List PanidCall}
    (horder : net.Orderly manager (.deliverReport k draws param))
    (hreport : net.reports[k]? = some report)
    (hresult : nwkReportIndication draws (net.node manager).device param
      report = some result) :
    Sound manager routers ({ net with reports := net.reports.eraseIdx k }.setNode manager
          ((net.node manager).handled result)) ∧
      ((net.node manager).Resolving →
        (({ net with reports := net.reports.eraseIdx k }.setNode manager
          ((net.node manager).handled result)).node manager).device.newPanid =
            (net.node manager).device.newPanid) := by
  obtain ⟨hsound, hkeep⟩ := h.managerSound.report (horder report hreport) hresult
  refine ⟨⟨h.manager_notMem, ?_, ?_, h.copies⟩, ?_⟩
  · rw [setNode_self]
    exact hsound
  · intro r hr
    have hne : r ≠ manager := fun heq => h.manager_notMem (heq ▸ hr)
    rw [setNode_of_ne _ _ hne]
    exact h.routerSound r hr
  · rw [setNode_self]
    exact hkeep

theorem step {event : PanidEvent} (horder : net.Orderly manager event)
    (hstep : net.step manager routers event = some next) :
    Sound manager routers next ∧ ((net.node manager).Resolving →
        (next.node manager).device.newPanid = (net.node manager).device.newPanid) := by
  cases event with
  | act d input =>
    obtain ⟨hd, hstep⟩ := ite_none_right_eq_some.mp hstep
    obtain ⟨result, hresult, rfl⟩ := map_eq_some_iff.mp hstep
    exact h.act horder hd hresult
  | deliverUpdate k param =>
    obtain ⟨copy, hcopy, rfl⟩ := map_eq_some_iff.mp hstep
    obtain ⟨hsound, hkeep⟩ := h.deliverUpdate horder hcopy
    exact ⟨hsound, fun _ => hkeep⟩
  | loseUpdate k =>
    obtain ⟨copy, hcopy, rfl⟩ := map_eq_some_iff.mp hstep
    exact ⟨⟨h.manager_notMem, h.managerSound, h.routerSound,
      fun other hother => h.copies other (mem_of_mem_eraseIdx hother)⟩,
      fun _ => rfl⟩
  | deliverReport k draws param =>
    obtain ⟨report, hreport, hstep⟩ := bind_eq_some_iff.mp hstep
    obtain ⟨result, hresult, hnext⟩ := bind_eq_some_iff.mp hstep
    obtain rfl := some.inj hnext
    exact h.deliverReport horder hreport hresult
  | loseReport k =>
    obtain ⟨report, hreport, rfl⟩ := map_eq_some_iff.mp hstep
    exact ⟨⟨h.manager_notMem, h.managerSound, h.routerSound, h.copies⟩, fun _ => rfl⟩

theorem target_of_reached {d : ℕ} (hmanager : ¬ (net.node manager).UpdatePending)
    (hannounced : net.announced ≠ []) (hd : d ∈ manager :: routers)
    (hreached : net.Reached manager d) :
    (net.node d).target = (net.node manager).device.newPanid := by
  rcases hreached with rfl | ⟨n, hn, hlast⟩
  · exact h.managerSound.target (Or.inl hannounced)
  · by_cases hself : d = manager
    · obtain rfl := hself
      exact h.managerSound.target (Or.inl hannounced)
    · have hrouter := h.routerSound d (mem_of_ne_of_mem hself hd)
      have hmax : ∀ m ∈ (net.node d).heard, m ≤ n := by
        intro m hm
        have := hrouter.heard_lt m hm
        omega
      have htarget := hrouter.target n hn hmax
      have hgetLast : net.announced.getLast? = net.announced[n]? := by
        rw [List.getLast?_eq_getElem?, ← hlast, Nat.add_sub_cancel]
      exact h.managerSound.latest hmanager _ (hgetLast.trans htarget)

theorem agrees : net.Agrees manager routers := by
  rintro ⟨-, hquiet⟩ d hd e he hreachedD hreachedE
  have hpan : ∀ f ∈ manager :: routers,
      (net.node f).target = (net.node f).device.panId := by
    intro f hf
    obtain ⟨-, hset, hstarts⟩ := hquiet f hf
    rw [target_of_not_setting hset, hstarts]
    rfl
  by_cases hannounced : net.announced = []
  · -- nothing was announced, so that only the manager counts
    have hself : ∀ f, net.Reached manager f → f = manager := by
      rintro f (rfl | ⟨n, -, hlast⟩)
      · rfl
      · simp [hannounced] at hlast
    rw [hself d hreachedD, hself e hreachedE]
  · have hmanager := (hquiet manager mem_cons_self).1
    rw [← hpan d hd, ← hpan e he, h.target_of_reached hmanager hannounced hd hreachedD,
      h.target_of_reached hmanager hannounced he hreachedE]

end

end Sound

/-- In an orderly run the devices agree whenever nothing is pending, and a
resolution which is in progress keeps the identifier which it has chosen. -/
theorem agreement_of_orderly {net : PanidNetwork} {events : List PanidEvent}
    (hformed : Formed manager routers net)
    (horderly : AlongRun (step manager routers) (Orderly manager) net events) :
    EveryState (step manager routers) (Agrees manager routers) net events ∧
      AlongRun (step manager routers) (KeepsChoice manager routers) net
        events := by
  have hstep : ∀ net event next, Sound manager routers net → Orderly manager net event →
        step manager routers net event = some next →
          Sound manager routers next :=
    fun _ _ _ hsound horder hnext => (hsound.step horder hnext).1
  refine ⟨?_, ?_⟩
  · exact everyState_of_invariant hstep (fun _ => Sound.agrees) hformed.sound
      horderly
  · refine alongRun_of_invariant ?_ hstep hformed.sound horderly
    intro net event hsound horder hresolving next hnext
    exact (hsound.step horder hnext).2 hresolving

end PanidNetwork

def quietNetwork : PanidNetwork where
  node d := ⟨runningDevice (.ofNat d), [], [], [], []⟩
  updates := []
  reports := []
  announced := []

theorem quietNetwork_formed : quietNetwork.Formed 0 [1] where
  manager_notMem := by decide
  updates := rfl
  reports := rfl
  announced := rfl
  callbacks := by decide
  alarms := by decide
  grants := by decide
  heard := by decide
  started := by decide
  managed := by decide

def foreignBeacon : ReceivedBeacon := ⟨0x1AAA, some 9⟩

def oneResolution : List PanidEvent :=
  [.act 0 (.beacon [0x1BBB] 1 foreignBeacon), .act 0 .callback,
    .act 0 .callback, .deliverUpdate 0 2, .act 0 (.alarm 0),
    .act 1 (.alarm 0), .act 0 (.grant 1 3), .act 1 (.grant 1 3),
    .act 0 .callback, .act 1 .callback]

open PanidNetwork in
theorem agreement_of_orderly_oneResolution :
    EveryState (step 0 [1]) (Agrees 0 [1]) quietNetwork oneResolution ∧
      AlongRun (step 0 [1]) (KeepsChoice 0 [1]) quietNetwork oneResolution :=
  agreement_of_orderly quietNetwork_formed (by decide +kernel)

def twoResolutions : List PanidEvent :=
  [.act 0 (.beacon [0x1BBB] 1 foreignBeacon), .act 0 .callback,
    .act 0 .callback, .act 0 (.beacon [0x1CCC] 2 foreignBeacon),
    .act 0 .callback, .act 0 .callback, .deliverUpdate 1 3,
    .deliverUpdate 0 4, .act 0 (.alarm 0), .act 0 (.alarm 0),
    .act 1 (.alarm 0), .act 1 (.alarm 0), .act 0 (.grant 2 5),
    .act 0 (.grant 2 6), .act 1 (.grant 2 5), .act 1 (.grant 2 6),
    .act 0 .callback, .act 0 .callback, .act 1 .callback, .act 1 .callback]

open PanidNetwork in
/-- The manager ends up with `0x1CCC` and the router with `0x1BBB`. -/
theorem not_agreement_twoResolutions :
    ¬ ∀ manager routers net events, Formed manager routers net →
        EveryState (step manager routers) (Agrees manager routers) net events ∧
          AlongRun (step manager routers) (KeepsChoice manager routers) net
            events := by
  intro hall
  obtain ⟨hagrees, -⟩ := hall 0 [1] quietNetwork twoResolutions quietNetwork_formed
  exact absurd hagrees (by decide +kernel)

end Zboss
