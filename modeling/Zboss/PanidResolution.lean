import Zboss.PanidConflict
import Zboss.TransitionSystem

/-!
# Conflict resolution in a network

The manager and the routers of one network.  Each runs its callbacks in their
order and its alarms and waiting buffer requests in any order; network update
commands and reports travel independently and may be lost.
-/

namespace Zboss

structure PanidNode where
  device : PanidDevice
  callbacks : List (PanidCallback × ℕ)
  alarms : List PanidAlarm
  grants : List PanidGrant
  heard : List ℕ

namespace PanidCall

def callback? : PanidCall → Option (PanidCallback × ℕ)
  | .callback task param => some (task, param)
  | _ => none

def alarm? : PanidCall → Option PanidAlarm
  | .alarm task => some task
  | _ => none

def grant? : PanidCall → Option PanidGrant
  | .getOutBuf task => some task
  | _ => none

end PanidCall

inductive PanidInput where
  | beacon (draws : List UInt16) (param : ℕ) (beacon : ReceivedBeacon)
  | callback
  | alarm (k : ℕ)
  | grant (k param : ℕ)

namespace PanidNode

def handled (node : PanidNode) (result : PanidDevice × List PanidCall) : PanidNode :=
  { node with
    device := result.1
    callbacks := node.callbacks ++ result.2.filterMap PanidCall.callback?
    alarms := node.alarms ++ result.2.filterMap PanidCall.alarm?
    grants := node.grants ++ result.2.filterMap PanidCall.grant? }

def runCallback (node : PanidNode) (param : ℕ) :
    PanidCallback → Option (PanidNode × Option PanidCommand)
  | .sendNwkUpdate =>
      some (node.handled (zbPanidConflictSendNwkUpdate node.device param), none)
  | .nwkForward command => some (node, some command)
  | .nlmeStatusIndication _ => some (node, none)
  | .mlmeStartRequest panId =>
      some (node.handled (zbMlmeStartRequest node.device panId param), none)
  | .mlmeStartConfirm =>
      (zbMlmeStartConfirm node.device param).map fun result => (node.handled result, none)

def runAlarm (node : PanidNode) : PanidAlarm → PanidNode
  | .sendNetworkReport param =>
      node.handled (zbPanidConflictSendNetworkReport node.device param)
  | .setPanid => node.handled (zbPanidConflictSetPanidAlarm node.device)

def runGrant (node : PanidNode) (param : ℕ) : PanidGrant → PanidNode
  | .sendStatusInd => node.handled (zbPanidConflictSendStatusInd node.device param)
  | .setPanid => node.handled (zbPanidConflictSetPanid node.device param)

def step (node : PanidNode) : PanidInput → Option (PanidNode × Option PanidCommand)
  | .beacon draws param beacon =>
      (zbMlmeBeaconNotifyIndication draws node.device param beacon).map
        fun result => (node.handled result, none)
  | .callback =>
      match node.callbacks with
      | [] => none
      | (task, param) :: rest => runCallback { node with callbacks := rest } param task
  | .alarm k =>
      node.alarms[k]?.map fun task =>
        (runAlarm { node with alarms := node.alarms.eraseIdx k } task, none)
  | .grant k param =>
      node.grants[k]?.map fun task =>
        (runGrant { node with grants := node.grants.eraseIdx k } param task,
          none)

def receiveUpdate (node : PanidNode) (param number : ℕ) (cmd : NwkUpdateCmd) : PanidNode :=
  let next := node.handled (nwkUpdateIndication .router node.device param cmd)
  if node.device.Accepts cmd then { next with heard := number :: node.heard }
  else next

def isUpdate : PanidCallback × ℕ → Bool
  | (.sendNwkUpdate, _) => true
  | (.nwkForward (.update _), _) => true
  | _ => false

def startedPanid : PanidCallback × ℕ → Option UInt16
  | (.mlmeStartRequest panId, _) => some panId
  | _ => none

def isStartConfirm : PanidCallback × ℕ → Bool
  | (.mlmeStartConfirm, _) => true
  | _ => false

def UpdatePending (node : PanidNode) : Prop :=
  ∃ entry ∈ node.callbacks, isUpdate entry

def SettingPanid (node : PanidNode) : Prop :=
  .setPanid ∈ node.alarms ∨ .setPanid ∈ node.grants

def starts (node : PanidNode) : List UInt16 :=
  node.callbacks.filterMap startedPanid

def Resolving (node : PanidNode) : Prop :=
  node.UpdatePending ∨ node.SettingPanid ∨ node.starts ≠ [] ∨
    ∃ entry ∈ node.callbacks, isStartConfirm entry

instance (node : PanidNode) : Decidable node.UpdatePending :=
  inferInstanceAs (Decidable (∃ entry ∈ node.callbacks, _))

instance (node : PanidNode) : Decidable node.SettingPanid :=
  inferInstanceAs (Decidable (_ ∨ _))

instance (node : PanidNode) : Decidable node.Resolving :=
  inferInstanceAs (Decidable (_ ∨ _ ∨ _ ∨ ∃ entry ∈ node.callbacks, _))

end PanidNode

structure UpdateCopy where
  receiver : ℕ
  number : ℕ
  cmd : NwkUpdateCmd

/-- `announced` are the identifiers in the network update commands sent so
far, in their order. -/
structure PanidNetwork where
  node : ℕ → PanidNode
  updates : List UpdateCopy
  reports : List NwkReportCmd
  announced : List UInt16

inductive PanidEvent where
  | act (device : ℕ) (input : PanidInput)
  | deliverUpdate (k param : ℕ)
  | loseUpdate (k : ℕ)
  | deliverReport (k : ℕ) (draws : List UInt16) (param : ℕ)
  | loseReport (k : ℕ)

namespace PanidNetwork

variable (manager : ℕ) (routers : List ℕ)

def send (net : PanidNetwork) : Option PanidCommand → PanidNetwork
  | none => net
  | some (.report _ cmd) => { net with reports := net.reports ++ [cmd] }
  | some (.update cmd) =>
      { net with
        updates := net.updates ++ routers.map fun r => ⟨r, net.announced.length, cmd⟩
        announced := net.announced ++ [cmd.newPanid] }

def setNode (net : PanidNetwork) (d : ℕ) (node : PanidNode) : PanidNetwork :=
  { net with node := Function.update net.node d node }

def step (net : PanidNetwork) : PanidEvent → Option PanidNetwork
  | .act d input =>
      if d ∈ manager :: routers then
        ((net.node d).step input).map fun result =>
          (net.setNode d result.1).send routers result.2
      else none
  | .deliverUpdate k param =>
      net.updates[k]?.map fun copy =>
        { net with updates := net.updates.eraseIdx k }.setNode copy.receiver
          ((net.node copy.receiver).receiveUpdate param copy.number copy.cmd)
  | .loseUpdate k =>
      net.updates[k]?.map fun _ => { net with updates := net.updates.eraseIdx k }
  | .deliverReport k draws param => do
      let report ← net.reports[k]?
      let result ←
        nwkReportIndication draws (net.node manager).device param report
      some ({ net with reports := net.reports.eraseIdx k }.setNode manager
          ((net.node manager).handled result))
  | .loseReport k =>
      net.reports[k]?.map fun _ => { net with reports := net.reports.eraseIdx k }

structure Formed (net : PanidNetwork) : Prop where
  manager_notMem : manager ∉ routers
  updates : net.updates = []
  reports : net.reports = []
  announced : net.announced = []
  callbacks : ∀ d ∈ manager :: routers, (net.node d).callbacks = []
  alarms : ∀ d ∈ manager :: routers, (net.node d).alarms = []
  grants : ∀ d ∈ manager :: routers, (net.node d).grants = []
  heard : ∀ d ∈ manager :: routers, (net.node d).heard = []
  started : ∀ d ∈ manager :: routers, (net.node d).device.shortAddr ≠ macShortAddrNoValue ∧
      (net.node d).device.joinedPro = false
  managed : ∀ d ∈ manager :: routers,
    (net.node d).device.nwkManagerAddr = (net.node d).device.shortAddr ↔ d = manager

def Settled (net : PanidNetwork) : Prop :=
  net.updates = [] ∧ ∀ d ∈ manager :: routers,
      ¬ (net.node d).UpdatePending ∧ ¬ (net.node d).SettingPanid ∧ (net.node d).starts = []

def Reached (net : PanidNetwork) (d : ℕ) : Prop :=
  d = manager ∨ ∃ n ∈ (net.node d).heard, n + 1 = net.announced.length

/-- Once nothing is pending, the devices which received the updates have the
same PAN identifier. -/
def Agrees (net : PanidNetwork) : Prop :=
  net.Settled manager routers → ∀ d ∈ manager :: routers, ∀ e ∈ manager :: routers,
      net.Reached manager d → net.Reached manager e →
        (net.node d).device.panId = (net.node e).device.panId

def KeepsChoice (net : PanidNetwork) (event : PanidEvent) : Prop :=
  (net.node manager).Resolving → ∀ next, net.step manager routers event = some next →
      (next.node manager).device.newPanid = (net.node manager).device.newPanid

instance (net : PanidNetwork) : Decidable (net.Settled manager routers) :=
  inferInstanceAs (Decidable (_ ∧ _))

instance (net : PanidNetwork) (d : ℕ) : Decidable (net.Reached manager d) :=
  inferInstanceAs (Decidable (_ ∨ ∃ n ∈ (net.node d).heard, _))

instance (net : PanidNetwork) : Decidable (net.Agrees manager routers) :=
  inferInstanceAs (Decidable (_ → _))

def DrawsSame (net : PanidNetwork) (known : KnownPanids) (draws : List UInt16) : Prop :=
  chooseNewPanid known draws = some (net.node manager).device.newPanid

/-- A report which `zb_panid_conflict_got_network_report` does not drop. -/
def StartsResolution (device : PanidDevice) (report : NwkReportCmd) : Prop :=
  nwkReportIsPanidConflict report.commandOptions ∧ report.epid = device.extPanId ∧
      ¬ (device.state = .panidConflictResolution ∨ device.panidConflict)

/-- Neither a beacon nor a report makes the manager choose again during a
resolution; no conflicting beacon makes a router start a report, and clear
its `new_panid`, while it is about to set the identifier; and no update
overtakes another one with a different identifier. -/
def Orderly (net : PanidNetwork) : PanidEvent → Prop
  | .act d (.beacon draws _ beacon) =>
      (net.node d).device.Conflicts beacon → if d = manager then
          (net.node d).Resolving → net.DrawsSame manager (.replicate 8 0xFFFF) draws
        else
          (net.node d).device.panidConflict = false →
            (net.node d).SettingPanid → (net.node d).device.newPanid = 0
  | .deliverReport k draws _ =>
      ∀ report, net.reports[k]? = some report →
        StartsResolution (net.node manager).device report → (net.node manager).Resolving →
            net.DrawsSame manager (knownOfReport report.panids
                (min (nwkReportInfoCount report.commandOptions) panidTableSize)) draws
  | .deliverUpdate k _ =>
      ∀ copy, net.updates[k]? = some copy →
        ∀ n ∈ (net.node copy.receiver).heard, copy.number < n →
          net.announced[n]? = some copy.cmd.newPanid
  | _ => True

instance (net : PanidNetwork) (known : KnownPanids) (draws : List UInt16) :
    Decidable (net.DrawsSame manager known draws) :=
  inferInstanceAs (Decidable (_ = _))

instance (device : PanidDevice) (report : NwkReportCmd) :
    Decidable (StartsResolution device report) :=
  inferInstanceAs (Decidable (_ ∧ _ ∧ _))

instance decidableOrderly (net : PanidNetwork) (event : PanidEvent) :
    Decidable (net.Orderly manager event) :=
  match event with
  | .act d (.beacon _ _ beacon) =>
      inferInstanceAs (Decidable ((net.node d).device.Conflicts beacon →
        if d = manager then _ → _ else _ → _ → _))
  | .act _ .callback => isTrue trivial
  | .act _ (.alarm _) => isTrue trivial
  | .act _ (.grant _ _) => isTrue trivial
  | .deliverReport k _ _ =>
      inferInstanceAs (Decidable (∀ report ∈ net.reports[k]?, _ → _ → _))
  | .deliverUpdate k _ =>
      inferInstanceAs (Decidable (∀ copy ∈ net.updates[k]?,
        ∀ n ∈ (net.node copy.receiver).heard, _ → _))
  | .loseUpdate _ => isTrue trivial
  | .loseReport _ => isTrue trivial

end PanidNetwork

end Zboss
