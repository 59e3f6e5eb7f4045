import Mathlib.Data.UInt

/-!
# PAN identifier conflicts

What the network manager and the routers do when a beacon of a foreign
network carries their own PAN identifier: reports to the manager, the choice
of a new identifier and its announcement by network update commands.
-/

namespace Zboss

inductive NlmeState where
  | idle
  | disc
  | formationEdScan
  | formationActiveScan
  | formation
  | router
  | edScan
  | rejoin
  | orphanScan
  | reset
  | panidConflictResolution
  deriving DecidableEq, Repr

inductive StackRole where
  | router
  | endDevice
  deriving DecidableEq, Repr

abbrev ExtPanId := UInt64

def nwkMaxDepth : ℕ := 5

structure MacBeaconPayload where
  protocolId : ℕ
  stackProfile : ℕ
  protocolVersion : ℕ
  routerCapacity : Bool
  deviceDepth : ℕ
  endDeviceCapacity : Bool
  extendedPanid : ExtPanId
  txoffset : ℕ
  nwkUpdateId : UInt8

def panidTableSize : ℕ := 8

/-- The contents of `known_panids`; zero marks a free place. -/
abbrev KnownPanids := Vector UInt16 8

/-- What a device keeps for the resolution of conflicts.  The PAN identifier
of the NIB is the one of the PIB. -/
structure PanidDevice where
  state : NlmeState
  joined : Bool
  joinedPro : Bool
  shortAddr : UInt16
  nwkManagerAddr : UInt16
  panId : UInt16
  extPanId : ExtPanId
  depth : ℕ
  updateId : UInt8
  associationPermit : Bool
  beaconPayload : MacBeaconPayload
  beaconPayloadLength : ℕ
  knownPanids : KnownPanids
  newPanid : UInt16
  panidConflict : Bool

/-- `zb_nwk_report_cmd_t` in its buffer: the identifiers are read from memory
as far as the count in the options says. -/
structure NwkReportCmd where
  commandOptions : UInt8
  epid : ExtPanId
  panids : ℕ → UInt16

structure NwkUpdateCmd where
  commandOptions : UInt8
  epid : ExtPanId
  updateId : UInt8
  newPanid : UInt16

def nwkReportInfoCount (options : UInt8) : ℕ := options.toNat % 16

def nwkReportIsPanidConflict (options : UInt8) : Prop :=
  options.toNat / 16 = 0

instance (options : UInt8) : Decidable (nwkReportIsPanidConflict options) :=
  inferInstanceAs (Decidable (_ = _))

inductive PanidCommand where
  | report (dest : UInt16) (cmd : NwkReportCmd)
  | update (cmd : NwkUpdateCmd)

inductive PanidCallback where
  | sendNwkUpdate
  | nwkForward (command : PanidCommand)
  | nlmeStatusIndication (networkAddr : UInt16)
  | mlmeStartRequest (panId : UInt16)
  | mlmeStartConfirm

inductive PanidAlarm where
  | sendNetworkReport (param : ℕ)
  | setPanid
  deriving DecidableEq

inductive PanidGrant where
  | sendStatusInd
  | setPanid
  deriving DecidableEq

inductive PanidCall where
  | freeBuf (param : ℕ)
  | callback (task : PanidCallback) (param : ℕ)
  | alarm (task : PanidAlarm)
  | getOutBuf (task : PanidGrant)

def zbNwkUpdateBeaconPayload (device : PanidDevice) : PanidDevice :=
  let open_ := device.associationPermit && decide (device.depth < nwkMaxDepth)
  { device with
    beaconPayload :=
      { protocolId := 0
        stackProfile := 1
        protocolVersion := 2
        routerCapacity := open_
        deviceDepth := device.depth % 2 ^ 4
        endDeviceCapacity := open_
        extendedPanid := device.extPanId
        txoffset := 0xFFFFFF
        nwkUpdateId := device.updateId }
    associationPermit := open_
    beaconPayloadLength := 15 }

def rememberFrom (panid : UInt16) : List UInt16 → List UInt16
  | [] => []
  | known :: rest =>
      if known = panid then known :: rest
      else if known = 0 then panid :: rest
      else known :: rememberFrom panid rest

theorem length_rememberFrom (panid : UInt16) (known : List UInt16) :
    (rememberFrom panid known).length = known.length := by
  induction known with
  | nil => rfl
  | cons head rest ih =>
    rw [rememberFrom]
    split
    · rfl
    · split
      · rfl
      · simpa using ih

def zbPanidConflictRememberPanid (device : PanidDevice) (panid : UInt16) : PanidDevice :=
  { device with
    knownPanids :=
      ⟨(rememberFrom panid device.knownPanids.toList).toArray, by
        simp [length_rememberFrom]⟩ }

/-- `known_panids` after the copy of `n` identifiers into the cleared table. -/
def knownOfReport (panids : ℕ → UInt16) (n : ℕ) : KnownPanids :=
  Vector.ofFn fun i => if i.val < n then panids i else 0

/-- The loop which draws the new identifier.  It goes on after a zero which is
not in the table. -/
def chooseNewPanid (known : KnownPanids) (draws : List UInt16) : Option UInt16 :=
  draws.find? fun draw => !(draw == 0 && !known.contains draw)

def zbPanidConflictNetworkUpdate (draws : List UInt16) (device : PanidDevice) (param : ℕ) :
    Option (PanidDevice × List PanidCall) :=
  (chooseNewPanid device.knownPanids draws).map fun newPanid =>
    (zbNwkUpdateBeaconPayload { device with newPanid := newPanid },
      [.callback .sendNwkUpdate param, .alarm .setPanid])

def zbPanidConflictGotNetworkReport
    (draws : List UInt16) (device : PanidDevice) (param : ℕ)
    (panids : ℕ → UInt16) (nPanids : ℕ) :
    Option (PanidDevice × List PanidCall) :=
  if device.state = .panidConflictResolution ∨ device.panidConflict then
    some (device, [.freeBuf param])
  else
    zbPanidConflictNetworkUpdate draws
      { device with
        knownPanids := knownOfReport panids (min nPanids panidTableSize)
        state := .idle } param

def zbPanidConflictScheduleNetworkReport
    (device : PanidDevice) (param : ℕ) (panid : UInt16) :
    PanidDevice × List PanidCall :=
  if device.panidConflict ∧ device.newPanid ≠ 0 ∧ device.newPanid ≠ panid then
    (device, [.freeBuf param])
  else if device.panidConflict then
    (zbPanidConflictRememberPanid device panid, [.freeBuf param])
  else
    ({ zbPanidConflictRememberPanid
        { device with knownPanids := .replicate 8 0 } panid with
        panidConflict := true
        newPanid := 0 },
      [.alarm (.sendNetworkReport param)])

def countPanids (known : KnownPanids) : ℕ :=
  (known.toList.takeWhile (· ≠ 0)).length

def zbPanidConflictSendNetworkReport
    (device : PanidDevice) (param : ℕ) : PanidDevice × List PanidCall :=
  if device.panidConflict ∧ device.newPanid ≠ 0 then (device, [.freeBuf param])
  else
    let n := countPanids device.knownPanids
    (device, [.callback (.nwkForward (.report device.nwkManagerAddr
          ⟨.ofNat n, device.extPanId,
            fun i => if i < n then device.knownPanids.toList.getD i 0 else 0⟩))
        param])

def zbPanidConflictSendNwkUpdate
    (device : PanidDevice) (param : ℕ) : PanidDevice × List PanidCall :=
  (device, [.callback (.nwkForward
      (.update ⟨1, device.extPanId, device.updateId, device.newPanid⟩)) param,
      .getOutBuf .sendStatusInd])

def zbPanidConflictSendStatusInd
    (device : PanidDevice) (param : ℕ) : PanidDevice × List PanidCall :=
  ({ device with panidConflict := false },
    [.callback (.nlmeStatusIndication device.newPanid) param])

def zbPanidConflictNetworkUpdateRecv
    (role : StackRole) (device : PanidDevice) (upd : NwkUpdateCmd) :
    PanidDevice × List PanidCall :=
  let device := { device with updateId := upd.updateId }
  let device :=
    match role with
    | .router => zbNwkUpdateBeaconPayload { device with updateId := device.updateId - 1 }
    | .endDevice => device
  ({ device with newPanid := upd.newPanid }, [.alarm .setPanid, .getOutBuf .sendStatusInd])

def zbPanidConflictSetPanidAlarm (device : PanidDevice) : PanidDevice × List PanidCall :=
  (device, [.getOutBuf .setPanid])

def zbPanidConflictSetPanid
    (device : PanidDevice) (param : ℕ) : PanidDevice × List PanidCall :=
  ({ device with panidConflict := false, state := .panidConflictResolution },
    [.callback (.mlmeStartRequest device.newPanid) param])

def macShortAddrNoValue : UInt16 := 0xFFFF

/-- `zb_mlme_start_request` for a request without beacons. -/
def zbMlmeStartRequest (device : PanidDevice) (panId : UInt16) (param : ℕ) :
    PanidDevice × List PanidCall :=
  if device.shortAddr ≠ macShortAddrNoValue ∧ device.joinedPro = false then
    ({ device with panId := panId }, [.callback .mlmeStartConfirm param])
  else (device, [])

/-- `zb_mlme_start_confirm` after a change of the PAN identifier -/
def zbMlmeStartConfirm (device : PanidDevice) (param : ℕ) :
    Option (PanidDevice × List PanidCall) :=
  if device.state = .panidConflictResolution then
    some ({ device with state := .idle }, [.freeBuf param])
  else none

/-- The command branch of `nwk_frame_indication` for a network report. -/
def nwkReportIndication (draws : List UInt16) (device : PanidDevice) (param : ℕ)
    (report : NwkReportCmd) : Option (PanidDevice × List PanidCall) :=
  if nwkReportIsPanidConflict report.commandOptions ∧ report.epid = device.extPanId then
    zbPanidConflictGotNetworkReport draws device param report.panids
      (nwkReportInfoCount report.commandOptions)
  else some (device, [.freeBuf param])

/-- The network update commands which `nwk_frame_indication` passes on. -/
def PanidDevice.Accepts (device : PanidDevice) (upd : NwkUpdateCmd) : Prop :=
  nwkReportIsPanidConflict upd.commandOptions ∧ upd.epid = device.extPanId

instance (device : PanidDevice) (upd : NwkUpdateCmd) :
    Decidable (device.Accepts upd) :=
  inferInstanceAs (Decidable (_ ∧ _))

/-- The command branch of `nwk_frame_indication` for a network update. -/
def nwkUpdateIndication (role : StackRole) (device : PanidDevice) (param : ℕ)
    (upd : NwkUpdateCmd) : PanidDevice × List PanidCall :=
  if device.Accepts upd then zbPanidConflictNetworkUpdateRecv role device upd
  else (device, [.freeBuf param])

structure ReceivedBeacon where
  srcPanId : UInt16
  extendedPanid : Option ExtPanId

/-- The state admits `zb_mlme_beacon_notify_indication` to look for
conflicts, and the beacon of a foreign network shows one. -/
def PanidDevice.Conflicts (device : PanidDevice) (beacon : ReceivedBeacon) : Prop :=
  device.state ≠ .disc ∧ device.state ≠ .rejoin ∧
    device.joined ∧ device.joinedPro = false ∧ beacon.srcPanId = device.panId ∧
        ∃ epid, beacon.extendedPanid = some epid ∧ epid ≠ device.extPanId

instance (device : PanidDevice) (beacon : ReceivedBeacon) :
    Decidable (device.Conflicts beacon) :=
  inferInstanceAs (Decidable (_ ∧ _ ∧ _ ∧ _ ∧ _ ∧
    ∃ epid, beacon.extendedPanid = some epid ∧ _))

/-- `zb_mlme_beacon_notify_indication` as far as it is about conflicts -/
def zbMlmeBeaconNotifyIndication (draws : List UInt16) (device : PanidDevice) (param : ℕ)
    (beacon : ReceivedBeacon) : Option (PanidDevice × List PanidCall) :=
  if device.Conflicts beacon then
    if device.nwkManagerAddr = device.shortAddr then
      zbPanidConflictNetworkUpdate draws
        { device with
          knownPanids := .replicate 8 0xFFFF
          state := .idle } param
    else some (zbPanidConflictScheduleNetworkReport device param beacon.srcPanId)
  else some (device, [.freeBuf param])

end Zboss
