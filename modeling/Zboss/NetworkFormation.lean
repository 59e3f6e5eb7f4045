import Zboss.ExtendedNeighborTable
import Zboss.ScannedNetworks
import Zboss.TreeNetwork

/-!
# Network formation

`zb_nlme_network_formation_request` and the handlers of the two scans in
`nwk_cr_formation.c`: how a coordinator chooses the channel and the PAN
identifier of its network.
-/

namespace Zboss

def nwkChannelAcceptLevel : UInt8 := 60

inductive FormationScan where
  | edScan
  | activeScan
  deriving DecidableEq

inductive FormationStatus where
  | invalidRequest
  | startupFailure
  deriving DecidableEq

inductive FormationCall where
  | scanRequest (scan : FormationScan) (channels : BitVec 32) (duration : ℕ)
  | startRequest (panId : UInt16) (channel : ℕ)
  | formationConfirm (status : FormationStatus)
  deriving DecidableEq

/-- `scanChannels` and `scanDuration` are the request which was saved, and
`energyDetect` is the array in the memory for values between operations. -/
structure FormationDevice where
  state : NlmeState
  joined : Bool
  deviceType : DeviceType
  scanChannels : BitVec 32
  scanDuration : ℕ
  energyDetect : Fin 16 → UInt8
  tables : ScanTables
  macPanId : UInt16
  extPanId : ExtPanId
  extendedAddress : ExtPanId
  nib : TreeNib

def magicIsPowerOfTwo (x : BitVec 32) : Bool := x &&& (x - 1) == 0

def zbNlmeNetworkFormationRequest (device : FormationDevice) (scanChannels : BitVec 32)
    (scanDuration : ℕ) : FormationDevice × FormationCall :=
  if device.state = .idle ∧ device.joined = false then
    let single := magicIsPowerOfTwo scanChannels
    ({ device with
        scanChannels := scanChannels
        scanDuration := scanDuration
        state := if single then .formationActiveScan else .formationEdScan },
      .scanRequest (if single then .activeScan else .edScan) scanChannels
        scanDuration)
  else (device, .formationConfirm .invalidRequest)

def channelMask (number : ℕ) : BitVec 32 := 1#32 <<< number

def dropLoudChannel (energyDetect : Fin 16 → UInt8) (channels : BitVec 32) (i : Fin 16) :
    BitVec 32 :=
  let mask := channelMask (macStartChannelNumber + i)
  if channels &&& mask ≠ 0 ∧ energyDetect i > nwkChannelAcceptLevel then channels ^^^ mask
  else channels

def dropLoudChannels (energyDetect : Fin 16 → UInt8) (channels : BitVec 32) : BitVec 32 :=
  (List.finRange 16).foldl (dropLoudChannel energyDetect) channels

def ScanTables.start (tables : ScanTables) : ScanTables :=
  if tables.extNeighborSize ≠ 0 then tables
  else
    { tables with
      extNeighborSize :=
        neighborTableSize / 2 * neighborTblEntSize / extNeighborTblEntSize }

def nwkFormationEdScanConfirm (device : FormationDevice) (energyDetect : Fin 16 → UInt8) :
    FormationDevice × FormationCall :=
  let channels := dropLoudChannels energyDetect device.scanChannels
  let device := { device with energyDetect := energyDetect, scanChannels := channels }
  if channels ≠ 0 then
    ({ device with
        tables := device.tables.start
        state := .formationActiveScan },
      .scanRequest .activeScan channels device.scanDuration)
  else ({ device with state := .idle }, .formationConfirm .startupFailure)

structure PanCounts where
  handled : Fin 8 → Bool
  channelPanCount : Fin 16 → UInt8

def Channel.index (channel : Channel) : Fin 16 :=
  ⟨channel.val - macStartChannelNumber, by
    have := channel.property
    unfold macStartChannelNumber macMaxChannelNumber at this
    unfold macStartChannelNumber
    omega⟩

def PanCounts.count (counts : PanCounts) (ent : ScannedNeighbor) : PanCounts :=
  if counts.handled ent.panidRef then counts
  else
    { handled := Function.update counts.handled ent.panidRef true
      channelPanCount :=
        Function.update counts.channelPanCount ent.logicalChannel.index
          (counts.channelPanCount ent.logicalChannel.index + 1) }

def channelPanCounts (entries : List ScannedNeighbor) : Fin 16 → UInt8 :=
  (entries.foldl PanCounts.count ⟨fun _ => false, fun _ => 0⟩).channelPanCount

inductive TableRead where
  | energyDetect (i : ℕ)
  | channelPanCount (i : ℕ)

def TableRead.Inside : TableRead → Prop
  | .energyDetect i => i < macSupportedChannels
  | .channelPanCount i => i < macSupportedChannels

/-- `energy_detect[i]`: behind the array lies `channel_pan_count`. -/
def readEnergyDetect (energyDetect counts : Fin 16 → UInt8) (i : ℕ) : UInt8 :=
  if h : i < 16 then energyDetect ⟨i, h⟩
  else if h : i - 16 < 16 then counts ⟨i - 16, h⟩
  else 0

/-- `channel_pan_count[i]` through the pointer set back by the number of the
first channel. -/
def readChannelPanCount (counts : Fin 16 → UInt8) (i : ℕ) : UInt8 :=
  if h : i - macStartChannelNumber < 16 then counts ⟨i - macStartChannelNumber, h⟩
  else 0

structure ChannelChoice where
  channel : ℕ
  channelNetworks : UInt8
  channelEd : UInt8
  uniquePanId : Bool
  reads : List TableRead

/-- The loop over the channels from `i` on, for the channels of `scanned`. -/
def selectChannel (scanned : ℕ → Bool) (count level : ℕ → UInt8) :
    ℕ → ℕ → ChannelChoice → ChannelChoice
  | 0, _, choice => choice
  | rounds + 1, i, choice =>
      if scanned i then
        let read := .channelPanCount (i - macStartChannelNumber) :: choice.reads
        if count i ≤ choice.channelNetworks then
          if count i = choice.channelNetworks ∧ level i > choice.channelEd then
            selectChannel scanned count level rounds (i + 1)
              { choice with reads := .energyDetect i :: read }
          else if count i = 0 then ⟨i, count i, level i, true, .energyDetect i :: read⟩
          else
            selectChannel scanned count level rounds (i + 1)
              ⟨i, count i, level i, false, .energyDetect i :: read⟩
        else selectChannel scanned count level rounds (i + 1) { choice with reads := read }
      else selectChannel scanned count level rounds (i + 1) choice

def initialChoice : ChannelChoice where
  channel := macStartChannelNumber
  channelNetworks := 0xFF
  channelEd := 0xFF
  uniquePanId := false
  reads := []

def FormationDevice.panCount (device : FormationDevice) (i : ℕ) : UInt8 :=
  readChannelPanCount (channelPanCounts device.tables.extNeighbors) i

def FormationDevice.level (device : FormationDevice) (i : ℕ) : UInt8 :=
  readEnergyDetect device.energyDetect (channelPanCounts device.tables.extNeighbors) i

def FormationDevice.choice (device : FormationDevice) : ChannelChoice :=
  selectChannel device.scanChannels.getLsbD device.panCount device.level
    macSupportedChannels macStartChannelNumber initialChoice

def ScanTables.taken (tables : ScanTables) (channel : ℕ) (panId : UInt16) : Bool :=
  tables.extNeighbors.any fun ent =>
    ent.logicalChannel.val == channel &&
      (tables.panMap ent.panidRef).any (·.shortPanid == panId)

/-- The loop which draws an identifier, for at most `rounds` rounds. -/
def drawPanId (taken : UInt16 → Bool) (draws : ℕ → UInt16) (rounds : ℕ) :
    Option UInt16 :=
  ((List.range rounds).map draws).find? fun draw => !taken draw

/-- The end of `nwk_formation_select_channel` with `call_mlme_start`. -/
def callMlmeStart (device : FormationDevice) (panId : UInt16) (channel : ℕ) :
    FormationDevice × FormationCall :=
  ({ device with
      nib :=
        { device.nib with
          depth := 0
          cskip := zbNwkDaaCalcCskip device.nib 0
          macShortAddress := 0 }
      deviceType := .coordinator
      extPanId :=
        if device.extPanId = 0 then device.extendedAddress
        else device.extPanId
      state := .formation },
    .startRequest panId channel)

def nwkFormationSelectChannel
    (device : FormationDevice) (draws : ℕ → UInt16) (rounds : ℕ) :
    Option (FormationDevice × FormationCall) :=
  let choice := device.choice
  if choice.uniquePanId then
    some (callMlmeStart device (if device.macPanId = 0 then draws 0 else device.macPanId)
        choice.channel)
  else if choice.channel ≠ macStartChannelNumber then
    (drawPanId (device.tables.taken choice.channel) draws rounds).map
      fun panId => callMlmeStart device panId choice.channel
  else some ({ device with state := .idle }, .formationConfirm .startupFailure)

structure FormationInput where
  device : FormationDevice
  scanChannels : BitVec 32
  scanDuration : ℕ
  energyDetect : Fin 16 → UInt8
  beacons : List ScannedBeacon
  draws : ℕ → UInt16

def FormationInput.activeScan (input : FormationInput) :
    Option FormationDevice :=
  let (device, call) :=
    zbNlmeNetworkFormationRequest input.device input.scanChannels input.scanDuration
  match call with
  | .scanRequest .activeScan _ _ => some device
  | .scanRequest .edScan _ _ =>
      match nwkFormationEdScanConfirm device input.energyDetect with
      | (device, .scanRequest _ _ _) => some device
      | _ => none
  | _ => none

def FormationInput.scanned (input : FormationInput) : Option FormationDevice :=
  input.activeScan.map fun device =>
    { device with
      tables :=
        input.beacons.foldl (scanBeacon .router device.state device.deviceType 0)
          device.tables }

def FormationInput.result (input : FormationInput) (rounds : ℕ) :
    Option (FormationDevice × FormationCall) :=
  input.scanned.bind fun device => nwkFormationSelectChannel device input.draws rounds

end Zboss
