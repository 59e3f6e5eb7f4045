import Zboss.TransitionSystem
import Mathlib.Data.Finset.Card

/-!
# Scans of the MAC layer

`zb_mlme_scan_request`, its deferred handler and the steps of a scan in
`mac_scan.c`.  The steps know their request by `pending_buf` only.  `room` says
whether the queues of callbacks and alarms take what a function schedules; a
confirm through a null pointer has no buffer.
-/

namespace Zboss

inductive MacScanType where
  | ed
  | active
  | passive
  | orphan
  deriving DecidableEq

/-- `zb_mlme_scan_params_t` at the tail of a buffer, with the channels of the
mask. -/
structure ScanParams where
  scanType : MacScanType
  scanDuration : ℕ
  channels : Finset ℕ

inductive ScanStatus where
  | success
  | noBeacon
  | invalidParameter
  deriving DecidableEq

/-- A call of `zb_mlme_scan_confirm` with what it finds in its buffer. -/
structure ScanConfirm where
  buf : Option ℕ
  status : ScanStatus
  scanType : MacScanType

inductive ScanCall where
  | handleScanRequest (param : ℕ)
  | scanStep
  deriving DecidableEq

/-- `scanAlarms` is the number of alarms for `zb_mlme_scan_step` -/
structure ScanCtx where
  pendingBuf : Option ℕ
  mlmeScanInProgress : Bool
  unscannedChannels : Finset ℕ
  beaconFound : Bool
  gotRealignment : Bool
  params : ℕ → ScanParams
  cbQ : List ScanCall
  scanAlarms : ℕ

def zbMaxScanDurationValue : ℕ := 14

def ScanParams.valid (params : ScanParams) : Bool :=
  params.scanDuration ≤ zbMaxScanDurationValue || params.scanType = .orphan

namespace ScanCtx

def setParams (ctx : ScanCtx) (buf : ℕ) (params : ScanParams) : ScanCtx :=
  { ctx with params := Function.update ctx.params buf params }

def schedule (ctx : ScanCtx) (call : ScanCall) (room : Bool) : ScanCtx :=
  if room then { ctx with cbQ := ctx.cbQ ++ [call] } else ctx

def scheduleAlarm (ctx : ScanCtx) (room : Bool) : ScanCtx :=
  if room then { ctx with scanAlarms := ctx.scanAlarms + 1 } else ctx

def accepts (ctx : ScanCtx) (params : ScanParams) : Bool :=
  params.valid && !ctx.mlmeScanInProgress

def zbMlmeScanRequest (ctx : ScanCtx) (param : ℕ) (room : Bool) :
    ScanCtx × List ScanConfirm :=
  let params := ctx.params param
  if ctx.accepts params then
    ({ ctx with pendingBuf := some param }.schedule (.handleScanRequest param) room, [])
  else
    (ctx, if room then
        [⟨ctx.pendingBuf, if params.valid then .success else .invalidParameter,
          params.scanType⟩]
      else [])

/-- `zb_handle_scan_request` with `zb_mlme_ed_scan`, `zb_mlme_active_scan` and
`zb_mlme_orphan_scan`. -/
def zbHandleScanRequest (ctx : ScanCtx) (param : ℕ) (room : Bool) : ScanCtx :=
  let params := ctx.params param
  let ctx := { ctx with pendingBuf := some param }
  match params.scanType with
  | .active =>
      { ctx with
        beaconFound := false
        unscannedChannels := params.channels }.schedule .scanStep room
  | .ed =>
      -- the zeroed confirm covers the parameters, `scan_timeout` and
      -- `channel_number` the flags
      { ctx with
        unscannedChannels := params.channels
        beaconFound := true
        gotRealignment := true
        }.setParams param ⟨.ed, 0, ∅⟩ |>.scheduleAlarm room
  | .orphan =>
      { ctx with
        unscannedChannels := params.channels
        gotRealignment := false }.scheduleAlarm room
  | .passive => ctx

def nextChannel (unscanned : Finset ℕ) : Option ℕ :=
  (List.range' 11 26).find? fun channel => channel ∈ unscanned

/-- The alarms after `zb_mlme_scan_step` has set a channel: an ED scan
schedules one before the alarm is cancelled and scheduled again. -/
def rescheduled (scanType : MacScanType) (alarms : ℕ) (room : Bool) : ℕ :=
  let before := if scanType = .ed ∧ room then alarms + 1 else alarms
  if room ∨ 0 < before then before - 1 + 1 else 0

/-- `zb_mlme_scan_step`; the status of the transmissions is not looked at. -/
def zbMlmeScanStep (ctx : ScanCtx) (room : Bool) :
    Option (ScanCtx × List ScanConfirm) := do
  let buf ← ctx.pendingBuf
  let scanType := (ctx.params buf).scanType
  match nextChannel ctx.unscannedChannels with
  | some channel =>
      return ({ ctx with
        mlmeScanInProgress := true
        unscannedChannels := ctx.unscannedChannels.erase channel
        scanAlarms := rescheduled scanType ctx.scanAlarms room }, [])
  | none =>
      let found := scanType = .ed || ctx.beaconFound || ctx.gotRealignment
      return ({ ctx with
          mlmeScanInProgress := false
          beaconFound := if found then false else ctx.beaconFound },
        if room then [⟨some buf, if found then .success else .noBeacon, scanType⟩]
        else [])

def running (ctx : ScanCtx) : Bool :=
  decide (.scanStep ∈ ctx.cbQ) || decide (0 < ctx.scanAlarms)

end ScanCtx

/-- What happens to the scans.  `callback` calls the first one in `cb_q`,
`alarm` is an expired alarm for a step, `beacon` and `realignment` are frames
which are received. -/
inductive ScanEvent where
  | request (param : ℕ) (params : ScanParams) (room : Bool)
  | callback (room : Bool)
  | alarm (room : Bool)
  | beacon
  | realignment

namespace ScanCtx

def callback (ctx : ScanCtx) (room : Bool) :
    Option (ScanCtx × List ScanConfirm) :=
  match ctx.cbQ with
  | [] => none
  | .handleScanRequest param :: rest =>
      some ({ ctx with cbQ := rest }.zbHandleScanRequest param room, [])
  | .scanStep :: rest => { ctx with cbQ := rest }.zbMlmeScanStep room

def alarm (ctx : ScanCtx) (room : Bool) :
    Option (ScanCtx × List ScanConfirm) :=
  if 0 < ctx.scanAlarms then
    { ctx with scanAlarms := ctx.scanAlarms - 1 }.zbMlmeScanStep room
  else none

def request (ctx : ScanCtx) (param : ℕ) (params : ScanParams) (room : Bool) :
    ScanCtx × List ScanConfirm :=
  (ctx.setParams param params).zbMlmeScanRequest param room

def beacon (ctx : ScanCtx) : ScanCtx :=
  if ctx.mlmeScanInProgress then { ctx with beaconFound := true } else ctx

def realignment (ctx : ScanCtx) : Option ScanCtx :=
  if ctx.mlmeScanInProgress then do
    let buf ← ctx.pendingBuf
    return { ctx with
      gotRealignment :=
        ctx.gotRealignment || decide ((ctx.params buf).scanType = .orphan) }
  else some ctx

def step (ctx : ScanCtx) : ScanEvent → Option (ScanCtx × List ScanConfirm)
  | .request param params room => some (ctx.request param params room)
  | .callback room => ctx.callback room
  | .alarm room => ctx.alarm room
  | .beacon => some (ctx.beacon, [])
  | .realignment => ctx.realignment.map fun next => (next, [])

def start : ScanCtx where
  pendingBuf := none
  mlmeScanInProgress := false
  unscannedChannels := ∅
  beaconFound := false
  gotRealignment := false
  params := fun _ => ⟨.ed, 0, ∅⟩
  cbQ := []
  scanAlarms := 0

end ScanCtx

end Zboss
