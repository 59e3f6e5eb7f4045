import Zboss.MacDataConfirms

/-!
# Indirect transmission

The pending queue of a coordinator with the alarms of its slots and the pending
bit of the transceiver: `zb_mac_put_data_to_pending_queue` and
`zb_mac_pending_data_timeout` in `mac_routines.c`, the data request command of
a child and its continuation in `mac_cr_data.c`.  Beside the state a run keeps
when each frame was queued.
-/

namespace Zboss

open Option

namespace MacCtx

def checkPendingDataFrom (mac : MacCtx) (source : MacAddr) (index : ℕ) :
    Option ℕ :=
  ((List.range macPendingQueueSize).drop index).find? fun i =>
    (mac.pendingDataQueue i).any (·.isFor source)

/-- The slot of the frame which `zb_handle_data_request_cmd` sends, with the
frame pending bit. -/
def sentIndirectly (mac : MacCtx) (source : MacAddr) (secured : Bool) :
    Option (ℕ × Bool) := do
  let i ← mac.checkPendingDataFrom source 0
  let pending ← mac.pendingDataQueue i
  if checkSecurity pending.encrypted secured then
    some (i, (mac.checkPendingDataFrom source (i + 1)).isSome)
  else none

def pendingQueueIsEmpty (mac : MacCtx) : Bool :=
  (List.range macPendingQueueSize).all fun i => (mac.pendingDataQueue i).isNone

def WaitsFor (mac : MacCtx) (source : MacAddr) (i : ℕ) : Prop :=
  i < macPendingQueueSize ∧ ∃ pending, mac.pendingDataQueue i = some pending ∧
      pending.isFor source = true

end MacCtx

/-- `timeouts` has the parameters of the `zb_mac_pending_data_timeout` alarms,
`pendingBit` is the bit of the transceiver. -/
structure IndirectCtx extends MacCtx where
  pendingBit : Bool
  timeouts : List ℕ

namespace IndirectCtx

/-- `ZB_CLEAR_PENDING_BIT` once no slot is occupied. -/
def updatePendingBit (ctx : IndirectCtx) : IndirectCtx :=
  if ctx.pendingQueueIsEmpty then { ctx with pendingBit := false } else ctx

/-- `zb_mac_put_data_to_pending_queue` -/
def putDataToPendingQueue (ctx : IndirectCtx) (pending : PendingData) (room : Bool) :
    IndirectCtx where
  toMacCtx := (ctx.toMacCtx.putDataToPendingQueue pending).1
  pendingBit := true
  timeouts :=
    match ctx.freeSlot with
    | some i => if room then ctx.timeouts ++ [i] else ctx.timeouts
    | none => ctx.timeouts

def handleDataRequestCmd
    (ctx : IndirectCtx) (param : ℕ) (source : MacAddr) (secured : Bool) :
    IndirectCtx :=
  { ctx with
    toMacCtx := (ctx.toMacCtx.acceptDataRequestCmd param source secured).1 }

def handleDataRequestCmdContinue (ctx : IndirectCtx) (radio : RadioStatus) :
    Option IndirectCtx :=
  match ctx.txWaitCb with
  | some (.handleDataRequestCmdContinue param i frame) => do
      let idle := { ctx.toMacCtx with txCnt := false, txWaitCb := none }
      let (mac, _) ← idle.handleDataRequestCmdContinue param i frame radio
      return { toMacCtx := mac
               pendingBit := ctx.pendingBit
               timeouts := ctx.timeouts.erase i : IndirectCtx }.updatePendingBit
  | _ => none

def pendingDataTimeout (ctx : IndirectCtx) (i : ℕ) : Option IndirectCtx :=
  if i ∈ ctx.timeouts then do
    let (mac, _) ← ctx.toMacCtx.pendingDataTimeout i
    return { toMacCtx := mac
             pendingBit := ctx.pendingBit
             timeouts := ctx.timeouts.erase i : IndirectCtx }.updatePendingBit
  else none

end IndirectCtx

/-- `dataRequestCmd` is the poll of a device. -/
inductive IndirectEvent where
  | put (pending : PendingData) (room : Bool)
  | dataRequestCmd (param : ℕ) (source : MacAddr) (secured : Bool)
  | dataRequestCmdContinue (radio : RadioStatus)
  | pendingDataTimeout (slot : ℕ)

/-- The pending queue with the number of frames put so far, the number of the
frame in each slot and that of the frame found for the last poll. -/
structure IndirectRun where
  ctx : IndirectCtx
  requests : ℕ
  arrivals : ℕ → ℕ
  serving : ℕ

namespace IndirectRun

/-- `zb_mac_main_loop` gives a poll to its handler only while no continuation
waits. -/
def step (run : IndirectRun) : IndirectEvent → Option IndirectRun
  | .put pending room =>
      some {
        ctx := run.ctx.putDataToPendingQueue pending room
        requests := run.requests + 1
        arrivals :=
          match run.ctx.freeSlot with
          | some i => Function.update run.arrivals i run.requests
          | none => run.arrivals
        serving := run.serving }
  | .dataRequestCmd param source secured =>
      if run.ctx.txWaitCb = none then
        some { run with
          ctx := run.ctx.handleDataRequestCmd param source secured
          serving :=
            match run.ctx.checkPendingData source with
            | some i => run.arrivals i
            | none => run.serving }
      else none
  | .dataRequestCmdContinue radio => do
      let ctx ← run.ctx.handleDataRequestCmdContinue radio
      return { run with ctx }
  | .pendingDataTimeout i => do
      let ctx ← run.ctx.pendingDataTimeout i
      return { run with ctx }

def start : IndirectRun where
  ctx := ⟨⟨[], fun _ => none, [], none, false, .success⟩, false, []⟩
  requests := 0
  arrivals := fun _ => 0
  serving := 0

end IndirectRun

section Steps

variable {mac : MacCtx} {source : MacAddr} {i : ℕ}

namespace MacCtx

theorem checkPendingDataFrom_eq_some
    {index : ℕ} (hfound : mac.checkPendingDataFrom source index = some i) :
    index ≤ i ∧ mac.WaitsFor source i ∧
      ∀ j, index ≤ j → mac.WaitsFor source j → i ≤ j := by
  rw [checkPendingDataFrom, List.range_eq_range', List.drop_range',
    List.find?_range'_eq_some] at hfound
  obtain ⟨hany, hmem, hbefore⟩ := hfound
  rw [List.mem_range'_1] at hmem
  obtain ⟨pending, hpending, hfor⟩ := (any_eq_true ..).mp hany
  refine ⟨by omega, ⟨by omega, pending, hpending, hfor⟩, ?_⟩
  intro j hj ⟨hjsize, other, hother, hjfor⟩
  by_contra hlt
  have hnot := hbefore j (by omega) (by omega)
  rw [hother, Option.any_some, hjfor] at hnot
  contradiction

theorem checkPendingDataFrom_eq_none {index : ℕ} :
    mac.checkPendingDataFrom source index = none ↔
      ∀ j, index ≤ j → ¬ mac.WaitsFor source j := by
  rw [checkPendingDataFrom, List.range_eq_range', List.drop_range',
    List.find?_range'_eq_none]
  constructor
  · intro hnone j hj ⟨hjsize, pending, hpending, hfor⟩
    have hnot := hnone j (by omega) (by omega)
    rw [hpending, Option.any_some, hfor] at hnot
    contradiction
  · intro hnone j hj hjsize
    rw [Bool.not_eq_true', Bool.eq_false_iff]
    intro hany
    obtain ⟨pending, hpending, hfor⟩ := (any_eq_true ..).mp hany
    exact hnone j (by omega) ⟨by omega, pending, hpending, hfor⟩

theorem pendingQueueIsEmpty_iff : mac.pendingQueueIsEmpty = true ↔
      ∀ j, j < macPendingQueueSize → mac.pendingDataQueue j = none := by
  rw [pendingQueueIsEmpty, List.all_eq_true]
  simp only [List.mem_range, Option.isNone_iff_eq_none]

theorem sentIndirectly_eq_some
    {secured bit : Bool} (hsent : mac.sentIndirectly source secured = some (i, bit)) :
    mac.checkPendingDataFrom source 0 = some i ∧
      bit = (mac.checkPendingDataFrom source (i + 1)).isSome := by
  obtain ⟨found, hfound, hsent⟩ := bind_eq_some_iff.mp hsent
  obtain ⟨pending, hpending, hsent⟩ := bind_eq_some_iff.mp hsent
  split at hsent
  · obtain ⟨rfl, rfl⟩ := some_pair_inj hsent
    exact ⟨hfound, rfl⟩
  · contradiction

theorem acceptDataRequestCmd_pendingDataQueue
    (mac : MacCtx) (param : ℕ) (source : MacAddr) (secured : Bool) :
    (mac.acceptDataRequestCmd param source secured).1.pendingDataQueue =
      mac.pendingDataQueue := by
  rw [acceptDataRequestCmd]
  dsimp only
  split
  · rfl
  · split
    · rfl
    · rfl

theorem acceptDataRequestCmd_txWaitCb
    {param waiting : ℕ} {secured : Bool} {frame : MacFrame}
    (hidle : mac.txWaitCb = none)
    (hwait : (mac.acceptDataRequestCmd param source secured).1.txWaitCb =
      some (.handleDataRequestCmdContinue waiting i frame)) :
    mac.checkPendingData source = some i ∧ mac.pendingDataQueue i ≠ none := by
  have hsame : MacCtx.checkPendingData { mac with macStatus := .success }
      source = mac.checkPendingData source := rfl
  rw [acceptDataRequestCmd] at hwait
  dsimp only at hwait
  rw [hsame] at hwait
  cases hfound : mac.checkPendingData source with
  | none =>
    rw [hfound] at hwait
    exact absurd (hidle.symm.trans hwait) (by simp)
  | some found =>
    rw [hfound] at hwait
    dsimp only at hwait
    cases hpending : mac.pendingDataQueue found with
    | none =>
      rw [hpending] at hwait
      exact absurd (hidle.symm.trans hwait) (by simp)
    | some pending =>
      rw [hpending] at hwait
      obtain ⟨-, rfl, -⟩ := TxWaitCb.handleDataRequestCmdContinue.inj (some.inj hwait)
      exact ⟨rfl, hpending ▸ some_ne_none pending⟩

end MacCtx

namespace IndirectCtx

variable {ctx next : IndirectCtx}

theorem putDataToPendingQueue_of_some
    {pending : PendingData} {room : Bool} (hfree : ctx.freeSlot = some i) :
    ctx.putDataToPendingQueue pending room =
      { toMacCtx := ctx.toMacCtx.setSlot i (some pending)
        pendingBit := true
        timeouts := if room then ctx.timeouts ++ [i] else ctx.timeouts } := by
  rw [putDataToPendingQueue, MacCtx.putDataToPendingQueue, hfree]

theorem putDataToPendingQueue_of_none
    {pending : PendingData} {room : Bool} (hfree : ctx.freeSlot = none) :
    ctx.putDataToPendingQueue pending room =
      { toMacCtx := { ctx.toMacCtx with macStatus := .transactionOverflow }
        pendingBit := true
        timeouts := ctx.timeouts } := by
  rw [putDataToPendingQueue, MacCtx.putDataToPendingQueue, hfree]

structure Released (ctx : IndirectCtx) (i : ℕ) (next : IndirectCtx) : Prop where
  occupied : ctx.pendingDataQueue i ≠ none
  queue : next.pendingDataQueue = Function.update ctx.pendingDataQueue i none
  timeouts : next.timeouts = ctx.timeouts.erase i
  pendingBit : next.pendingBit = (ctx.pendingBit && !next.pendingQueueIsEmpty)

theorem updatePendingBit_eq (ctx : IndirectCtx) : ctx.updatePendingBit =
      { ctx with pendingBit := ctx.pendingBit && !ctx.pendingQueueIsEmpty } := by
  unfold updatePendingBit
  cases ctx.pendingQueueIsEmpty with
  | true => simp
  | false => simp

theorem released_of_setSlot
    {status : MacStatus} {txWaitCb : Option TxWaitCb} {txCnt : Bool}
    (hoccupied : ctx.pendingDataQueue i ≠ none) :
    ctx.Released i
      { toMacCtx :=
          { ctx.toMacCtx with macStatus := status, txWaitCb, txCnt }.setSlot i none
        pendingBit := ctx.pendingBit
        timeouts := ctx.timeouts.erase i : IndirectCtx }.updatePendingBit := by
  rw [updatePendingBit_eq]
  exact ⟨hoccupied, rfl, rfl, rfl⟩

theorem pendingDataTimeout_eq_some (htimeout : ctx.pendingDataTimeout i = some next) :
    i ∈ ctx.timeouts ∧ ctx.Released i next ∧ next.txWaitCb = ctx.txWaitCb := by
  rw [pendingDataTimeout] at htimeout
  split at htimeout
  case isTrue hmem =>
    obtain ⟨⟨mac, outputs⟩, hmac, heq⟩ := bind_eq_some_iff.mp htimeout
    obtain ⟨pending, hpending, hmac⟩ := bind_eq_some_iff.mp hmac
    obtain ⟨rfl, -⟩ := some_pair_inj hmac
    obtain rfl := some.inj heq
    refine ⟨hmem, released_of_setSlot ?_, ?_⟩
    · exact hpending ▸ some_ne_none pending
    · rw [updatePendingBit_eq]
      rfl
  case isFalse => contradiction

theorem handleDataRequestCmdContinue_eq_some {radio : RadioStatus}
    (hcontinue : ctx.handleDataRequestCmdContinue radio = some next) :
    ∃ param i frame, ctx.txWaitCb = some (.handleDataRequestCmdContinue param i frame) ∧
        ctx.Released i next ∧ next.txWaitCb = none := by
  rw [handleDataRequestCmdContinue] at hcontinue
  split at hcontinue
  case h_1 param i frame hwait =>
    obtain ⟨⟨mac, outputs⟩, hmac, heq⟩ := bind_eq_some_iff.mp hcontinue
    obtain ⟨pending, status, sent, hpending, rfl, -⟩ :=
      MacCtx.handleDataRequestCmdContinue_eq_some hmac
    obtain rfl := some.inj heq
    refine ⟨param, i, frame, hwait, released_of_setSlot ?_, ?_⟩
    · exact hpending ▸ some_ne_none pending
    · rw [updatePendingBit_eq]
      rfl
  case h_2 => contradiction

end IndirectCtx

end Steps

end Zboss
