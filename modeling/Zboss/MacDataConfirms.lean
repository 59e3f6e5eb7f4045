import Zboss.MacDataRequests

/-!
# Each data request is confirmed once

A request to the MAC layer is to be confirmed when its transmission ends: when
it has completed or failed, when the frame could not be secured, or when it has
expired in the pending queue.  Until then its buffer is to be in the queue of
the transmitter, in a slot of the pending queue or being sent.
-/

namespace Zboss

open Function Option List SlotTable TransitionSystem

def MacTxCall.isRequest (buf : ℕ) : MacTxCall → Bool
  | .handleMcpsDataReq param _ => param == buf
  | .acceptDataRequestCmd _ _ => false

def slotRequests : Option PendingData → List ℕ
  | some ⟨buf, _, .data, _⟩ => [buf]
  | some ⟨_, _, .command, _⟩ => []
  | none => []

def refusedRequests (secured : Bool) : Option PendingData → List ℕ
  | some pending =>
      if MacCtx.checkSecurity pending.encrypted secured then []
      else slotRequests (some pending)
  | none => []

def MacOutput.confirmed : MacOutput → Option ℕ
  | .dataConfirm buf _ _ => some buf
  | _ => none

def MacOutput.strayed : MacOutput → Option ℕ
  | .dataConfirm _ _ _ => none
  | .sendCommand _ => none
  | .commStatusIndication buf _ .data => some buf
  | .commStatusIndication _ _ .command => none
  | .freeBuf buf .data => some buf
  | .freeBuf _ .command => none

def MacEvent.requests : MacEvent → List ℕ
  | .mcpsDataRequest param _ => [param]
  | _ => []

namespace MacCtx

def queued (mac : MacCtx) (buf : ℕ) : ℕ :=
  mac.macTxQ.countP (MacTxCall.isRequest buf)

def inSlots (mac : MacCtx) (buf : ℕ) : ℕ :=
  (inUse macPendingQueueSize fun i =>
    decide (buf ∈ slotRequests (mac.pendingDataQueue i))).card

def sending (mac : MacCtx) (buf : ℕ) : ℕ :=
  match mac.txWaitCb with
  | some (.handleMcpsDataReqContinue param) => [param].count buf
  | _ => 0

def held (mac : MacCtx) (buf : ℕ) : ℕ :=
  mac.queued buf + mac.inSlots buf + mac.sending buf

def ends (mac : MacCtx) : MacEvent → List ℕ
  | .mainLoop secured _ =>
      match mac.txWaitCb with
      | some callback =>
          if mac.txCnt then
            match callback with
            | .handleMcpsDataReqContinue param => [param]
            | .handleDataRequestCmdContinue _ i _ => slotRequests (mac.pendingDataQueue i)
          else []
      | none =>
          match mac.macTxQ with
          | [] => []
          | .handleMcpsDataReq param req :: _ =>
              if !req.indirect && !checkSecurity req.encrypted secured then [param]
              else []
          | .acceptDataRequestCmd _ source :: _ =>
              match mac.checkPendingData source with
              | none => []
              | some i => refusedRequests secured (mac.pendingDataQueue i)
  | .pendingDataTimeout i => slotRequests (mac.pendingDataQueue i)
  | _ => []

end MacCtx

structure MacRun where
  mac : MacCtx
  requested : List ℕ
  ended : List ℕ
  confirmed : List ℕ
  strayed : List ℕ

namespace MacRun

def step (run : MacRun) (event : MacEvent) : Option MacRun := do
  let (mac, outputs) ← run.mac.step event
  return {
    mac
    requested := run.requested ++ event.requests
    ended := run.ended ++ run.mac.ends event
    confirmed := run.confirmed ++ outputs.filterMap MacOutput.confirmed
    strayed := run.strayed ++ outputs.filterMap MacOutput.strayed }

structure Accounted (run : MacRun) : Prop where
  held : ∀ buf, run.requested.count buf = run.mac.held buf + run.ended.count buf
  confirmed : ∀ buf, run.confirmed.count buf = run.ended.count buf
  strayed : run.strayed = []

end MacRun

def MacCtx.Sendable (mac : MacCtx) (secured : Bool) : MacTxCall → Prop
  | .handleMcpsDataReq _ req =>
      if req.indirect then mac.freeSlot ≠ none
      else checkSecurity req.encrypted secured = true
  | .acceptDataRequestCmd _ source =>
      ∀ i ∈ mac.checkPendingData source,
        ∀ pending ∈ mac.pendingDataQueue i, pending.frame = .data →
          checkSecurity pending.encrypted secured = true

namespace MacRun

/-- A request finds room in the queue, can be sent or gets a slot, and does not
expire there. -/
def Meets (run : MacRun) : MacEvent → Prop
  | .mcpsDataRequest _ _ => run.mac.macTxQ.length < macQueueSize
  | .mainLoop secured _ =>
      run.mac.txWaitCb = none →
        ∀ call ∈ run.mac.macTxQ.head?, run.mac.Sendable secured call
  | .pendingDataTimeout i =>
      ∀ pending ∈ run.mac.pendingDataQueue i, pending.frame = .command
  | _ => True

end MacRun

section Held

variable {mac : MacCtx} {buf i : ℕ}

theorem count_slotRequests (slot : Option PendingData) (buf : ℕ) :
    (slotRequests slot).count buf = (decide (buf ∈ slotRequests slot)).toNat := by
  rcases slot with _ | ⟨held, _, frame, _⟩
  · rfl
  · cases frame with
    | command => rfl
    | data =>
      by_cases hbuf : held = buf
      · subst hbuf
        simp [slotRequests]
      · have hne : buf ≠ held := fun h => hbuf h.symm
        simp [slotRequests, hbuf, hne]

theorem MacTxCall.toNat_isRequest (param buf : ℕ) (req : McpsDataReq) :
    ((handleMcpsDataReq param req).isRequest buf).toNat = [param].count buf := by
  by_cases hbuf : param = buf
  · simp [isRequest, hbuf]
  · simp [isRequest, hbuf]

namespace MacCtx

theorem held_dequeue {call : MacTxCall} {rest : List MacTxCall}
    (hqueue : mac.macTxQ = call :: rest) (buf : ℕ) :
    mac.held buf = MacCtx.held { mac with macTxQ := rest } buf +
        (call.isRequest buf).toNat := by
  have hqueued : mac.queued buf = MacCtx.queued { mac with macTxQ := rest } buf +
        (call.isRequest buf).toNat := by
    rw [queued, hqueue, countP_cons]
    cases call.isRequest buf with
    | false => rfl
    | true => rfl
  have hslots : MacCtx.inSlots { mac with macTxQ := rest } buf = mac.inSlots buf := rfl
  have hsending : MacCtx.sending { mac with macTxQ := rest } buf = mac.sending buf := rfl
  rw [held, held, hqueued, hslots, hsending]
  omega

theorem held_enqueue (call : MacTxCall) (buf : ℕ) :
    MacCtx.held { mac with macTxQ := mac.macTxQ ++ [call] } buf =
      mac.held buf + (call.isRequest buf).toNat := by
  have hqueued : MacCtx.queued { mac with macTxQ := mac.macTxQ ++ [call] } buf =
        mac.queued buf + (call.isRequest buf).toNat := by
    rw [queued, countP_append, countP_singleton]
    cases call.isRequest buf with
    | false => rfl
    | true => rfl
  have hslots : MacCtx.inSlots { mac with macTxQ := mac.macTxQ ++ [call] } buf =
        mac.inSlots buf := rfl
  have hsending : MacCtx.sending { mac with macTxQ := mac.macTxQ ++ [call] } buf =
        mac.sending buf := rfl
  rw [held, held, hqueued, hslots, hsending]
  omega

@[simp] theorem setSlot_self (slot : Option PendingData) :
    (mac.setSlot i slot).pendingDataQueue i = slot :=
  update_self ..

variable {slot : Option PendingData}

theorem setSlot_of_ne {j : ℕ} (hj : j ≠ i) :
    (mac.setSlot i slot).pendingDataQueue j = mac.pendingDataQueue j :=
  update_of_ne hj ..

theorem inSlots_setSlot (hi : i < macPendingQueueSize)
    (slot : Option PendingData) (buf : ℕ) :
    (mac.setSlot i slot).inSlots buf + (slotRequests (mac.pendingDataQueue i)).count buf =
      mac.inSlots buf + (slotRequests slot).count buf := by
  have hupdate : (fun j => decide
        (buf ∈ slotRequests ((mac.setSlot i slot).pendingDataQueue j))) =
      update (fun j => decide (buf ∈ slotRequests (mac.pendingDataQueue j))) i
        (decide (buf ∈ slotRequests slot)) := by
    funext j
    by_cases hj : j = i
    · subst hj
      rw [setSlot_self, update_self]
    · rw [setSlot_of_ne hj, update_of_ne hj]
  rw [inSlots, hupdate, count_slotRequests, count_slotRequests]
  exact card_inUse_update hi _

theorem inSlots_congr {next : MacCtx}
    (hsame : ∀ j, slotRequests (next.pendingDataQueue j) =
      slotRequests (mac.pendingDataQueue j)) (buf : ℕ) :
    next.inSlots buf = mac.inSlots buf := by
  simp only [inSlots, hsame]

theorem inSlots_setSlot_of_none (hold : slotRequests (mac.pendingDataQueue i) = [])
    (hnew : slotRequests slot = []) (buf : ℕ) :
    (mac.setSlot i slot).inSlots buf = mac.inSlots buf := by
  refine inSlots_congr (fun j => ?_) buf
  by_cases hj : j = i
  · subst hj
    rw [hold, setSlot_self, hnew]
  · rw [setSlot_of_ne hj]

theorem held_setSlot (hi : i < macPendingQueueSize) (slot : Option PendingData) (buf : ℕ) :
    (mac.setSlot i slot).held buf + (slotRequests (mac.pendingDataQueue i)).count buf =
      mac.held buf + (slotRequests slot).count buf := by
  have hslots := @inSlots_setSlot mac i hi slot buf
  have hqueued : (mac.setSlot i slot).queued buf = mac.queued buf := rfl
  have hsending : (mac.setSlot i slot).sending buf = mac.sending buf := rfl
  rw [held, held, hqueued, hsending]
  omega

theorem held_setSlot_of_none (hold : slotRequests (mac.pendingDataQueue i) = [])
    (hnew : slotRequests slot = []) (buf : ℕ) :
    (mac.setSlot i slot).held buf = mac.held buf := by
  rw [held, inSlots_setSlot_of_none hold hnew]
  rfl

theorem held_idle (buf : ℕ) (status : MacStatus) : MacCtx.held
        { mac with txCnt := false, txWaitCb := none, macStatus := status } buf +
      mac.sending buf = mac.held buf := rfl

theorem checkCmdTxStatus_eq (mac : MacCtx) (radio : RadioStatus) : ∃ status ok,
      mac.checkCmdTxStatus radio = ({ mac with macStatus := status }, ok) := by
  unfold checkCmdTxStatus
  split
  · exact ⟨_, false, rfl⟩
  · exact ⟨mac.macStatus, true, rfl⟩

theorem handleMcpsDataReqContinue_eq (mac : MacCtx) (param : ℕ) (radio : RadioStatus) :
    ∃ status, mac.handleMcpsDataReqContinue param radio =
        ({ mac with macStatus := status }, [.dataConfirm param (some status) .data]) := by
  obtain ⟨status, ok, hcheck⟩ := mac.checkCmdTxStatus_eq radio
  rw [handleMcpsDataReqContinue, hcheck]
  exact ⟨_, rfl⟩

theorem handleDataRequestCmdContinue_eq_some
    {param : ℕ} {frame : MacFrame} {radio : RadioStatus} {next : MacCtx}
    {outputs : List MacOutput}
    (hcontinue : mac.handleDataRequestCmdContinue param i frame radio =
      some (next, outputs)) :
    ∃ pending status sent, mac.pendingDataQueue i = some pending ∧
      next = MacCtx.setSlot { mac with macStatus := status } i none ∧
      outputs = match frame with
        | .command =>
          [.commStatusIndication param sent .command, .freeBuf pending.buf pending.frame]
        | .data =>
          [.dataConfirm pending.buf none pending.frame, .freeBuf param .command] := by
  obtain ⟨status, ok, hcheck⟩ := mac.checkCmdTxStatus_eq radio
  rw [handleDataRequestCmdContinue, hcheck] at hcontinue
  obtain ⟨pending, hpending, heq⟩ := bind_eq_some_iff.mp hcontinue
  cases frame with
  | command =>
    obtain ⟨rfl, rfl⟩ := some_pair_inj heq
    exact ⟨pending, status, _, hpending, rfl, rfl⟩
  | data =>
    obtain ⟨rfl, rfl⟩ := some_pair_inj heq
    exact ⟨pending, status, .success, hpending, rfl, rfl⟩

theorem freeSlot_eq_some (hfree : mac.freeSlot = some i) :
    i < macPendingQueueSize ∧ mac.pendingDataQueue i = none := by
  have hmem := mem_of_find?_eq_some hfree
  have hnone := List.find?_some hfree
  exact ⟨mem_range.mp hmem, Option.isNone_iff_eq_none.mp hnone⟩

theorem checkPendingData_eq_some {source : MacAddr}
    (hfound : mac.checkPendingData source = some i) :
    i < macPendingQueueSize ∧ ∃ pending, mac.pendingDataQueue i = some pending := by
  have hmem := mem_of_find?_eq_some hfound
  have hany := List.find?_some hfound
  refine ⟨mem_range.mp hmem, ?_⟩
  cases hslot : mac.pendingDataQueue i with
  | none => simp [hslot] at hany
  | some pending => exact ⟨pending, rfl⟩

end MacCtx

end Held

structure Settled (mac : MacCtx) (event : MacEvent) (next : MacCtx)
    (outputs : List MacOutput) : Prop where
  held : ∀ buf, next.held buf + (mac.ends event).count buf =
      mac.held buf + event.requests.count buf
  confirmed : ∀ buf, (outputs.filterMap MacOutput.confirmed).count buf =
      (mac.ends event).count buf
  strayed : outputs.filterMap MacOutput.strayed = []

structure MacCtx.Serving (mac : MacCtx) : Prop where
  out : mac.out = []
  frame : ∀ param i frame,
    mac.txWaitCb = some (.handleDataRequestCmdContinue param i frame) →
      i < macPendingQueueSize ∧ ∀ pending ∈ mac.pendingDataQueue i, pending.frame = frame
  data : ∀ param i, mac.txWaitCb = some (.handleDataRequestCmdContinue param i .data) →
      mac.pendingDataQueue i ≠ none

section Steps

variable {mac next : MacCtx} {outputs : List MacOutput}

theorem MacRun.accounted_step_iff
    {run : MacRun} {event : MacEvent} (haccounted : run.Accounted) :
    (∀ next, run.step event = some next → next.Accounted) ↔
      ∀ next outputs, run.mac.step event = some (next, outputs) →
        Settled run.mac event next outputs := by
  obtain ⟨hheld, hconfirmed, hstrayed⟩ := haccounted
  constructor
  · intro hall next outputs hstep
    have hnext := hall _ (by
      rw [MacRun.step, hstep]
      rfl)
    refine ⟨fun buf => ?_, fun buf => ?_, ?_⟩
    · have hafter := hnext.held buf
      have hbefore := hheld buf
      simp only [count_append] at hafter
      omega
    · have hafter := hnext.confirmed buf
      have hbefore := hconfirmed buf
      simp only [count_append] at hafter
      omega
    · have hafter := hnext.strayed
      exact (append_eq_nil_iff.mp hafter).2
  · intro hall next hstep
    obtain ⟨⟨mac, outputs⟩, hmac, heq⟩ := bind_eq_some_iff.mp hstep
    obtain rfl := some.inj heq
    obtain ⟨hmoved, houtputs, hnone⟩ := hall mac outputs hmac
    refine ⟨fun buf => ?_, fun buf => ?_, ?_⟩
    · have hbefore := hheld buf
      have hafter := hmoved buf
      simp only [count_append]
      omega
    · have hbefore := hconfirmed buf
      have hafter := houtputs buf
      simp only [count_append]
      omega
    · exact append_eq_nil_iff.mpr ⟨hstrayed, hnone⟩

theorem Settled.of_same {event : MacEvent} (hends : mac.ends event = [])
    (hrequests : event.requests = [])
    (hheld : ∀ buf, next.held buf = mac.held buf)
    (hconfirmed : outputs.filterMap MacOutput.confirmed = [])
    (hstrayed : outputs.filterMap MacOutput.strayed = []) :
    Settled mac event next outputs := by
  refine ⟨fun buf => ?_, fun buf => ?_, hstrayed⟩
  · rw [hends, hrequests, hheld]
  · rw [hends, hconfirmed]

theorem settled_mcpsDataRequest_iff (param : ℕ) (req : McpsDataReq) :
    Settled mac (.mcpsDataRequest param req)
        (mac.scheduleTxCb (.handleMcpsDataReq param req)) [] ↔
      mac.macTxQ.length < macQueueSize := by
  have hends : mac.ends (.mcpsDataRequest param req) = [] := rfl
  constructor
  · intro hsettled
    by_contra hfull
    have hheld := hsettled.held param
    rw [MacCtx.scheduleTxCb, if_neg hfull, hends, MacEvent.requests,
      count_singleton_self] at hheld
    simp at hheld
  · intro hroom
    rw [MacCtx.scheduleTxCb, if_pos hroom]
    refine ⟨fun buf => ?_, fun _ => rfl, rfl⟩
    rw [hends, MacEvent.requests, MacCtx.held_enqueue, MacTxCall.toNat_isRequest]
    rfl

theorem settled_dataRequestCmd (param : ℕ) (source : MacAddr) :
    Settled mac (.dataRequestCmd param source)
      (mac.scheduleTxCb (.acceptDataRequestCmd param source)) [] := by
  refine Settled.of_same rfl rfl (fun buf => ?_) rfl rfl
  unfold MacCtx.scheduleTxCb
  split
  · rw [MacCtx.held_enqueue]
    rfl
  · rfl

theorem slotRequests_of_command {slot : Option PendingData}
    (hcommand : ∀ pending ∈ slot, pending.frame = .command) :
    slotRequests slot = [] := by
  rcases slot with _ | ⟨_, _, frame, _⟩
  · rfl
  · obtain rfl : frame = .command := hcommand _ rfl
    rfl

theorem settled_associateResponse (param : ℕ) (device : IeeeAddr) :
    Settled mac (.associateResponse param device) (mac.associateResponse param device).1
      (mac.associateResponse param device).2 := by
  unfold MacCtx.associateResponse MacCtx.putDataToPendingQueue
  cases hfree : mac.freeSlot with
  | some i =>
    obtain ⟨-, hnone⟩ := MacCtx.freeSlot_eq_some hfree
    refine Settled.of_same rfl rfl (fun buf => ?_) rfl rfl
    refine MacCtx.held_setSlot_of_none ?_ rfl buf
    rw [hnone]
    rfl
  | none => exact Settled.of_same rfl rfl (fun _ => rfl) rfl rfl

theorem settled_pendingDataTimeout_iff {i : ℕ} :
    (∀ next outputs, mac.pendingDataTimeout i = some (next, outputs) →
        Settled mac (.pendingDataTimeout i) next outputs) ↔
      ∀ pending ∈ mac.pendingDataQueue i, pending.frame = .command := by
  constructor
  · rintro hall ⟨buf, dstAddr, frame, encrypted⟩ hpending
    have hsettled := hall _ _ (by
      rw [MacCtx.pendingDataTimeout, mem_def.mp hpending]
      rfl)
    cases frame with
    | command => rfl
    | data =>
      have hstrayed := hsettled.strayed
      contradiction
  · intro hcommand next outputs htimeout
    obtain ⟨⟨buf, dstAddr, frame, encrypted⟩, hpending, heq⟩ :=
      bind_eq_some_iff.mp htimeout
    obtain ⟨rfl, rfl⟩ := some_pair_inj heq
    obtain rfl : frame = .command := hcommand _ hpending
    have hends := slotRequests_of_command hcommand
    exact Settled.of_same hends rfl (MacCtx.held_setSlot_of_none hends rfl) rfl rfl

variable {radio : RadioStatus} {secured : Bool}

theorem settled_continue {callback : TxWaitCb}
    (hserving : mac.Serving) (hwait : mac.txWaitCb = some callback)
    (hloop : mac.mainLoop secured radio = some (next, outputs)) :
    Settled mac (.mainLoop secured radio) next outputs := by
  unfold MacCtx.mainLoop at hloop
  rw [hwait] at hloop
  dsimp only at hloop
  by_cases hcnt : mac.txCnt = true
  · rw [if_pos hcnt] at hloop
    cases callback with
    | handleMcpsDataReqContinue param =>
      have hends : mac.ends (.mainLoop secured radio) = [param] := by
        rw [MacCtx.ends, hwait]
        exact if_pos hcnt
      have hsending : ∀ buf, mac.sending buf = [param].count buf := by
        intro buf
        rw [MacCtx.sending, hwait]
      obtain ⟨status, hcontinue⟩ :=
        { mac with txCnt := false, txWaitCb := none
          }.handleMcpsDataReqContinue_eq param radio
      dsimp only at hloop
      rw [hcontinue] at hloop
      obtain ⟨rfl, rfl⟩ := some_pair_inj hloop
      refine ⟨fun buf => ?_, fun buf => ?_, rfl⟩
      · rw [hends, ← hsending]
        exact @MacCtx.held_idle mac buf status
      · rw [hends]
        rfl
    | handleDataRequestCmdContinue param i frame =>
      have hends : mac.ends (.mainLoop secured radio) =
          slotRequests (mac.pendingDataQueue i) := by
        rw [MacCtx.ends, hwait]
        exact if_pos hcnt
      have hsending : ∀ buf, mac.sending buf = 0 := by
        intro buf
        rw [MacCtx.sending, hwait]
      obtain ⟨hi, hframe⟩ := hserving.frame param i frame hwait
      obtain ⟨⟨buf, dstAddr, type, encrypted⟩, status, sent, hpending, rfl,
        rfl⟩ := MacCtx.handleDataRequestCmdContinue_eq_some hloop
      have hpending : mac.pendingDataQueue i =
          some ⟨buf, dstAddr, type, encrypted⟩ := hpending
      obtain rfl : type = frame := hframe _ hpending
      have hcleared : ∀ buf,
          (MacCtx.setSlot { mac with
              txCnt := false, txWaitCb := none, macStatus := status } i
            none).held buf + (slotRequests (mac.pendingDataQueue i)).count buf =
            mac.held buf := by
        intro buf
        have hslot := @MacCtx.held_setSlot { mac with
          txCnt := false, txWaitCb := none, macStatus := status } i hi none
          buf
        have hidle := @MacCtx.held_idle mac buf status
        rw [hsending] at hidle
        exact hslot.trans hidle
      cases type with
      | command =>
        refine ⟨fun other => ?_, fun other => ?_, rfl⟩
        · rw [hends]
          exact hcleared other
        · rw [hends, hpending]
          rfl
      | data =>
        refine ⟨fun other => ?_, fun other => ?_, rfl⟩
        · rw [hends]
          exact hcleared other
        · rw [hends, hpending]
          rfl
  · rw [if_neg hcnt] at hloop
    obtain ⟨rfl, rfl⟩ := some_pair_inj hloop
    refine Settled.of_same ?_ rfl (fun _ => rfl) rfl rfl
    rw [MacCtx.ends, hwait]
    exact if_neg hcnt

theorem settled_handleMcpsDataReq_iff {param : ℕ} {req : McpsDataReq}
    {rest : List MacTxCall} (hserving : mac.Serving)
    (hidle : mac.txWaitCb = none)
    (hqueue : mac.macTxQ = .handleMcpsDataReq param req :: rest) :
    (∀ next outputs, mac.mainLoop secured radio = some (next, outputs) →
        Settled mac (.mainLoop secured radio) next outputs) ↔
      mac.Sendable secured (.handleMcpsDataReq param req) := by
  have hloop : mac.mainLoop secured radio =
      { mac with macTxQ := rest }.handleMcpsDataReq param req secured := by
    rw [MacCtx.mainLoop, hidle, hqueue]
  have hends : mac.ends (.mainLoop secured radio) =
      if !req.indirect && !MacCtx.checkSecurity req.encrypted secured then [param]
      else [] := by
    rw [MacCtx.ends, hidle, hqueue]
  have htaken : ∀ buf, mac.held buf =
      MacCtx.held { mac with macTxQ := rest, macStatus := .success } buf +
        [param].count buf := by
    intro buf
    rw [← MacTxCall.toNat_isRequest param buf req]
    exact MacCtx.held_dequeue hqueue buf
  rw [hloop, MacCtx.Sendable, MacCtx.handleMcpsDataReq, MacCtx.mcpsDataRequestFillHdr]
  by_cases hindirect : req.indirect = true
  · rw [if_pos hindirect, if_pos hindirect, MacCtx.putDataToPendingQueue]
    rw [hindirect] at hends
    have hslots : MacCtx.freeSlot { mac with macTxQ := rest, macStatus := .success } =
          mac.freeSlot := rfl
    rw [hslots]
    cases hfree : mac.freeSlot with
    | some i =>
      refine iff_of_true ?_ (some_ne_none i)
      intro next outputs hstep
      obtain ⟨rfl, rfl⟩ := some_pair_inj hstep
      obtain ⟨hi, hnone⟩ := MacCtx.freeSlot_eq_some hfree
      refine ⟨fun buf => ?_, fun buf => ?_, rfl⟩
      · have hput := @MacCtx.held_setSlot
          { mac with macTxQ := rest, macStatus := .success } i hi
          (some ⟨param, .short req.dstAddr, .data, req.encrypted⟩) buf
        rw [hends, htaken]
        rw [hnone] at hput
        exact hput
      · rw [hends]
        rfl
    | none =>
      refine iff_of_false ?_ (fun hsome => hsome rfl)
      intro hall
      -- the request goes to the queue which nobody reads
      have hsettled := hall
        { mac with
          macTxQ := rest
          macStatus := .success
          out := mac.out ++ [param] } [] (by
            simp only [MacCtx.putRequestToQueue, hserving.out]
            rfl)
      have hheld := hsettled.held param
      rw [hends, htaken, count_singleton_self] at hheld
      have hlost : MacCtx.held { mac with
          macTxQ := rest
          macStatus := .success
          out := mac.out ++ [param] } param =
        MacCtx.held { mac with macTxQ := rest, macStatus := .success }
          param := rfl
      rw [hlost] at hheld
      simp [MacEvent.requests] at hheld
  · have hdirect : req.indirect = false := Bool.eq_false_iff.mpr hindirect
    rw [if_neg hindirect, if_neg hindirect]
    rw [hdirect] at hends
    by_cases hsecure : MacCtx.checkSecurity req.encrypted secured = true
    · refine iff_of_true ?_ hsecure
      rw [hsecure] at hends
      intro next outputs hstep
      simp only [bind_eq_bind, bind_some, hsecure, and_self, if_true] at hstep
      obtain ⟨rfl, rfl⟩ := some_pair_inj hstep
      refine ⟨fun buf => ?_, fun buf => ?_, rfl⟩
      · rw [hends, htaken]
        have hidling : MacCtx.sending { mac with macTxQ := rest, macStatus := .success }
              buf = 0 := by
          rw [MacCtx.sending, hidle]
        rw [MacCtx.held, MacCtx.held, hidling]
        rfl
      · rw [hends]
        rfl
    · refine iff_of_false ?_ hsecure
      intro hall
      have hrefused : MacCtx.checkSecurity req.encrypted secured = false :=
        Bool.eq_false_iff.mpr hsecure
      have hsettled := hall { mac with macTxQ := rest, macStatus := .success } [] (by
          simp only [bind_eq_bind, bind_some, hrefused,
            Bool.false_eq_true, and_false, if_false]
          rfl)
      have hconfirmed := hsettled.confirmed param
      rw [hends, hrefused] at hconfirmed
      simp at hconfirmed

theorem settled_acceptDataRequestCmd_iff {param : ℕ} {source : MacAddr}
    {rest : List MacTxCall} (hidle : mac.txWaitCb = none)
    (hqueue : mac.macTxQ = .acceptDataRequestCmd param source :: rest) :
    (∀ next outputs, mac.mainLoop secured radio = some (next, outputs) →
        Settled mac (.mainLoop secured radio) next outputs) ↔
      mac.Sendable secured (.acceptDataRequestCmd param source) := by
  have hloop : mac.mainLoop secured radio =
      some ({ mac with macTxQ := rest }.acceptDataRequestCmd param source secured) := by
    rw [MacCtx.mainLoop, hidle, hqueue]
  have hheld : ∀ buf, mac.held buf =
      MacCtx.held { mac with macTxQ := rest, macStatus := .success } buf :=
    MacCtx.held_dequeue hqueue
  rw [hloop, MacCtx.acceptDataRequestCmd]
  have hfind : MacCtx.checkPendingData { mac with macTxQ := rest, macStatus := .success }
        source = mac.checkPendingData source := rfl
  dsimp only
  rw [hfind]
  cases hfound : mac.checkPendingData source with
  | none =>
    have hnone : mac.Sendable secured (.acceptDataRequestCmd param source) := by
      intro i hi
      rw [hfound] at hi
      contradiction
    refine iff_of_true ?_ hnone
    intro next outputs hstep
    obtain ⟨rfl, rfl⟩ := some_pair_inj hstep
    refine Settled.of_same ?_ rfl (fun buf => (hheld buf).symm) rfl rfl
    rw [MacCtx.ends, hidle, hqueue]
    dsimp only
    rw [hfound]
  | some i =>
    obtain ⟨-, ⟨buf, dstAddr, frame, encrypted⟩, hpending⟩ :=
      MacCtx.checkPendingData_eq_some hfound
    have hends : mac.ends (.mainLoop secured radio) =
        refusedRequests secured (some ⟨buf, dstAddr, frame, encrypted⟩) := by
      rw [MacCtx.ends, hidle, hqueue]
      dsimp only
      rw [hfound, ← hpending]
    rw [refusedRequests] at hends
    have hwaiting : ∀ other,
        MacCtx.held { mac with
          macTxQ := rest
          macStatus := .success
          txWaitCb := some (.handleDataRequestCmdContinue param i frame) }
            other = mac.held other := by
      intro other
      have hidling : MacCtx.sending { mac with macTxQ := rest, macStatus := .success }
            other = 0 := by
        rw [MacCtx.sending, hidle]
      rw [hheld, MacCtx.held, MacCtx.held, hidling]
      rfl
    have hsendable : mac.Sendable secured (.acceptDataRequestCmd param source) ↔
          (frame = .data → MacCtx.checkSecurity encrypted secured = true) := by
      rw [MacCtx.Sendable, hfound]
      constructor
      · intro hall hdata
        exact hall i rfl _ hpending hdata
      · intro hone _ heq pending hslot hdata
        obtain rfl := some.inj heq
        obtain rfl := some.inj (hpending.symm.trans hslot)
        exact hone hdata
    rw [hsendable]
    dsimp only
    rw [hpending]
    simp only [some.injEq, Prod.mk.injEq, and_imp]
    by_cases hsecure : MacCtx.checkSecurity encrypted secured = true
    · refine iff_of_true ?_ (fun _ => hsecure)
      rw [if_pos hsecure] at hends
      rintro next outputs rfl rfl
      rw [if_pos hsecure]
      exact Settled.of_same hends rfl hwaiting rfl rfl
    · rw [if_neg hsecure] at hends
      rw [if_neg hsecure]
      cases frame with
      | command =>
        refine iff_of_true ?_ (fun hdata => nomatch hdata)
        rintro next outputs rfl rfl
        exact Settled.of_same hends rfl hwaiting rfl rfl
      | data =>
        refine iff_of_false ?_ (fun hall => hsecure (hall rfl))
        intro hall
        have hconfirmed := (hall _ _ rfl rfl).confirmed buf
        rw [hends] at hconfirmed
        simp [slotRequests] at hconfirmed

theorem MacCtx.Serving.congr (hserving : mac.Serving) (hout : next.out = mac.out)
    (hwait : next.txWaitCb = mac.txWaitCb)
    (hslots : next.pendingDataQueue = mac.pendingDataQueue) : next.Serving := by
  obtain ⟨hempty, hframe, hdata⟩ := hserving
  constructor
  · rw [hout, hempty]
  · rw [hwait, hslots]
    exact hframe
  · rw [hwait, hslots]
    exact hdata

theorem MacCtx.serving_of_direct (hout : mac.out = []) (hwait : ∀ param i frame,
      mac.txWaitCb ≠ some (.handleDataRequestCmdContinue param i frame)) :
    mac.Serving :=
  ⟨hout, fun param i frame h => absurd h (hwait param i frame),
    fun param i h => absurd h (hwait param i .data)⟩

theorem MacCtx.Serving.scheduleTxCb (hserving : mac.Serving) (call : MacTxCall) :
    (mac.scheduleTxCb call).Serving := by
  unfold MacCtx.scheduleTxCb
  split
  · exact hserving.congr rfl rfl rfl
  · exact hserving

theorem MacCtx.Serving.setSlot {i : ℕ} {slot : Option PendingData} (hserving : mac.Serving)
    (hold : ∀ pending ∈ mac.pendingDataQueue i, pending.frame = .command)
    (hnew : ∀ pending ∈ slot, pending.frame = .command) :
    (mac.setSlot i slot).Serving := by
  obtain ⟨hempty, hframe, hdata⟩ := hserving
  have hother : ∀ param,
      mac.txWaitCb ≠ some (.handleDataRequestCmdContinue param i .data) := by
    intro param hwait
    cases hslot : mac.pendingDataQueue i with
    | none => exact hdata param i hwait hslot
    | some pending =>
      have hcommand := hold pending hslot
      rw [(hframe param i .data hwait).2 pending hslot] at hcommand
      contradiction
  refine ⟨hempty, fun param j frame hwait => ?_, fun param j hwait => ?_⟩
  · have hwait : mac.txWaitCb =
        some (.handleDataRequestCmdContinue param j frame) := hwait
    refine ⟨(hframe param j frame hwait).1, ?_⟩
    by_cases hj : j = i
    · subst hj
      rw [MacCtx.setSlot_self]
      cases frame with
      | command => exact hnew
      | data => exact absurd hwait (hother param)
    · rw [MacCtx.setSlot_of_ne hj]
      exact (hframe param j frame hwait).2
  · have hj : j ≠ i := by
      rintro rfl
      exact hother param hwait
    rw [MacCtx.setSlot_of_ne hj]
    exact hdata param j hwait

theorem serving_associateResponse
    (hserving : mac.Serving) (param : ℕ) (device : IeeeAddr) :
    (mac.associateResponse param device).1.Serving := by
  unfold MacCtx.associateResponse MacCtx.putDataToPendingQueue
  cases hfree : mac.freeSlot with
  | some i =>
    obtain ⟨-, hnone⟩ := MacCtx.freeSlot_eq_some hfree
    refine hserving.setSlot (fun pending hslot => ?_) (fun pending hslot => ?_)
    · rw [hnone] at hslot
      contradiction
    · obtain rfl := some.inj hslot
      rfl
  | none => exact hserving.congr rfl rfl rfl

theorem serving_handleMcpsDataReq {secured : Bool} {param : ℕ} {req : McpsDataReq}
    (hout : mac.out = []) (hidle : mac.txWaitCb = none)
    (hsendable : mac.Sendable secured (.handleMcpsDataReq param req))
    (hhandle : mac.handleMcpsDataReq param req secured =
      some (next, outputs)) : next.Serving := by
  rw [MacCtx.handleMcpsDataReq, MacCtx.mcpsDataRequestFillHdr] at hhandle
  by_cases hindirect : req.indirect = true
  · rw [if_pos hindirect, MacCtx.putDataToPendingQueue] at hhandle
    have hslots : MacCtx.freeSlot { mac with macStatus := .success } = mac.freeSlot := rfl
    rw [hslots] at hhandle
    cases hfree : mac.freeSlot with
    | some i =>
      rw [hfree] at hhandle
      obtain ⟨rfl, -⟩ := some_pair_inj hhandle
      refine MacCtx.serving_of_direct hout (fun _ _ _ hwait => ?_)
      exact nomatch hidle.symm.trans hwait
    | none =>
      rw [MacCtx.Sendable, if_pos hindirect] at hsendable
      exact absurd hfree hsendable
  · rw [MacCtx.Sendable, if_neg hindirect] at hsendable
    rw [if_neg hindirect] at hhandle
    simp only [bind_eq_bind, bind_some, hsendable, and_self, if_true] at hhandle
    obtain ⟨rfl, -⟩ := some_pair_inj hhandle
    exact MacCtx.serving_of_direct hout (fun _ _ _ hwait => nomatch hwait)

theorem serving_acceptDataRequestCmd
    (hout : mac.out = []) (hidle : mac.txWaitCb = none) (param : ℕ)
    (source : MacAddr) (secured : Bool) :
    (mac.acceptDataRequestCmd param source secured).1.Serving := by
  have hnone : MacCtx.Serving { mac with macStatus := .success } := by
    refine MacCtx.serving_of_direct hout (fun _ _ _ hwait => ?_)
    exact nomatch hidle.symm.trans hwait
  rw [MacCtx.acceptDataRequestCmd]
  have hfind : MacCtx.checkPendingData { mac with macStatus := .success }
      source = mac.checkPendingData source := rfl
  dsimp only
  rw [hfind]
  cases hfound : mac.checkPendingData source with
  | none => exact hnone
  | some i =>
    obtain ⟨hi, pending, hpending⟩ := MacCtx.checkPendingData_eq_some hfound
    dsimp only
    rw [hpending]
    refine ⟨hout, fun param' j frame hwait => ?_, fun param' j hwait => ?_⟩
    · obtain ⟨-, rfl, rfl⟩ :=
        TxWaitCb.handleDataRequestCmdContinue.inj (some.inj hwait)
      refine ⟨hi, fun other hother => ?_⟩
      obtain rfl := some.inj (hpending.symm.trans hother)
      rfl
    · obtain ⟨-, rfl, -⟩ :=
        TxWaitCb.handleDataRequestCmdContinue.inj (some.inj hwait)
      dsimp only
      rw [hpending]
      exact some_ne_none pending

theorem serving_continue {callback : TxWaitCb}
    (hserving : mac.Serving) (hwait : mac.txWaitCb = some callback)
    (hloop : mac.mainLoop secured radio = some (next, outputs)) :
    next.Serving := by
  unfold MacCtx.mainLoop at hloop
  rw [hwait] at hloop
  dsimp only at hloop
  by_cases hcnt : mac.txCnt = true
  · rw [if_pos hcnt] at hloop
    cases callback with
    | handleMcpsDataReqContinue param =>
      obtain ⟨status, hcontinue⟩ :=
        { mac with txCnt := false, txWaitCb := none
          }.handleMcpsDataReqContinue_eq param radio
      dsimp only at hloop
      rw [hcontinue] at hloop
      obtain ⟨rfl, -⟩ := some_pair_inj hloop
      exact MacCtx.serving_of_direct hserving.out (fun _ _ _ hwait => nomatch hwait)
    | handleDataRequestCmdContinue param i frame =>
      obtain ⟨_, status, _, -, rfl, -⟩ := MacCtx.handleDataRequestCmdContinue_eq_some hloop
      exact MacCtx.serving_of_direct hserving.out (fun _ _ _ hwait => nomatch hwait)
  · rw [if_neg hcnt] at hloop
    obtain ⟨rfl, -⟩ := some_pair_inj hloop
    exact hserving

theorem settled_mainLoop_iff (hserving : mac.Serving) :
    (∀ next outputs, mac.mainLoop secured radio = some (next, outputs) →
        Settled mac (.mainLoop secured radio) next outputs) ↔
      (mac.txWaitCb = none → ∀ call ∈ mac.macTxQ.head?, mac.Sendable secured call) := by
  cases hwait : mac.txWaitCb with
  | some callback =>
    refine iff_of_true ?_ (fun hnone => nomatch hnone)
    intro next outputs hloop
    exact settled_continue hserving hwait hloop
  | none =>
    rw [forall_prop_of_true rfl]
    cases hqueue : mac.macTxQ with
    | nil =>
      refine iff_of_true ?_ (fun _ hnone => nomatch hnone)
      intro next outputs hloop
      rw [MacCtx.mainLoop, hwait, hqueue] at hloop
      obtain ⟨rfl, rfl⟩ := some_pair_inj hloop
      refine Settled.of_same ?_ rfl (fun _ => rfl) rfl rfl
      rw [MacCtx.ends, hwait, hqueue]
    | cons call rest =>
      rw [List.head?_cons]
      simp only [mem_def, some.injEq, forall_eq']
      cases call with
      | handleMcpsDataReq param req =>
        exact settled_handleMcpsDataReq_iff hserving hwait hqueue
      | acceptDataRequestCmd param source =>
        exact settled_acceptDataRequestCmd_iff hwait hqueue

theorem serving_mainLoop (hserving : mac.Serving) (hsendable : mac.txWaitCb = none →
      ∀ call ∈ mac.macTxQ.head?, mac.Sendable secured call)
    (hloop : mac.mainLoop secured radio = some (next, outputs)) :
    next.Serving := by
  cases hwait : mac.txWaitCb with
  | some callback => exact serving_continue hserving hwait hloop
  | none =>
    cases hqueue : mac.macTxQ with
    | nil =>
      rw [MacCtx.mainLoop, hwait, hqueue] at hloop
      obtain ⟨rfl, -⟩ := some_pair_inj hloop
      exact hserving
    | cons call rest =>
      have hcall := hsendable hwait call (by
        rw [hqueue]
        rfl)
      cases call with
      | handleMcpsDataReq param req =>
        have heq : mac.mainLoop secured radio =
            { mac with macTxQ := rest }.handleMcpsDataReq param req
              secured := by
          rw [MacCtx.mainLoop, hwait, hqueue]
        rw [heq] at hloop
        exact @serving_handleMcpsDataReq { mac with macTxQ := rest } _ _ _
          _ _ hserving.out hwait hcall hloop
      | acceptDataRequestCmd param source =>
        have heq : mac.mainLoop secured radio =
            some ({ mac with macTxQ := rest }.acceptDataRequestCmd param
              source secured) := by
          rw [MacCtx.mainLoop, hwait, hqueue]
        rw [heq] at hloop
        have hnext := @serving_acceptDataRequestCmd
          { mac with macTxQ := rest } hserving.out hwait param source
          secured
        rw [some.inj hloop] at hnext
        exact hnext

namespace MacRun

variable {run : MacRun}

theorem settled_iff {event : MacEvent} (hserving : run.mac.Serving) :
    (∀ next outputs, run.mac.step event = some (next, outputs) →
        Settled run.mac event next outputs) ↔ run.Meets event := by
  cases event with
  | mcpsDataRequest param req =>
    refine Iff.trans ⟨fun hall => hall _ _ rfl, ?_⟩ (settled_mcpsDataRequest_iff param req)
    intro hsettled next outputs hstep
    obtain ⟨rfl, rfl⟩ := some_pair_inj hstep
    exact hsettled
  | dataRequestCmd param source =>
    refine iff_of_true ?_ trivial
    intro next outputs hstep
    obtain ⟨rfl, rfl⟩ := some_pair_inj hstep
    exact settled_dataRequestCmd param source
  | associateResponse param device =>
    refine iff_of_true ?_ trivial
    intro next outputs hstep
    have hsettled := @settled_associateResponse run.mac param device
    rw [some.inj hstep] at hsettled
    exact hsettled
  | transmitted =>
    refine iff_of_true ?_ trivial
    intro next outputs hstep
    obtain ⟨rfl, rfl⟩ := some_pair_inj hstep
    exact Settled.of_same rfl rfl (fun _ => rfl) rfl rfl
  | mainLoop secured radio => exact settled_mainLoop_iff hserving
  | pendingDataTimeout i => exact settled_pendingDataTimeout_iff

theorem serving_step {event : MacEvent} {next : MacRun} (hserving : run.mac.Serving)
    (hmeets : run.Meets event) (hstep : run.step event = some next) :
    next.mac.Serving := by
  obtain ⟨⟨mac, outputs⟩, hmac, heq⟩ := bind_eq_some_iff.mp hstep
  obtain rfl := some.inj heq
  cases event with
  | mcpsDataRequest param req =>
    obtain ⟨rfl, -⟩ := some_pair_inj hmac
    exact hserving.scheduleTxCb _
  | dataRequestCmd param source =>
    obtain ⟨rfl, -⟩ := some_pair_inj hmac
    exact hserving.scheduleTxCb _
  | associateResponse param device =>
    have hnext := serving_associateResponse hserving param device
    rw [some.inj hmac] at hnext
    exact hnext
  | transmitted =>
    obtain ⟨rfl, -⟩ := some_pair_inj hmac
    exact hserving.congr rfl rfl rfl
  | mainLoop secured radio => exact serving_mainLoop hserving hmeets hmac
  | pendingDataTimeout i =>
    obtain ⟨pending, hpending, heq⟩ := bind_eq_some_iff.mp hmac
    obtain ⟨rfl, -⟩ := some_pair_inj heq
    exact hserving.setSlot hmeets (fun _ hnone => nomatch hnone)

end MacRun

end Steps

namespace MacRun

def start : MacRun where
  mac := ⟨[], fun _ => none, [], none, false, .success⟩
  requested := []
  ended := []
  confirmed := []
  strayed := []

theorem accounted_start : start.Accounted := by
  refine ⟨fun buf => ?_, fun _ => rfl, rfl⟩
  have hslots : start.mac.inSlots buf = 0 := card_inUse_eq_zero.mpr fun _ _ => rfl
  rw [MacCtx.held, hslots]
  rfl

theorem serving_start : start.mac.Serving :=
  MacCtx.serving_of_direct rfl fun _ _ _ hwait => nomatch hwait

/-- Each request is confirmed once exactly as long as requests find room, can
be sent and do not expire. -/
theorem everyState_confirmedOnce_iff (events : List MacEvent) :
    EveryState step Accounted start events ↔ AlongRun step Meets start events :=
  @everyState_iff_alongRun _ _ step Meets Accounted (fun run => run.mac.Serving)
    (fun _ _ haccounted hserving =>
      (accounted_step_iff haccounted).trans (settled_iff hserving))
    (fun _ _ _ _ hserving hmeets hstep => serving_step hserving hmeets hstep)
    start events accounted_start serving_start

/-- A request for a child which does not ask for it: the buffer goes to the
indication of a status. -/
theorem not_everyState_confirmedOnce_expired : ¬ EveryState step Accounted start
      [.mcpsDataRequest 5 ⟨1, true, false⟩, .mainLoop true ⟨false, false⟩,
        .pendingDataTimeout 0] := by
  intro hevery
  have hobserved : (TransitionSystem.run step start
        [.mcpsDataRequest 5 ⟨1, true, false⟩, .mainLoop true ⟨false, false⟩,
          .pendingDataTimeout 0]).map (fun last =>
            (last.ended, last.confirmed, last.strayed)) =
        some ([5], [], [5]) := by
    decide +kernel
  obtain ⟨last, hrun, heq⟩ := map_eq_some_iff.mp hobserved
  obtain ⟨-, heq⟩ := Prod.mk.inj heq
  obtain ⟨-, hstrayed⟩ := Prod.mk.inj heq
  have hnone := (hevery.last hrun).strayed
  rw [hstrayed] at hnone
  contradiction

end MacRun

end Zboss
