import Zboss.MacScan
import Mathlib.Algebra.Order.Group.Multiset

/-!
# Each scan request is confirmed once

A request is held as a callback for its handler or by the steps of its scan,
which know it by `pending_buf`. It is to be confirmed with its own buffer and
scan type when the scan ends or when it is refused.
-/

namespace Zboss

open Function Option List TransitionSystem

def ScanCtx.entry (ctx : ScanCtx) (buf : ℕ) : ℕ × MacScanType :=
  (buf, (ctx.params buf).scanType)

def ScanCall.request : ScanCall → Option ℕ
  | .handleScanRequest param => some param
  | .scanStep => none

def ScanConfirm.entry (confirm : ScanConfirm) : Option (ℕ × MacScanType) :=
  confirm.buf.map fun buf => (buf, confirm.scanType)

def ScanEvent.entries : ScanEvent → Multiset (ℕ × MacScanType)
  | .request param params _ => {(param, params.scanType)}
  | _ => 0

namespace ScanCtx

def queued (ctx : ScanCtx) : Multiset (ℕ × MacScanType) :=
  ↑((ctx.cbQ.filterMap ScanCall.request).map ctx.entry)

def current (ctx : ScanCtx) : Multiset (ℕ × MacScanType) :=
  if ctx.running then ↑(ctx.pendingBuf.toList.map ctx.entry) else 0

def held (ctx : ScanCtx) : Multiset (ℕ × MacScanType) :=
  ctx.queued + ctx.current

def Holds (ctx : ScanCtx) (buf : ℕ) : Prop :=
  .handleScanRequest buf ∈ ctx.cbQ ∨ ctx.running = true ∧ ctx.pendingBuf = some buf

instance (ctx : ScanCtx) (buf : ℕ) : Decidable (ctx.Holds buf) :=
  inferInstanceAs (Decidable (_ ∨ _))

end ScanCtx

structure ScanRun where
  ctx : ScanCtx
  requested : Multiset (ℕ × MacScanType)
  confirmed : Multiset (ℕ × MacScanType)
  refused : List ScanStatus

namespace ScanRun

def refusals (run : ScanRun) : ScanEvent → List ScanConfirm → List ScanStatus
  | .request _ params _, confirms =>
      if run.ctx.accepts params then [] else confirms.map ScanConfirm.status
  | _, _ => []

def Arrives (run : ScanRun) : ScanEvent → Prop
  | .request param _ _ => ¬ run.ctx.Holds param
  | _ => True

instance (run : ScanRun) : (event : ScanEvent) → Decidable (run.Arrives event)
  | .request _ _ _ => inferInstanceAs (Decidable (¬ _))
  | .callback _ => isTrue trivial
  | .alarm _ => isTrue trivial
  | .beacon => isTrue trivial
  | .realignment => isTrue trivial

def step (run : ScanRun) (event : ScanEvent) : Option ScanRun :=
  if run.Arrives event then do
    let (ctx, confirms) ← run.ctx.step event
    return {
      ctx
      requested := run.requested + event.entries
      confirmed := run.confirmed + ↑(confirms.filterMap ScanConfirm.entry)
      refused := run.refused ++ run.refusals event confirms }
  else none

/-- Each request is held or has been confirmed, once and with its own buffer
and scan type, and no refused request has been confirmed as a success. -/
structure Confirmed (run : ScanRun) : Prop where
  accounted : run.requested = run.ctx.held + run.confirmed
  refused : .success ∉ run.refused

def MeetsCall (run : ScanRun) (room : Bool) : ScanCall → Prop
  | .handleScanRequest param =>
      room = true ∧ run.ctx.running = false ∧ (run.ctx.params param).scanType ≠ .passive
  | .scanStep => room = true

def Meets (run : ScanRun) : ScanEvent → Prop
  | .request param params room =>
      ¬ run.ctx.Holds param → room = true ∧ if run.ctx.accepts params then
          run.ctx.running = false
        else run.ctx.pendingBuf = some param
  | .callback room => ∀ call ∈ run.ctx.cbQ.head?, run.MeetsCall room call
  | .alarm room => 0 < run.ctx.scanAlarms → room = true
  | _ => True

end ScanRun

def ScanCtx.due (ctx : ScanCtx) : ℕ :=
  ctx.cbQ.count .scanStep + ctx.scanAlarms

structure ScanCtx.Sound (ctx : ScanCtx) : Prop where
  single : ctx.due ≤ 1
  pendingBuf : ctx.running = true → ctx.pendingBuf ≠ none
  inProgress : ctx.mlmeScanInProgress = true → ctx.running = true

section Steps

variable {ctx next : ScanCtx} {confirms : List ScanConfirm}

def Balanced (ctx : ScanCtx) (event : ScanEvent) (next : ScanCtx)
    (confirms : List ScanConfirm) : Prop :=
  ctx.held + event.entries = next.held + ↑(confirms.filterMap ScanConfirm.entry)

theorem ScanRun.confirmed_step_iff_balanced
    {run : ScanRun} {event : ScanEvent} (hconfirmed : run.Confirmed)
    (harrives : run.Arrives event)
    (hctx : run.ctx.step event = some (next, confirms)) :
    (∀ after, run.step event = some after → after.Confirmed) ↔
      Balanced run.ctx event next confirms ∧ .success ∉ run.refusals event confirms := by
  obtain ⟨haccounted, hrefused⟩ := hconfirmed
  have hbalanced : run.requested + event.entries = next.held +
          (run.confirmed + ↑(confirms.filterMap ScanConfirm.entry)) ↔
      Balanced run.ctx event next confirms := by
    rw [haccounted, Balanced, add_right_comm, add_left_comm, add_comm _ run.confirmed]
    exact add_right_inj _
  have hsplit : ScanStatus.success ∉ run.refused ++ run.refusals event confirms ↔
      .success ∉ run.refusals event confirms := by
    rw [mem_append, not_or]
    exact and_iff_right hrefused
  rw [← hbalanced, ← hsplit, step, if_pos harrives, hctx]
  constructor
  · intro hall
    obtain ⟨hnext, hsuccess⟩ := hall _ rfl
    exact ⟨hnext, hsuccess⟩
  · rintro ⟨hnext, hsuccess⟩ after heq
    obtain rfl := some.inj heq
    exact ⟨hnext, hsuccess⟩

namespace ScanCtx

theorem running_iff : ctx.running = true ↔ .scanStep ∈ ctx.cbQ ∨ 0 < ctx.scanAlarms := by
  rw [running, Bool.or_eq_true, decide_eq_true_iff, decide_eq_true_iff]

theorem current_of_not_running (hidle : ctx.running = false) : ctx.current = 0 := by
  rw [current, hidle]
  rfl

theorem current_of_running {buf : ℕ} (hrunning : ctx.running = true)
    (hbuf : ctx.pendingBuf = some buf) : ctx.current = {ctx.entry buf} := by
  rw [current, hrunning, hbuf]
  rfl

theorem mem_requests {cbQ : List ScanCall} {param : ℕ} :
    param ∈ cbQ.filterMap ScanCall.request ↔ .handleScanRequest param ∈ cbQ := by
  rw [mem_filterMap]
  constructor
  · rintro ⟨call, hmem, hcall⟩
    cases call with
    | handleScanRequest other =>
      obtain rfl := some.inj hcall
      exact hmem
    | scanStep => contradiction
  · intro hmem
    exact ⟨_, hmem, rfl⟩

theorem queued_congr (hcalls : next.cbQ.filterMap ScanCall.request =
      ctx.cbQ.filterMap ScanCall.request)
    (hentry : ∀ param, .handleScanRequest param ∈ ctx.cbQ →
      next.entry param = ctx.entry param) : next.queued = ctx.queued := by
  rw [queued, queued, hcalls]
  refine congrArg _ (map_congr_left fun param hmem => ?_)
  exact hentry param (mem_requests.mp hmem)

theorem queued_append {param : ℕ} (hcbQ : next.cbQ = ctx.cbQ ++ [.handleScanRequest param])
    (hentry : ∀ other, .handleScanRequest other ∈ ctx.cbQ →
      next.entry other = ctx.entry other) :
    next.queued = ctx.queued + {next.entry param} := by
  have hsame : (ctx.cbQ.filterMap ScanCall.request).map next.entry =
      (ctx.cbQ.filterMap ScanCall.request).map ctx.entry :=
    map_congr_left fun other hmem => hentry other (mem_requests.mp hmem)
  rw [queued, queued, hcbQ, filterMap_append, map_append, hsame]
  rfl

theorem queued_cons {param : ℕ} {rest : List ScanCall}
    (hcbQ : ctx.cbQ = .handleScanRequest param :: rest)
    (hnext : next.cbQ.filterMap ScanCall.request = rest.filterMap ScanCall.request)
    (hentry : ∀ other, next.entry other = ctx.entry other) :
    ctx.queued = {ctx.entry param} + next.queued := by
  rw [queued, queued, hcbQ, hnext, funext hentry]
  rfl

end ScanCtx

namespace ScanCtx

variable {param : ℕ} {params : ScanParams} {room : Bool}

theorem entry_setParams_of_ne {other : ℕ} (hne : other ≠ param) :
    (ctx.setParams param params).entry other = ctx.entry other := by
  rw [entry, entry, setParams]
  dsimp only
  rw [update_of_ne hne]

theorem entry_setParams_self :
    (ctx.setParams param params).entry param = (param, params.scanType) := by
  rw [entry, setParams]
  dsimp only
  rw [update_self]

theorem params_setParams : (ctx.setParams param params).params param = params :=
  update_self ..

theorem accepts_setParams : (ctx.setParams param params).accepts
        ((ctx.setParams param params).params param) = ctx.accepts params := by
  rw [params_setParams]
  rfl

structure Accepted (ctx : ScanCtx) (param : ℕ) (params : ScanParams) (room : Bool)
    (next : ScanCtx) : Prop where
  pendingBuf : next.pendingBuf = some param
  params : next.params = (ctx.setParams param params).params
  cbQ : next.cbQ = if room then ctx.cbQ ++ [.handleScanRequest param] else ctx.cbQ
  scanAlarms : next.scanAlarms = ctx.scanAlarms
  inProgress : next.mlmeScanInProgress = ctx.mlmeScanInProgress

theorem request_of_accepts (haccepts : ctx.accepts params = true) :
    ctx.Accepted param params room (ctx.request param params room).1 ∧
      (ctx.request param params room).2 = [] := by
  rw [request, zbMlmeScanRequest, if_pos (accepts_setParams.trans haccepts), schedule]
  cases room with
  | false => exact ⟨⟨rfl, rfl, rfl, rfl, rfl⟩, rfl⟩
  | true => exact ⟨⟨rfl, rfl, rfl, rfl, rfl⟩, rfl⟩

theorem Accepted.running_eq (haccepted : ctx.Accepted param params room next) :
    next.running = ctx.running := by
  rw [running, running, haccepted.cbQ, haccepted.scanAlarms]
  cases room with
  | false => rfl
  | true => simp

theorem Accepted.due_eq (haccepted : ctx.Accepted param params room next) :
    next.due = ctx.due := by
  rw [due, due, haccepted.cbQ, haccepted.scanAlarms]
  cases room with
  | false => rfl
  | true => simp

theorem request_of_not_accepts (haccepts : ctx.accepts params = false) :
    ctx.request param params room = (ctx.setParams param params, if room then
          [⟨ctx.pendingBuf, if params.valid then .success else .invalidParameter,
            params.scanType⟩]
        else []) := by
  have hrefused : (ctx.setParams param params).accepts
      ((ctx.setParams param params).params param) = false :=
    accepts_setParams.trans haccepts
  rw [request, zbMlmeScanRequest, params_setParams] at *
  exact if_neg (Bool.eq_false_iff.mp hrefused)

variable {buf : ℕ} {before : ScanCtx}

theorem holds_of_current (hrunning : ctx.running = true)
    (hbuf : ctx.pendingBuf = some buf) : ctx.Holds buf :=
  .inr ⟨hrunning, hbuf⟩

section

variable (hheld : ¬ ctx.Holds param)

include hheld

theorem queued_setParams : (ctx.setParams param params).queued = ctx.queued := by
  refine queued_congr rfl fun other hmem => entry_setParams_of_ne ?_
  rintro rfl
  exact hheld (.inl hmem)

theorem held_setParams : (ctx.setParams param params).held = ctx.held := by
  rw [held, held, queued_setParams hheld]
  refine congrArg _ ?_
  cases hrunning : ctx.running with
  | false =>
    rw [current_of_not_running hrunning]
    exact current_of_not_running hrunning
  | true =>
    cases hbuf : ctx.pendingBuf with
    | none =>
      rw [current, current, setParams, hbuf]
      rfl
    | some buf =>
      have hne : buf ≠ param := by
        rintro rfl
        exact hheld (holds_of_current hrunning hbuf)
      have hcurrent : (ctx.setParams param params).current =
          {(ctx.setParams param params).entry buf} :=
        current_of_running hrunning hbuf
      rw [hcurrent, current_of_running hrunning hbuf, entry_setParams_of_ne hne]

theorem balanced_refused_iff (haccepts : ctx.accepts params = false) :
    Balanced ctx (.request param params room)
        (ctx.request param params room).1 (ctx.request param params room).2 ↔
      room = true ∧ ctx.pendingBuf = some param := by
  rw [request_of_not_accepts haccepts, Balanced]
  dsimp only
  rw [held_setParams hheld, add_right_inj, ScanEvent.entries]
  cases room with
  | false => simp
  | true =>
    cases hbuf : ctx.pendingBuf with
    | none =>
      refine iff_of_false (fun hone => ?_) (fun hsome => nomatch hsome.2)
      exact Multiset.singleton_ne_zero _ hone
    | some buf =>
      refine Multiset.singleton_inj.trans ?_
      rw [Prod.mk.injEq, some.injEq]
      exact ⟨fun h => ⟨rfl, h.1.symm⟩, fun h => ⟨h.2.symm, rfl⟩⟩

theorem balanced_accepted_iff (hsound : ctx.Sound)
    (haccepted : ctx.Accepted param params room next) :
    Balanced ctx (.request param params room) next [] ↔
      room = true ∧ ctx.running = false := by
  have hentry : next.entry = (ctx.setParams param params).entry := by
    funext other
    rw [entry, entry, haccepted.params]
  have hsame : ∀ other, .handleScanRequest other ∈ ctx.cbQ →
      next.entry other = ctx.entry other := by
    intro other hmem
    rw [hentry]
    refine entry_setParams_of_ne ?_
    rintro rfl
    exact hheld (.inl hmem)
  have hself : next.entry param = (param, params.scanType) := by
    rw [hentry, entry_setParams_self]
  have hqueued : next.queued =
      ctx.queued + if room then {(param, params.scanType)} else 0 := by
    cases room with
    | false =>
      rw [queued_congr (congrArg _ haccepted.cbQ) hsame]
      exact (add_zero _).symm
    | true =>
      rw [queued_append haccepted.cbQ hsame, hself]
      rfl
  rw [Balanced, held, held, hqueued]
  cases hrunning : ctx.running with
  | false =>
    rw [current_of_not_running hrunning,
      current_of_not_running (haccepted.running_eq.trans hrunning)]
    cases room with
    | false => simp [ScanEvent.entries]
    | true => simp [ScanEvent.entries]
  | true =>
    obtain ⟨buf, hbuf⟩ := ne_none_iff_exists'.mp (hsound.pendingBuf hrunning)
    rw [current_of_running hrunning hbuf, current_of_running
      (haccepted.running_eq.trans hrunning) haccepted.pendingBuf, hself]
    refine iff_of_false (fun hbalanced => ?_) (fun hidle => nomatch hidle.2)
    cases room with
    | false =>
      have hcard := congrArg Multiset.card hbalanced
      simp [ScanEvent.entries] at hcard
    | true =>
      have hpair : ctx.entry buf = (param, params.scanType) := by
        simpa [ScanEvent.entries, add_assoc] using hbalanced
      have hsame : buf = param := congrArg Prod.fst hpair
      exact hheld (hsame ▸ holds_of_current hrunning hbuf)

end

theorem running_iff_due : ctx.running = true ↔ 0 < ctx.due := by
  rw [running_iff, due, Nat.add_pos_iff_pos_or_pos, count_pos_iff]

structure Handled (ctx : ScanCtx) (param : ℕ) (room : Bool) (next : ScanCtx) : Prop where
  pendingBuf : next.pendingBuf = some param
  entry : ∀ buf, next.entry buf = ctx.entry buf
  requests : next.cbQ.filterMap ScanCall.request = ctx.cbQ.filterMap ScanCall.request
  due : next.due = ctx.due +
    if room = true ∧ (ctx.params param).scanType ≠ .passive then 1 else 0
  inProgress : next.mlmeScanInProgress = ctx.mlmeScanInProgress

theorem handled_zbHandleScanRequest (ctx : ScanCtx) (param : ℕ) (room : Bool) :
    ctx.Handled param room (ctx.zbHandleScanRequest param room) := by
  rw [zbHandleScanRequest]
  cases htype : (ctx.params param).scanType with
  | active =>
    dsimp only
    rw [schedule]
    cases room with
    | false => exact ⟨rfl, fun _ => rfl, rfl, by simp [due], rfl⟩
    | true =>
      refine ⟨rfl, fun _ => rfl, ?_, ?_, rfl⟩
      · rw [if_pos rfl]
        dsimp only
        rw [filterMap_append]
        exact append_nil _
      · simp [due, htype, Nat.add_right_comm]
  | passive => exact ⟨rfl, fun _ => rfl, rfl, by simp [due, htype], rfl⟩
  | ed =>
    have hentry : ∀ buf, (update ctx.params param
        ⟨.ed, 0, ∅⟩ buf).scanType = (ctx.params buf).scanType := by
      intro buf
      by_cases hbuf : buf = param
      · subst hbuf
        rw [update_self, htype]
      · rw [update_of_ne hbuf]
    dsimp only
    rw [scheduleAlarm]
    cases room with
    | false =>
      exact ⟨rfl, fun buf => congrArg (Prod.mk buf) (hentry buf), rfl,
        by simp [due, setParams], rfl⟩
    | true =>
      exact ⟨rfl, fun buf => congrArg (Prod.mk buf) (hentry buf), rfl,
        by simp [due, setParams, htype, Nat.add_assoc], rfl⟩
  | orphan =>
    dsimp only
    rw [scheduleAlarm]
    cases room with
    | false => exact ⟨rfl, fun _ => rfl, rfl, by simp [due], rfl⟩
    | true => exact ⟨rfl, fun _ => rfl, rfl, by simp [due, htype, Nat.add_assoc], rfl⟩

theorem balanced_handled_iff {rest : List ScanCall} (hsound : ctx.Sound)
    (hcbQ : ctx.cbQ = .handleScanRequest param :: rest)
    (hhandled : ScanCtx.Handled { ctx with cbQ := rest } param room next) :
    Balanced ctx (.callback room) next [] ↔ room = true ∧ ctx.running = false ∧
        (ctx.params param).scanType ≠ .passive := by
  have hqueued : ctx.queued = {ctx.entry param} + next.queued :=
    queued_cons hcbQ hhandled.requests hhandled.entry
  have hdue : next.due = ctx.due +
      if room = true ∧ (ctx.params param).scanType ≠ .passive then 1 else 0 := by
    have hsame : ScanCtx.due { ctx with cbQ := rest } = ctx.due := by
      rw [due, due, hcbQ, count_cons_of_ne (by simp)]
    rw [hhandled.due, hsame]
  have hself : next.entry param = ctx.entry param := hhandled.entry param
  rw [Balanced, held, held, hqueued]
  cases hrunning : ctx.running with
  | false =>
    have hidle : ctx.due = 0 := by
      have hnot := mt running_iff_due.mpr (Bool.eq_false_iff.mp hrunning)
      omega
    rw [current_of_not_running hrunning]
    by_cases hstarts : room = true ∧ (ctx.params param).scanType ≠ .passive
    · rw [if_pos hstarts, hidle] at hdue
      have hnext : next.running = true := running_iff_due.mpr (by omega)
      rw [current_of_running hnext hhandled.pendingBuf, hself]
      refine iff_of_true ?_ ⟨hstarts.1, rfl, hstarts.2⟩
      simp [ScanEvent.entries, add_comm]
    · rw [if_neg hstarts, hidle] at hdue
      have hnext : next.running = false := by
        refine Bool.eq_false_iff.mpr fun hnext => ?_
        have hpos := running_iff_due.mp hnext
        omega
      rw [current_of_not_running hnext]
      refine iff_of_false (fun hbalanced => ?_) (fun h => hstarts ⟨h.1, h.2.2⟩)
      have hcard := congrArg Multiset.card hbalanced
      simp [ScanEvent.entries] at hcard
  | true =>
    refine iff_of_false (fun hbalanced => ?_) (fun h => nomatch h.2.1)
    obtain ⟨buf, hbuf⟩ := ne_none_iff_exists'.mp (hsound.pendingBuf hrunning)
    have hnext : next.running = true := by
      have hpos := running_iff_due.mp hrunning
      exact running_iff_due.mpr (by omega)
    rw [current_of_running hrunning hbuf,
      current_of_running hnext hhandled.pendingBuf] at hbalanced
    have hcard := congrArg Multiset.card hbalanced
    simp [ScanEvent.entries] at hcard

/-- What a step of a scan changes, with `rest` the other steps which are due:
it sets a channel or ends the scan. -/
structure Stepped (ctx : ScanCtx) (buf : ℕ) (room : Bool) (next : ScanCtx)
    (confirms : List ScanConfirm) : Prop where
  found : ctx.pendingBuf = some buf
  pendingBuf : next.pendingBuf = ctx.pendingBuf
  params : next.params = ctx.params
  cbQ : next.cbQ = ctx.cbQ
  outcome : (∃ channel ∈ ctx.unscannedChannels,
      next.unscannedChannels = ctx.unscannedChannels.erase channel ∧
      next.mlmeScanInProgress = true ∧
      next.scanAlarms = rescheduled (ctx.params buf).scanType ctx.scanAlarms room ∧
      confirms = []) ∨
    (nextChannel ctx.unscannedChannels = none ∧
      next.mlmeScanInProgress = false ∧ next.scanAlarms = ctx.scanAlarms ∧
      confirms.filterMap ScanConfirm.entry = if room then [ctx.entry buf] else [])

theorem stepped_of_zbMlmeScanStep
    (hstep : ctx.zbMlmeScanStep room = some (next, confirms)) :
    ∃ buf, ctx.Stepped buf room next confirms := by
  obtain ⟨buf, hbuf, hstep⟩ := bind_eq_some_iff.mp hstep
  refine ⟨buf, ?_⟩
  dsimp only at hstep
  cases hchannel : nextChannel ctx.unscannedChannels with
  | some channel =>
    rw [hchannel] at hstep
    obtain ⟨rfl, rfl⟩ := some_pair_inj hstep
    have hmem : channel ∈ ctx.unscannedChannels := by
      rw [nextChannel] at hchannel
      have hdecide := List.find?_some hchannel
      exact of_decide_eq_true hdecide
    exact ⟨hbuf, rfl, rfl, rfl, .inl ⟨channel, hmem, rfl, rfl, rfl, rfl⟩⟩
  | none =>
    rw [hchannel] at hstep
    obtain ⟨rfl, rfl⟩ := some_pair_inj hstep
    refine ⟨hbuf, rfl, rfl, rfl, .inr ⟨hchannel, rfl, rfl, ?_⟩⟩
    cases room with
    | false => rfl
    | true => rfl

theorem rescheduled_zero (scanType : MacScanType) (room : Bool) :
    rescheduled scanType 0 room = room.toNat := by
  cases room with
  | false => simp [rescheduled]
  | true =>
    cases scanType with
    | ed => rfl
    | active => rfl
    | passive => rfl
    | orphan => rfl

theorem balanced_stepped_iff {event : ScanEvent}
    (hevent : event.entries = 0) (hrunning : ctx.running = true)
    (hdue : before.due = 0) (hbuf : before.pendingBuf = ctx.pendingBuf)
    (hparams : before.params = ctx.params)
    (hcbQ : before.cbQ.filterMap ScanCall.request = ctx.cbQ.filterMap ScanCall.request)
    (hstepped : before.Stepped buf room next confirms) :
    Balanced ctx event next confirms ↔ room = true := by
  obtain ⟨hfound, hpending, hsame, hcalls, houtcome⟩ := hstepped
  have hentry : next.entry = ctx.entry := by
    funext other
    rw [entry, entry, hsame, hparams]
  have hqueued : next.queued = ctx.queued := by
    refine queued_congr ?_ fun other _ => congrFun hentry other
    rw [hcalls, hcbQ]
  have hnone : before.cbQ.count .scanStep = 0 := by
    rw [due] at hdue
    omega
  have halarms : before.scanAlarms = 0 := by
    rw [due] at hdue
    omega
  have hcurrent : ctx.current = {ctx.entry buf} :=
    current_of_running hrunning (hbuf ▸ hfound)
  rw [Balanced, held, held, hqueued, hcurrent, hevent]
  obtain ⟨channel, -, -, -, hnext, rfl⟩ | ⟨-, -, hnext, hconfirms⟩ := houtcome
  · rw [halarms, rescheduled_zero] at hnext
    have hdue : next.due = room.toNat := by rw [due, hcalls, hnone, hnext, Nat.zero_add]
    cases room with
    | false =>
      have hidle : next.running = false := by
        refine Bool.eq_false_iff.mpr fun hnext => ?_
        have hpos := running_iff_due.mp hnext
        rw [hdue] at hpos
        exact Nat.lt_irrefl _ hpos
      rw [current_of_not_running hidle]
      simp
    | true =>
      have hstill : next.running = true := running_iff_due.mpr (hdue ▸ Nat.one_pos)
      rw [current_of_running hstill (hpending.trans hfound), hentry]
      simp
  · have hdue : next.due = 0 := by
      rw [due, hcalls, hnone, hnext, halarms]
    have hidle : next.running = false := by
      refine Bool.eq_false_iff.mpr fun hnext => ?_
      have hpos := running_iff_due.mp hnext
      omega
    have hsame : before.entry = ctx.entry := by
      funext other
      rw [entry, entry, hparams]
    rw [current_of_not_running hidle, hconfirms, hsame]
    cases room with
    | false => simp
    | true => simp

theorem Stepped.due_le (hdue : before.due = 0)
    (hstepped : before.Stepped buf room next confirms) : next.due ≤ 1 := by
  obtain ⟨-, -, -, hcalls, houtcome⟩ := hstepped
  rw [due, Nat.add_eq_zero_iff] at hdue
  obtain ⟨hnone, halarms⟩ := hdue
  rw [due, hcalls, hnone, Nat.zero_add]
  obtain ⟨channel, -, -, -, hnext, -⟩ | ⟨-, -, hnext, -⟩ := houtcome
  · rw [hnext, halarms, rescheduled_zero]
    exact room.toNat_le
  · rw [hnext, halarms]
    exact Nat.zero_le 1

theorem sound_stepped (hdue : before.due = 0)
    (hstepped : before.Stepped buf true next confirms) : next.Sound := by
  obtain ⟨hfound, hpending, -, hcalls, houtcome⟩ := hstepped
  rw [due, Nat.add_eq_zero_iff] at hdue
  obtain ⟨hnone, halarms⟩ := hdue
  have hbuf : next.pendingBuf ≠ none := by
    rw [hpending, hfound]
    exact some_ne_none buf
  obtain ⟨channel, -, -, -, hnext, -⟩ | ⟨-, hinProgress, hnext, -⟩ := houtcome
  · rw [halarms, rescheduled_zero] at hnext
    have hdue : next.due = 1 := by
      rw [due, hcalls, hnone, hnext]
      rfl
    refine ⟨hdue.le, fun _ => hbuf, fun _ => ?_⟩
    exact running_iff_due.mpr (hdue ▸ Nat.one_pos)
  · have hdue : next.due = 0 := by
      rw [due, hcalls, hnone, hnext, halarms]
    refine ⟨hdue ▸ Nat.zero_le 1, fun _ => hbuf, fun hstill => ?_⟩
    exact nomatch hinProgress.symm.trans hstill

theorem due_callback {rest : List ScanCall} (hsingle : ctx.due ≤ 1)
    (hcbQ : ctx.cbQ = .scanStep :: rest) :
    ctx.running = true ∧ ScanCtx.due { ctx with cbQ := rest } = 0 := by
  have hcount : ctx.due = ScanCtx.due { ctx with cbQ := rest } + 1 := by
    rw [due, due, hcbQ, count_cons_self]
    exact Nat.add_right_comm ..
  exact ⟨running_iff_due.mpr (by omega), by omega⟩

theorem due_alarm (hsingle : ctx.due ≤ 1) (halarm : 0 < ctx.scanAlarms) :
    ctx.running = true ∧
      ScanCtx.due { ctx with scanAlarms := ctx.scanAlarms - 1 } = 0 := by
  have hcount : ctx.due =
      ScanCtx.due { ctx with scanAlarms := ctx.scanAlarms - 1 } + 1 := by
    rw [due, due]
    dsimp only
    omega
  exact ⟨running_iff_due.mpr (by omega), by omega⟩

end ScanCtx

end Steps

namespace ScanRun

variable {run next : ScanRun}

theorem confirmed_request_iff {param : ℕ} {params : ScanParams} {room : Bool}
    (hconfirmed : run.Confirmed) (hsound : run.ctx.Sound) :
    (∀ next, run.step (.request param params room) = some next →
        next.Confirmed) ↔ run.Meets (.request param params room) := by
  by_cases hheld : run.ctx.Holds param
  · refine iff_of_true (fun next hstep => ?_) (absurd hheld)
    have hnot : ¬ run.Arrives (.request param params room) := not_not_intro hheld
    rw [step, if_neg hnot] at hstep
    contradiction
  · have harrives : run.Arrives (.request param params room) := hheld
    have hctx : run.ctx.step (.request param params room) =
        some ((run.ctx.request param params room).1,
          (run.ctx.request param params room).2) := rfl
    rw [Meets, forall_prop_of_true hheld,
      confirmed_step_iff_balanced hconfirmed harrives hctx, refusals]
    cases haccepts : run.ctx.accepts params with
    | true =>
      obtain ⟨haccepted, hnone⟩ :=
        @ScanCtx.request_of_accepts run.ctx param params room haccepts
      rw [hnone, ScanCtx.balanced_accepted_iff hheld hsound haccepted]
      exact and_iff_left not_mem_nil
    | false =>
      rw [ScanCtx.balanced_refused_iff hheld haccepts]
      refine and_iff_left_of_imp ?_
      rintro ⟨hroom, hbuf⟩
      have hprogress : run.ctx.mlmeScanInProgress = false := by
        refine Bool.eq_false_iff.mpr fun hprogress => hheld ?_
        exact .inr ⟨hsound.inProgress hprogress, hbuf⟩
      have hvalid : params.valid = false := by
        rw [ScanCtx.accepts, hprogress] at haccepts
        simpa using haccepts
      rw [ScanCtx.request_of_not_accepts haccepts, hroom, hvalid]
      simp

theorem sound_request {param : ℕ} {params : ScanParams} {room : Bool}
    (hsound : run.ctx.Sound) (hmeets : run.Meets (.request param params room))
    (hheld : ¬ run.ctx.Holds param) :
    (run.ctx.request param params room).1.Sound := by
  obtain ⟨-, hmeets⟩ := hmeets hheld
  cases haccepts : run.ctx.accepts params with
  | true =>
    rw [if_pos haccepts] at hmeets
    obtain ⟨haccepted, -⟩ := @ScanCtx.request_of_accepts run.ctx param params room haccepts
    have hidle : (run.ctx.request param params room).1.running = false :=
      haccepted.running_eq.trans hmeets
    refine ⟨?_, fun hrunning => ?_, fun hprogress => ?_⟩
    · have hnot := mt ScanCtx.running_iff_due.mpr (Bool.eq_false_iff.mp hidle)
      omega
    · exact nomatch hidle.symm.trans hrunning
    · rw [haccepted.inProgress] at hprogress
      exact nomatch hmeets.symm.trans (hsound.inProgress hprogress)
  | false =>
    rw [ScanCtx.request_of_not_accepts haccepts]
    exact ⟨hsound.single, hsound.pendingBuf, hsound.inProgress⟩

variable {event : ScanEvent}

theorem step_eq_some (hstep : run.step event = some next) : run.Arrives event ∧ ∃ confirms,
      run.ctx.step event = some (next.ctx, confirms) := by
  rw [step] at hstep
  split at hstep
  case isTrue harrives =>
    obtain ⟨⟨ctx, confirms⟩, hctx, heq⟩ := bind_eq_some_iff.mp hstep
    obtain rfl := some.inj heq
    exact ⟨harrives, confirms, hctx⟩
  case isFalse => contradiction

theorem confirmed_of_ctx_none (hctx : run.ctx.step event = none) :
    ∀ next, run.step event = some next → next.Confirmed := by
  intro next hstep
  obtain ⟨-, confirms, hsome⟩ := step_eq_some hstep
  exact nomatch hctx.symm.trans hsome

theorem zbMlmeScanStep_returns {ctx : ScanCtx} {buf : ℕ} (hbuf : ctx.pendingBuf = some buf)
    (room : Bool) :
    ∃ next confirms, ctx.zbMlmeScanStep room = some (next, confirms) := by
  rw [ScanCtx.zbMlmeScanStep, hbuf]
  dsimp only [bind_eq_bind, bind_some]
  split
  · exact ⟨_, _, rfl⟩
  · exact ⟨_, _, rfl⟩

theorem confirmed_scanStep_iff {before : ScanCtx} {room : Bool}
    (hconfirmed : run.Confirmed) (harrives : run.Arrives event)
    (hctx : run.ctx.step event = before.zbMlmeScanStep room)
    (hevent : event.entries = 0)
    (hrefusals : ∀ confirms, run.refusals event confirms = [])
    (hrunning : run.ctx.running = true) (hsound : run.ctx.Sound)
    (hdue : before.due = 0) (hbuf : before.pendingBuf = run.ctx.pendingBuf)
    (hparams : before.params = run.ctx.params)
    (hcbQ : before.cbQ.filterMap ScanCall.request =
      run.ctx.cbQ.filterMap ScanCall.request) :
    ((∀ next, run.step event = some next → next.Confirmed) ↔ room = true) ∧
      (room = true → ∀ next, run.step event = some next → next.ctx.Sound) := by
  obtain ⟨buf, hsome⟩ := ne_none_iff_exists'.mp (hsound.pendingBuf hrunning)
  obtain ⟨after, confirms, hafter⟩ := zbMlmeScanStep_returns (hbuf.trans hsome) room
  obtain ⟨other, hstepped⟩ := ScanCtx.stepped_of_zbMlmeScanStep hafter
  rw [hafter] at hctx
  constructor
  · rw [confirmed_step_iff_balanced hconfirmed harrives hctx, hrefusals,
      ScanCtx.balanced_stepped_iff hevent hrunning hdue hbuf hparams hcbQ hstepped]
    exact and_iff_left not_mem_nil
  · rintro rfl next hstep
    obtain ⟨-, confirms', hnext⟩ := step_eq_some hstep
    obtain ⟨rfl, -⟩ := some_pair_inj (hctx.symm.trans hnext)
    exact ScanCtx.sound_stepped hdue hstepped

theorem callback_step {room : Bool} (hconfirmed : run.Confirmed) (hsound : run.ctx.Sound) :
    ((∀ next, run.step (.callback room) = some next → next.Confirmed) ↔
        run.Meets (.callback room)) ∧
      (run.Meets (.callback room) →
        ∀ next, run.step (.callback room) = some next → next.ctx.Sound) := by
  have harrives : run.Arrives (.callback room) := trivial
  cases hcbQ : run.ctx.cbQ with
  | nil =>
    have hctx : run.ctx.step (.callback room) = none := by
      rw [ScanCtx.step, ScanCtx.callback, hcbQ]
    refine ⟨iff_of_true (confirmed_of_ctx_none hctx) ?_, fun _ next h => ?_⟩
    · intro call hmem
      rw [hcbQ] at hmem
      contradiction
    · obtain ⟨-, confirms, hsome⟩ := step_eq_some h
      exact nomatch hctx.symm.trans hsome
  | cons call rest =>
    have hmeets : run.Meets (.callback room) ↔ run.MeetsCall room call := by
      rw [Meets, hcbQ, List.head?_cons]
      simp only [mem_def, some.injEq, forall_eq']
    rw [hmeets]
    cases call with
    | handleScanRequest param =>
      have hctx : run.ctx.step (.callback room) =
          some ({ run.ctx with cbQ := rest }.zbHandleScanRequest param room, []) := by
        rw [ScanCtx.step, ScanCtx.callback, hcbQ]
      have hhandled := ScanCtx.handled_zbHandleScanRequest
        { run.ctx with cbQ := rest } param room
      constructor
      · rw [confirmed_step_iff_balanced hconfirmed harrives hctx,
          ScanCtx.balanced_handled_iff hsound hcbQ hhandled]
        exact and_iff_left not_mem_nil
      · rintro ⟨-, hidle, -⟩ next hstep
        obtain ⟨-, confirms, hnext⟩ := step_eq_some hstep
        obtain ⟨heq, -⟩ := some_pair_inj (hctx.symm.trans hnext)
        rw [← heq]
        have hnot := mt ScanCtx.running_iff_due.mpr (Bool.eq_false_iff.mp hidle)
        have hsame : ScanCtx.due { run.ctx with cbQ := rest } = run.ctx.due := by
          rw [ScanCtx.due, ScanCtx.due, hcbQ, count_cons_of_ne (by simp)]
        refine ⟨?_, fun _ => ?_, fun hprogress => ?_⟩
        · rw [hhandled.due, hsame]
          split
          · omega
          · omega
        · rw [hhandled.pendingBuf]
          exact some_ne_none param
        · rw [hhandled.inProgress] at hprogress
          exact nomatch hidle.symm.trans (hsound.inProgress hprogress)
    | scanStep =>
      have hctx : run.ctx.step (.callback room) =
          ScanCtx.zbMlmeScanStep { run.ctx with cbQ := rest } room := by
        rw [ScanCtx.step, ScanCtx.callback, hcbQ]
      obtain ⟨hrunning, hdue⟩ := ScanCtx.due_callback hsound.single hcbQ
      exact confirmed_scanStep_iff hconfirmed harrives hctx rfl
        (fun _ => rfl) hrunning hsound hdue rfl rfl (by
          rw [hcbQ]
          rfl)

theorem alarm_step {room : Bool} (hconfirmed : run.Confirmed) (hsound : run.ctx.Sound) :
    ((∀ next, run.step (.alarm room) = some next → next.Confirmed) ↔
        run.Meets (.alarm room)) ∧
      (run.Meets (.alarm room) →
        ∀ next, run.step (.alarm room) = some next → next.ctx.Sound) := by
  have harrives : run.Arrives (.alarm room) := trivial
  by_cases halarm : 0 < run.ctx.scanAlarms
  · have hctx : run.ctx.step (.alarm room) = ScanCtx.zbMlmeScanStep
        { run.ctx with scanAlarms := run.ctx.scanAlarms - 1 } room := by
      rw [ScanCtx.step, ScanCtx.alarm, if_pos halarm]
    obtain ⟨hrunning, hdue⟩ := ScanCtx.due_alarm hsound.single halarm
    rw [Meets, forall_prop_of_true halarm]
    exact confirmed_scanStep_iff hconfirmed harrives hctx rfl (fun _ => rfl)
      hrunning hsound hdue rfl rfl rfl
  · have hctx : run.ctx.step (.alarm room) = none := by
      rw [ScanCtx.step, ScanCtx.alarm, if_neg halarm]
    refine ⟨iff_of_true (confirmed_of_ctx_none hctx) (absurd · halarm),
      fun _ next hstep => ?_⟩
    obtain ⟨-, confirms, hsome⟩ := step_eq_some hstep
    exact nomatch hctx.symm.trans hsome

theorem flags_step {event : ScanEvent} {ctx : ScanCtx} (hconfirmed : run.Confirmed)
    (hsound : run.ctx.Sound) (harrives : run.Arrives event)
    (hevent : event.entries = 0)
    (hrefusals : run.refusals event [] = [])
    (hctx : run.ctx.step event = some (ctx, []))
    (hflags : ∃ found realigned, ctx =
      { run.ctx with beaconFound := found, gotRealignment := realigned }) :
    ∀ next, run.step event = some next → next.Confirmed ∧ next.ctx.Sound := by
  obtain ⟨found, realigned, rfl⟩ := hflags
  have hall := (confirmed_step_iff_balanced hconfirmed harrives hctx).mpr (by
    rw [hrefusals, Balanced, hevent]
    exact ⟨rfl, not_mem_nil⟩)
  intro next hstep
  refine ⟨hall next hstep, ?_⟩
  obtain ⟨-, confirms, hnext⟩ := step_eq_some hstep
  obtain ⟨heq, -⟩ := some_pair_inj (hctx.symm.trans hnext)
  rw [← heq]
  exact ⟨hsound.single, hsound.pendingBuf, hsound.inProgress⟩

section

variable (hconfirmed : run.Confirmed) (hsound : run.ctx.Sound)

include hconfirmed hsound

theorem beacon_step : ∀ next, run.step .beacon = some next →
      next.Confirmed ∧ next.ctx.Sound := by
  refine flags_step hconfirmed hsound trivial rfl rfl rfl ?_
  rw [ScanCtx.beacon]
  split
  · exact ⟨_, _, rfl⟩
  · exact ⟨_, _, rfl⟩

theorem realignment_step : ∀ next, run.step .realignment = some next →
      next.Confirmed ∧ next.ctx.Sound := by
  cases hctx : run.ctx.realignment with
  | none =>
    intro next hstep
    obtain ⟨-, confirms, hsome⟩ := step_eq_some hstep
    rw [ScanCtx.step, hctx] at hsome
    contradiction
  | some ctx =>
    refine @flags_step run _ ctx hconfirmed hsound trivial rfl rfl ?_ ?_
    · rw [ScanCtx.step, hctx]
      rfl
    · rw [ScanCtx.realignment] at hctx
      split at hctx
      · obtain ⟨buf, -, heq⟩ := bind_eq_some_iff.mp hctx
        exact ⟨_, _, (some.inj heq).symm⟩
      · exact ⟨_, _, (some.inj hctx).symm⟩

theorem confirmed_step_iff : (∀ next, run.step event = some next → next.Confirmed) ↔
      run.Meets event := by
  cases event with
  | request param params room => exact confirmed_request_iff hconfirmed hsound
  | callback room => exact (callback_step hconfirmed hsound).1
  | alarm room => exact (alarm_step hconfirmed hsound).1
  | beacon =>
    refine iff_of_true (fun next hstep => ?_) trivial
    exact (beacon_step hconfirmed hsound next hstep).1
  | realignment =>
    refine iff_of_true (fun next hstep => ?_) trivial
    exact (realignment_step hconfirmed hsound next hstep).1

theorem sound_step (hmeets : run.Meets event)
    (hstep : run.step event = some next) : next.ctx.Sound := by
  cases event with
  | request param params room =>
    obtain ⟨hheld, confirms, hctx⟩ := step_eq_some hstep
    have hrequest := sound_request hsound hmeets hheld
    rw [some.inj hctx] at hrequest
    exact hrequest
  | callback room => exact (callback_step hconfirmed hsound).2 hmeets next hstep
  | alarm room => exact (alarm_step hconfirmed hsound).2 hmeets next hstep
  | beacon => exact (beacon_step hconfirmed hsound next hstep).2
  | realignment => exact (realignment_step hconfirmed hsound next hstep).2

end

def start : ScanRun := ⟨ScanCtx.start, 0, 0, []⟩

theorem confirmed_start : start.Confirmed := ⟨rfl, not_mem_nil⟩

theorem sound_start : start.ctx.Sound :=
  ⟨Nat.zero_le 1, fun hrunning => (nomatch hrunning), fun hprogress => nomatch hprogress⟩

/-! ## The end of a scan -/

def Finishes (run : ScanRun) : Prop :=
  ∃ events, (∀ event ∈ events, event = .callback true ∨ event = .alarm true) ∧
    ∃ last, TransitionSystem.run step run events = some last ∧
      last.Confirmed ∧ last.requested = run.requested ∧
      last.requested = last.confirmed

theorem finishes_of_held (hconfirmed : run.Confirmed)
    (hheld : run.ctx.held = 0) : run.Finishes := by
  refine ⟨[], fun _ hmem => (nomatch hmem), run, rfl, hconfirmed, rfl, ?_⟩
  rw [hconfirmed.accounted, hheld, zero_add]

theorem finishes_of_step (hevent : event = .callback true ∨ event = .alarm true)
    (hstep : run.step event = some next) (hfinishes : next.Finishes) :
    run.Finishes := by
  obtain ⟨events, hevents, last, hlast, hconfirmed, hrequested, hall⟩ := hfinishes
  refine ⟨event :: events, ?_, last,
    run_cons_eq_some.mpr ⟨next, hstep, hlast⟩, hconfirmed, ?_, hall⟩
  · intro other hmem
    obtain rfl | hmem := mem_cons.mp hmem
    · exact hevent
    · exact hevents other hmem
  · rw [hrequested]
    rw [step] at hstep
    split at hstep
    case isTrue =>
      obtain ⟨⟨ctx, confirms⟩, -, heq⟩ := bind_eq_some_iff.mp hstep
      obtain rfl := some.inj heq
      obtain rfl | rfl := hevent
      · exact add_zero _
      · exact add_zero _
    case isFalse => contradiction

theorem unscanned_lt_of_stepped
    {ctx before next : ScanCtx} {buf : ℕ} {confirms : List ScanConfirm}
    (hdue : before.due = 0)
    (hchannels : before.unscannedChannels = ctx.unscannedChannels)
    (hstepped : before.Stepped buf true next confirms)
    (hrunning : next.running = true) :
    next.unscannedChannels.card < ctx.unscannedChannels.card := by
  obtain ⟨-, -, -, hcalls, houtcome⟩ := hstepped
  obtain ⟨channel, hmem, hnext, -⟩ | ⟨-, -, hnext, -⟩ := houtcome
  · rw [hnext, ← hchannels]
    exact Finset.card_erase_lt_of_mem hmem
  · have hsame : next.due = before.due := by
      rw [ScanCtx.due, ScanCtx.due, hcalls, hnext]
    have hpos := ScanCtx.running_iff_due.mp hrunning
    omega

section

variable (hconfirmed : run.Confirmed) (hsound : run.ctx.Sound)

include hconfirmed hsound

theorem exists_advance (hrunning : run.ctx.running = true) (hqueued : run.ctx.queued = 0) :
    ∃ event next, (event = .callback true ∨ event = .alarm true) ∧
      run.step event = some next ∧ next.Confirmed ∧ next.ctx.Sound ∧
      next.ctx.queued = 0 ∧
      (next.ctx.running = true → next.ctx.unscannedChannels.card <
          run.ctx.unscannedChannels.card) := by
  have hrequests : run.ctx.cbQ.filterMap ScanCall.request = [] := by
    rw [ScanCtx.queued, Multiset.coe_eq_zero] at hqueued
    exact map_eq_nil_iff.mp hqueued
  obtain ⟨buf, hbuf⟩ := ne_none_iff_exists'.mp (hsound.pendingBuf hrunning)
  -- the call takes the step off its queue first
  have hadvance : ∀ (event : ScanEvent) (before : ScanCtx),
      event = .callback true ∨ event = .alarm true →
      run.Arrives event → run.Meets event →
      run.ctx.step event = before.zbMlmeScanStep true →
      before.pendingBuf = some buf → before.due = 0 →
      before.unscannedChannels = run.ctx.unscannedChannels →
      before.cbQ.filterMap ScanCall.request = [] →
      ∃ event next, (event = .callback true ∨ event = .alarm true) ∧
        run.step event = some next ∧ next.Confirmed ∧ next.ctx.Sound ∧
        next.ctx.queued = 0 ∧
        (next.ctx.running = true → next.ctx.unscannedChannels.card <
            run.ctx.unscannedChannels.card) := by
    intro event before hevent harrives hmeets hctx hpending hdue hchannels hcalls
    obtain ⟨after, confirms, hafter⟩ := zbMlmeScanStep_returns hpending true
    obtain ⟨other, hstepped⟩ := ScanCtx.stepped_of_zbMlmeScanStep hafter
    have hstep : run.step event = some ⟨after, run.requested + event.entries,
          run.confirmed + ↑(confirms.filterMap ScanConfirm.entry),
          run.refused ++ run.refusals event confirms⟩ := by
      rw [step, if_pos harrives, hctx, hafter]
      rfl
    have hnone : after.queued = 0 := by
      rw [ScanCtx.queued, hstepped.cbQ, hcalls]
      rfl
    exact ⟨event, _, hevent, hstep,
      (confirmed_step_iff hconfirmed hsound).mpr hmeets _ hstep,
      sound_step hconfirmed hsound hmeets hstep, hnone,
      unscanned_lt_of_stepped hdue hchannels hstepped⟩
  by_cases halarm : 0 < run.ctx.scanAlarms
  · refine hadvance (.alarm true)
      { run.ctx with scanAlarms := run.ctx.scanAlarms - 1 } (.inr rfl)
      trivial (fun _ => rfl) ?_ hbuf (ScanCtx.due_alarm hsound.single halarm).2 rfl
      hrequests
    rw [ScanCtx.step, ScanCtx.alarm, if_pos halarm]
  · cases hcbQ : run.ctx.cbQ with
    | nil =>
      obtain hmem | hpos := ScanCtx.running_iff.mp hrunning
      · rw [hcbQ] at hmem
        contradiction
      · contradiction
    | cons call rest =>
      cases call with
      | handleScanRequest param =>
        rw [hcbQ] at hrequests
        contradiction
      | scanStep =>
        rw [hcbQ] at hrequests
        refine hadvance (.callback true) { run.ctx with cbQ := rest }
          (.inl rfl) trivial ?_ ?_ hbuf
          (ScanCtx.due_callback hsound.single hcbQ).2 rfl hrequests
        · intro call hmem
          rw [hcbQ, List.head?_cons] at hmem
          obtain rfl := some.inj hmem
          rfl
        · rw [ScanCtx.step, ScanCtx.callback, hcbQ]

/-- By induction on the channels which are left. -/
theorem finishes_of_queued (hqueued : run.ctx.queued = 0) : run.Finishes := by
  induction hcard : run.ctx.unscannedChannels.card
    using Nat.strong_induction_on generalizing run with
  | _ card ih =>
    cases hrunning : run.ctx.running with
    | false =>
      refine finishes_of_held hconfirmed ?_
      rw [ScanCtx.held, hqueued, ScanCtx.current_of_not_running hrunning, add_zero]
    | true =>
      obtain ⟨event, next, hevent, hstep, hnext, hsound, hqueued, hless⟩ :=
        exists_advance hconfirmed hsound hrunning hqueued
      cases hstill : next.ctx.running with
      | false =>
        refine finishes_of_step hevent hstep (finishes_of_held hnext ?_)
        rw [ScanCtx.held, hqueued, ScanCtx.current_of_not_running hstill, add_zero]
      | true =>
        exact finishes_of_step hevent hstep
          (ih _ (hcard ▸ hless hstill) hnext hsound hqueued rfl)

theorem finishes_of_single (hsingle : run.ctx.held.card ≤ 1)
    (hknown : ∀ entry ∈ run.ctx.held, entry.2 ≠ .passive) :
    run.Finishes := by
  cases hrunning : run.ctx.running with
  | true =>
    obtain ⟨buf, hbuf⟩ := ne_none_iff_exists'.mp (hsound.pendingBuf hrunning)
    rw [ScanCtx.held, ScanCtx.current_of_running hrunning hbuf,
      Multiset.card_add, Multiset.card_singleton] at hsingle
    have hnone : run.ctx.queued.card = 0 := by omega
    exact finishes_of_queued hconfirmed hsound (Multiset.card_eq_zero.mp hnone)
  | false =>
    have hheld : run.ctx.held = run.ctx.queued := by
      rw [ScanCtx.held, ScanCtx.current_of_not_running hrunning, add_zero]
    cases hcbQ : run.ctx.cbQ with
    | nil =>
      refine finishes_of_queued hconfirmed hsound ?_
      rw [ScanCtx.queued, hcbQ]
      rfl
    | cons call rest =>
      cases call with
      | scanStep =>
        have hmem : ScanCall.scanStep ∈ run.ctx.cbQ := by
          rw [hcbQ]
          exact mem_cons_self
        have hstill := ScanCtx.running_iff.mpr (.inl hmem)
        exact nomatch hrunning.symm.trans hstill
      | handleScanRequest param =>
        have hhandled := ScanCtx.handled_zbHandleScanRequest
          { run.ctx with cbQ := rest } param true
        have hcons := ScanCtx.queued_cons hcbQ hhandled.requests hhandled.entry
        have hmem : run.ctx.entry param ∈ run.ctx.held := by
          rw [hheld, hcons]
          exact Multiset.mem_add.mpr (.inl (Multiset.mem_singleton_self _))
        have hmeets : run.Meets (.callback true) := by
          intro call hhead
          rw [hcbQ, List.head?_cons] at hhead
          obtain rfl := some.inj hhead
          exact ⟨rfl, hrunning, hknown _ hmem⟩
        have hstep : run.step (.callback true) = some
            ⟨ScanCtx.zbHandleScanRequest { run.ctx with cbQ := rest }
              param true, run.requested + 0, run.confirmed + 0,
              run.refused ++ []⟩ := by
          have hcalled : run.ctx.callback true = some (ScanCtx.zbHandleScanRequest
                { run.ctx with cbQ := rest } param true, []) := by
            rw [ScanCtx.callback, hcbQ]
          have harrives : run.Arrives (.callback true) := trivial
          rw [step, if_pos harrives, ScanCtx.step, hcalled]
          rfl
        refine finishes_of_step (.inl rfl) hstep (finishes_of_queued
            ((confirmed_step_iff hconfirmed hsound).mpr hmeets _ hstep)
            (sound_step hconfirmed hsound hmeets hstep) ?_)
        rw [hheld, hcons, Multiset.card_add, Multiset.card_singleton,
          Nat.add_comm, Nat.succ_le_succ_iff, Nat.le_zero] at hsingle
        exact Multiset.card_eq_zero.mp hsingle

end

theorem refused_unchanged {param : ℕ} {params : ScanParams} {room : Bool}
    (haccepts : run.ctx.accepts params = false)
    (hstep : run.step (.request param params room) = some next) :
    next.ctx = run.ctx.setParams param params := by
  obtain ⟨-, confirms, hctx⟩ := step_eq_some hstep
  have hpair := some.inj hctx
  rw [ScanCtx.request_of_not_accepts haccepts] at hpair
  exact (Prod.mk.inj hpair).1.symm

/-- Every request is confirmed once with its own buffer and scan type, and no
refused one as a success, exactly in the runs in which a request or a handler
finds no running scan, a refused request finds its own buffer in `pending_buf`,
handlers know the scan type and there is room for callbacks and alarms. -/
theorem everyState_confirmed_iff (events : List ScanEvent) :
    (EveryState step Confirmed start events ↔ AlongRun step Meets start events) ∧
    ∀ last, TransitionSystem.run step start events = some last →
      (AlongRun step Meets start events → last.ctx.held.card ≤ 1 →
        (∀ entry ∈ last.ctx.held, entry.2 ≠ .passive) → last.Finishes) ∧
      (∀ param params room next, last.ctx.accepts params = false →
        last.step (.request param params room) = some next →
        next.ctx = last.ctx.setParams param params) := by
  refine ⟨?_, fun last hrun => ⟨fun halong hsingle hknown => ?_, ?_⟩⟩
  · refine @everyState_iff_alongRun _ _ step Meets Confirmed
      (fun run => run.ctx.Sound) ?_ ?_ start events confirmed_start sound_start
    · intro run event hconfirmed hsound
      exact confirmed_step_iff hconfirmed hsound
    · intro run event next hconfirmed hsound hmeets hstep
      exact sound_step hconfirmed hsound hmeets hstep
  · have hboth : last.Confirmed ∧ last.ctx.Sound := by
      refine @invariant_of_run _ _ step Meets
        (fun run => run.Confirmed ∧ run.ctx.Sound) ?_ start last events
        ⟨confirmed_start, sound_start⟩ halong hrun
      intro run event next hboth hmeets hstep
      obtain ⟨hconfirmed, hsound⟩ := hboth
      exact ⟨(confirmed_step_iff hconfirmed hsound).mpr hmeets next hstep,
        sound_step hconfirmed hsound hmeets hstep⟩
    exact finishes_of_single hboth.1 hboth.2 hsingle hknown
  · intro param params room next haccepts hstep
    exact refused_unchanged haccepts hstep

/-- During a scan of the buffer 1 a second request is refused, which confirms
the first one as a success. -/
theorem not_everyState_confirmed_inProgress : ¬ EveryState step Confirmed start
      [.request 1 ⟨.active, 3, {11, 12}⟩ true, .callback true, .callback true,
        .request 2 ⟨.active, 3, {11}⟩ true] := by
  intro hevery
  have hlast : (TransitionSystem.run step start
      [.request 1 ⟨.active, 3, {11, 12}⟩ true, .callback true, .callback true,
        .request 2 ⟨.active, 3, {11}⟩ true]).map
        (fun last => last.refused) = some [.success] := by
    decide +kernel
  obtain ⟨last, hrun, hrefused⟩ := map_eq_some_iff.mp hlast
  refine (hevery.last hrun).refused ?_
  rw [hrefused]
  exact mem_singleton_self _

end ScanRun

end Zboss
