import Zboss.TransmitQueue

/-!
# The transmit queue neither skips nor stalls

Whatever the callbacks do, the main loop calls them in the order in which they
were placed, each with its continuation before the next one.  That the
continuation is called at all needs a transmission which was started.
-/

namespace Zboss

open Option List TransitionSystem

def TransmitStep.follow : Option TransmitWait → TransmitStep → Option (Option TransmitWait)
  | none, .callback _ installed => some installed
  | some wait, .continuation other => if other = wait then some none else none
  | _, _ => none

def TransmitStep.called : TransmitStep → Option TransmitCall
  | .callback call _ => some call
  | .continuation _ => none

namespace TransmitRun

variable {run next : TransmitRun} {event : TransmitEvent}

/-- The callbacks have been called in the order of `mac_tx_q`, each once, and
each continuation once and before the next callback. -/
structure Ordered (run : TransmitRun) : Prop where
  fifo : run.trace.filterMap TransmitStep.called ++ run.ctx.macTxQ = run.scheduled
  follows : run.trace.foldlM TransmitStep.follow none = some run.ctx.txWaitCb

/-- While a continuation waits, the callback which installed it has started a
transmission, and an interrupt has set `tx_cnt` or will set it. -/
structure Unstalled (run : TransmitRun) : Prop extends Ordered run where
  started : run.ctx.txWaitCb ≠ none → run.sent = true ∧
    (0 < run.ctx.transmitting ∨ run.ctx.txCnt = true)

def Meets (run : TransmitRun) : TransmitEvent → Prop
  | .mainLoop outcome =>
      run.ctx.txWaitCb = none → ∀ call ∈ run.ctx.macTxQ.head?, ∀ param,
          call = .acceptDataRequestCmd param →
            outcome.ready = true → outcome.secured = true
  | _ => True

/-- A callback from the queue: a continuation it installs is new, and a
transmission leaves an interrupt to come or `tx_cnt`. -/
theorem call_macTxQ (ctx : TransmitCtx) (outcome : TransmitOutcome) (call : TransmitCall) :
    (ctx.call outcome call).1.macTxQ = ctx.macTxQ := by
  cases call with
  | handleMcpsDataReq param =>
    rw [TransmitCtx.call]
    split
    · rfl
    · rfl
  | acceptDataRequestCmd param =>
    rw [TransmitCtx.call]
    split
    · dsimp only
      split
      · rfl
      · rfl
    · rfl
  | handleBeaconReq =>
    rw [TransmitCtx.call]
    split
    · rfl
    · rfl
  | handlePollRequest param => rfl
  | mlmeSendAssociationReqCmd param => rfl
  | mlmeHandleOrphanResponse param => rfl

theorem call_started_iff {ctx : TransmitCtx} (hidle : ctx.txWaitCb = none)
    (outcome : TransmitOutcome) (call : TransmitCall) :
    ((ctx.call outcome call).1.txWaitCb ≠ none → (ctx.call outcome call).2 = true ∧
          (0 < (ctx.call outcome call).1.transmitting ∨
            (ctx.call outcome call).1.txCnt = true)) ↔
      ∀ param, call = .acceptDataRequestCmd param →
        outcome.ready = true → outcome.secured = true := by
  have hsent (ctx : TransmitCtx) : 0 < ctx.sendCommand.transmitting := Nat.succ_pos _
  cases call with
  | handleMcpsDataReq param =>
    refine iff_of_true ?_ (fun _ hcall => nomatch hcall)
    rw [TransmitCtx.call]
    split
    · exact fun _ => ⟨rfl, .inl (hsent ctx)⟩
    · exact fun hwait => absurd hidle hwait
  | acceptDataRequestCmd param =>
    rw [TransmitCtx.call]
    cases outcome.ready with
    | false =>
      exact iff_of_true (fun hwait => absurd hidle hwait)
        (fun _ _ hready => nomatch hready)
    | true =>
      cases outcome.secured with
      | false =>
        refine iff_of_false (fun hstarted => ?_) (fun hall => ?_)
        · exact nomatch (hstarted (some_ne_none _)).1
        · exact nomatch hall param rfl rfl
      | true => exact iff_of_true (fun _ => ⟨rfl, .inl (hsent ctx)⟩) (fun _ _ _ => rfl)
  | handleBeaconReq =>
    refine iff_of_true ?_ (fun _ hcall => nomatch hcall)
    rw [TransmitCtx.call]
    split
    · exact fun _ => ⟨rfl, .inl (hsent ctx)⟩
    · exact fun hwait => absurd hidle hwait
  | handlePollRequest param =>
    exact iff_of_true (fun _ => ⟨rfl, .inr rfl⟩) (fun _ hcall => nomatch hcall)
  | mlmeSendAssociationReqCmd param =>
    exact iff_of_true (fun _ => ⟨rfl, .inl (hsent ctx)⟩) (fun _ hcall => nomatch hcall)
  | mlmeHandleOrphanResponse param =>
    exact iff_of_true (fun _ => ⟨rfl, .inl (hsent ctx)⟩) (fun _ hcall => nomatch hcall)

/-- What a pass of the main loop does: nothing, a continuation, or a callback
from an idle queue. -/
inductive Passes (run : TransmitRun) (outcome : TransmitOutcome) : TransmitRun → Prop
  | idle (hnothing : run.ctx.txWaitCb = none → run.ctx.macTxQ = []) :
      Passes run outcome run
  | continuation (wait : TransmitWait) (hwait : run.ctx.txWaitCb = some wait)
      (hcnt : run.ctx.txCnt = true) :
      Passes run outcome { run with
        ctx := run.ctx.continuation
        trace := run.trace ++ [.continuation wait] }
  | callback (call : TransmitCall) (rest : List TransmitCall)
      (hidle : run.ctx.txWaitCb = none) (hqueue : run.ctx.macTxQ = call :: rest)
      (ctx : TransmitCtx) (sent : Bool)
      (hcall : TransmitCtx.call
        { run.ctx with macTxQ := rest, txWaitCb := none } outcome call = (ctx, sent)) :
      Passes run outcome { run with
        ctx
        trace := run.trace ++ [.callback call ctx.txWaitCb]
        sent }

theorem passes_of_step {outcome : TransmitOutcome}
    (hstep : run.step (.mainLoop outcome) = some next) :
    run.Passes outcome next := by
  rw [step] at hstep
  cases hwait : run.ctx.txWaitCb with
  | some wait =>
    rw [TransmitCtx.mainLoop, hwait] at hstep
    dsimp only at hstep
    cases hcnt : run.ctx.txCnt with
    | false =>
      rw [hcnt] at hstep
      obtain rfl := some.inj hstep
      exact .idle fun hidle => nomatch hwait.symm.trans hidle
    | true =>
      rw [hcnt] at hstep
      obtain rfl := some.inj hstep
      exact .continuation wait hwait hcnt
  | none =>
    rw [TransmitCtx.mainLoop, hwait] at hstep
    cases hqueue : run.ctx.macTxQ with
    | nil =>
      rw [hqueue] at hstep
      obtain rfl := some.inj hstep
      exact .idle fun _ => hqueue
    | cons call rest =>
      rw [hqueue] at hstep
      dsimp only at hstep
      cases hcall : TransmitCtx.call
        { run.ctx with macTxQ := rest, txWaitCb := none } outcome call with
      | mk ctx sent =>
        rw [hcall] at hstep
        obtain rfl := some.inj hstep
        exact .callback call rest hwait hqueue ctx sent hcall

theorem placed_of_step
    {call : TransmitCall} (hstep : run.step (.scheduleTxCb call) = some next) :
    next = run ∨ next = { run with
      ctx := { run.ctx with macTxQ := run.ctx.macTxQ ++ [call] }
      scheduled := run.scheduled ++ [call] } := by
  rw [step] at hstep
  by_cases hroom : run.ctx.macTxQ.length < macQueueSize
  · rw [TransmitCtx.scheduleTxCb, if_pos hroom] at hstep
    exact .inr (some.inj hstep).symm
  · rw [TransmitCtx.scheduleTxCb, if_neg hroom] at hstep
    exact .inl (some.inj hstep).symm

theorem ordered_step (hordered : run.Ordered)
    (hstep : run.step event = some next) : next.Ordered := by
  obtain ⟨hfifo, hfollows⟩ := hordered
  cases event with
  | scheduleTxCb call =>
    obtain rfl | rfl := placed_of_step hstep
    · exact ⟨hfifo, hfollows⟩
    · refine ⟨?_, hfollows⟩
      dsimp only
      rw [← hfifo, append_assoc]
  | interrupt =>
    rw [step] at hstep
    split at hstep
    · obtain rfl := some.inj hstep
      exact ⟨hfifo, hfollows⟩
    · contradiction
  | synchronous =>
    obtain rfl := some.inj hstep
    exact ⟨hfifo, hfollows⟩
  | mainLoop outcome =>
    cases passes_of_step hstep with
    | idle => exact ⟨hfifo, hfollows⟩
    | continuation wait hwait =>
      refine ⟨?_, ?_⟩
      · rw [filterMap_append]
        exact (congrArg (· ++ _) (append_nil _)).trans hfifo
      · rw [foldlM_append, hfollows, hwait]
        simp [TransmitStep.follow, TransmitCtx.continuation]
    | callback call rest hidle hqueue ctx sent hcall =>
      have hrest : ctx.macTxQ = rest := by
        have hkept := call_macTxQ
          { run.ctx with macTxQ := rest, txWaitCb := none } outcome call
        rw [hcall] at hkept
        exact hkept
      refine ⟨?_, ?_⟩
      · dsimp only
        rw [filterMap_append, hrest, ← hfifo, hqueue, append_assoc]
        rfl
      · rw [foldlM_append, hfollows, hidle]
        simp [TransmitStep.follow]

theorem unstalled_step_iff (hunstalled : run.Unstalled) :
    (∀ next, run.step event = some next → next.Unstalled) ↔ run.Meets event := by
  have hstarted := hunstalled.started
  cases event with
  | scheduleTxCb call =>
    refine iff_of_true (fun next hstep => ?_) trivial
    refine ⟨ordered_step hunstalled.toOrdered hstep, ?_⟩
    obtain rfl | rfl := placed_of_step hstep
    · exact hstarted
    · exact hstarted
  | interrupt =>
    refine iff_of_true (fun next hstep => ?_) trivial
    refine ⟨ordered_step hunstalled.toOrdered hstep, ?_⟩
    rw [step] at hstep
    split at hstep
    · obtain rfl := some.inj hstep
      exact fun hwait => ⟨(hstarted hwait).1, .inr rfl⟩
    · contradiction
  | synchronous =>
    refine iff_of_true (fun next hstep => ?_) trivial
    refine ⟨ordered_step hunstalled.toOrdered hstep, ?_⟩
    obtain rfl := some.inj hstep
    exact fun hwait => ⟨(hstarted hwait).1, .inr rfl⟩
  | mainLoop outcome =>
    constructor
    · intro hall hidle call hhead
      obtain ⟨rest, hqueue⟩ := List.head?_eq_some_iff.mp hhead
      have hstep : run.step (.mainLoop outcome) = some { run with
          ctx := (TransmitCtx.call { run.ctx with
            macTxQ := rest, txWaitCb := none } outcome call).1
          trace := run.trace ++ [.callback call (TransmitCtx.call { run.ctx with
            macTxQ := rest, txWaitCb := none } outcome call).1.txWaitCb]
          sent := (TransmitCtx.call { run.ctx with
            macTxQ := rest, txWaitCb := none } outcome call).2 } := by
        rw [step, TransmitCtx.mainLoop, hidle, hqueue]
        rfl
      exact (call_started_iff rfl outcome call).mp (hall _ hstep).started
    · intro hmeets next hstep
      refine ⟨ordered_step hunstalled.toOrdered hstep, ?_⟩
      cases passes_of_step hstep with
      | idle => exact hstarted
      | continuation wait hwait hcnt => exact fun hne => absurd rfl hne
      | callback call rest hidle hqueue ctx sent hcall =>
        have hcalled := (call_started_iff (@rfl _ (TransmitCtx.txWaitCb
            { run.ctx with macTxQ := rest, txWaitCb := none }))
          outcome call).mpr (hmeets hidle call (by
            rw [hqueue]
            rfl))
        rw [hcall] at hcalled
        exact hcalled

/-- Passes of the main loop and interrupts lead to an empty queue, all of it
called, if the callbacks find what `outcome` says. -/
def Drains (outcome : TransmitCall → TransmitOutcome) (run : TransmitRun) :
    Prop :=
  ∃ events, (∀ event ∈ events,
      event = .interrupt ∨ ∃ call, event = .mainLoop (outcome call)) ∧
    ∃ last, TransitionSystem.run step run events = some last ∧
      last.Ordered ∧ last.ctx.txWaitCb = none ∧ last.ctx.macTxQ = [] ∧
      last.scheduled = run.scheduled

section Drains

variable {outcome : TransmitCall → TransmitOutcome}

theorem Drains.step
    (hevent : event = .interrupt ∨ ∃ call, event = .mainLoop (outcome call))
    (hstep : run.step event = some next)
    (hscheduled : next.scheduled = run.scheduled)
    (hdrains : next.Drains outcome) : run.Drains outcome := by
  obtain ⟨events, hevents, last, hrun, hordered, hidle, hempty, hsame⟩ := hdrains
  refine ⟨event :: events, ?_, last,
    run_cons_eq_some.mpr ⟨next, hstep, hrun⟩, hordered, hidle, hempty,
    hsame.trans hscheduled⟩
  intro other hmem
  obtain rfl | hmem := mem_cons.mp hmem
  · exact hevent
  · exact hevents other hmem

theorem drains_of_waiting (hunstalled : run.Unstalled)
    (hidle : ∀ next : TransmitRun, next.Unstalled →
      next.ctx.txWaitCb = none → next.ctx.macTxQ = run.ctx.macTxQ →
        next.Drains outcome) : run.Drains outcome := by
  have hcontinue : ∀ before : TransmitRun, before.Unstalled →
      before.ctx.txWaitCb ≠ none → before.ctx.txCnt = true →
      before.ctx.macTxQ = run.ctx.macTxQ → before.Drains outcome := by
    intro before hbefore hne hcnt hqueue
    obtain ⟨wait, hwait⟩ := ne_none_iff_exists'.mp hne
    have hstep : before.step (.mainLoop (outcome .handleBeaconReq)) =
        some { before with
          ctx := before.ctx.continuation
          trace := before.trace ++ [.continuation wait] } := by
      rw [TransmitRun.step, TransmitCtx.mainLoop, hwait]
      dsimp only
      rw [hcnt]
      rfl
    refine Drains.step (.inr ⟨_, rfl⟩) hstep rfl (hidle _ ?_ rfl hqueue)
    refine (unstalled_step_iff hbefore).mpr ?_ _ hstep
    exact fun hnone => absurd hnone hne
  by_cases hne : run.ctx.txWaitCb = none
  · exact hidle run hunstalled hne rfl
  · obtain ⟨-, htransmitting | hcnt⟩ := hunstalled.started hne
    · have hstep : run.step .interrupt =
          some { run with ctx := run.ctx.interrupt } := by
        rw [TransmitRun.step, if_pos htransmitting]
      have hmeets : run.Meets .interrupt := trivial
      exact Drains.step (.inl rfl) hstep rfl (hcontinue _
        ((unstalled_step_iff hunstalled).mpr hmeets _ hstep) hne rfl rfl)
    · exact hcontinue run hunstalled hne hcnt rfl

/-- By induction on the callbacks which are queued. -/
theorem drains_of_unstalled
    (hsecured : ∀ param, (outcome (.acceptDataRequestCmd param)).ready = true →
      (outcome (.acceptDataRequestCmd param)).secured = true)
    (hunstalled : run.Unstalled) : run.Drains outcome := by
  induction hlength : run.ctx.macTxQ.length generalizing run with
  | zero =>
    refine drains_of_waiting hunstalled fun next hnext hidle hqueue => ?_
    refine ⟨[], fun _ hmem => (nomatch hmem), next, rfl, hnext.toOrdered, hidle, ?_, rfl⟩
    rw [hqueue]
    exact length_eq_zero_iff.mp hlength
  | succ n ih =>
    refine drains_of_waiting hunstalled fun next hnext hidle hqueue => ?_
    obtain ⟨call, rest, hcons⟩ := exists_cons_of_length_eq_add_one hlength
    rw [hcons] at hqueue
    have hmeets : next.Meets (.mainLoop (outcome call)) := by
      rintro - other hhead param rfl
      rw [hqueue, List.head?_cons] at hhead
      obtain rfl := some.inj hhead
      exact hsecured param
    have hstep : next.step (.mainLoop (outcome call)) = some { next with
        ctx := (TransmitCtx.call { next.ctx with
          macTxQ := rest, txWaitCb := none } (outcome call) call).1
        trace := next.trace ++ [.callback call (TransmitCtx.call
          { next.ctx with macTxQ := rest, txWaitCb := none } (outcome call)
          call).1.txWaitCb]
        sent := (TransmitCtx.call { next.ctx with
          macTxQ := rest, txWaitCb := none } (outcome call) call).2 } := by
      rw [TransmitRun.step, TransmitCtx.mainLoop, hidle, hqueue]
      rfl
    refine Drains.step (.inr ⟨call, rfl⟩) hstep rfl (ih
      ((unstalled_step_iff hnext).mpr hmeets _ hstep) ?_)
    dsimp only
    rw [call_macTxQ]
    rw [hcons] at hlength
    exact Nat.succ.inj hlength

end Drains

theorem unstalled_start : start.Unstalled :=
  ⟨⟨rfl, rfl⟩, fun hne => absurd rfl hne⟩

/-- In every run the callbacks are called in order, each once and followed by
its continuation.  A continuation waits for a transmission of its own in
exactly the runs in which each frame which is found for a poll can be secured;
then the queue always runs dry. -/
theorem everyState_unstalled_iff (events : List TransmitEvent) :
    EveryState step Ordered start events ∧ (EveryState step Unstalled start events ↔
        AlongRun step Meets start events) ∧
      ∀ last, TransitionSystem.run step start events = some last →
        AlongRun step Meets start events →
        ∀ outcome : TransmitCall → TransmitOutcome,
          (∀ param, (outcome (.acceptDataRequestCmd param)).ready = true →
            (outcome (.acceptDataRequestCmd param)).secured = true) →
          last.Drains outcome := by
  have hiff : EveryState step Unstalled start events ↔
      AlongRun step Meets start events := by
    refine @everyState_iff_alongRun _ _ step Meets Unstalled (fun _ => True) ?_
      ?_ start events unstalled_start trivial
    · intro run event hunstalled _
      exact unstalled_step_iff hunstalled
    · intros
      trivial
  refine ⟨?_, hiff, fun last hrun hmeets outcome hsecured => ?_⟩
  · refine @everyState_of_invariant _ _ step (fun _ _ => True) Ordered Ordered
      ?_ (fun _ hordered => hordered) start events unstalled_start.toOrdered
      (alongRun_of_forall (fun _ _ => trivial) start events)
    intro run event next hordered _ hstep
    exact ordered_step hordered hstep
  · exact drains_of_unstalled hsecured ((hiff.mpr hmeets).last hrun)

/-- A child polls for a frame which cannot be secured: its continuation waits
for a transmission which was never started. -/
theorem not_everyState_unstalled_unsecured : ¬ EveryState step Unstalled start
      [.scheduleTxCb (.acceptDataRequestCmd 1), .mainLoop ⟨true, false⟩] := by
  intro hevery
  have hlast : (TransitionSystem.run step start
      [.scheduleTxCb (.acceptDataRequestCmd 1), .mainLoop ⟨true, false⟩]).map
        (fun last => (last.ctx.txWaitCb, last.sent)) =
      some (some .handleDataRequestCmdContinue, false) := by
    decide +kernel
  obtain ⟨last, hrun, heq⟩ := map_eq_some_iff.mp hlast
  obtain ⟨hwait, hsent⟩ := Prod.mk.inj heq
  obtain ⟨hstarted, -⟩ := (hevery.last hrun).started (by
    rw [hwait]
    exact some_ne_none _)
  rw [hsent] at hstarted
  contradiction

end TransmitRun

end Zboss
