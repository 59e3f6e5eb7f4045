import Zboss.MacReception
import Mathlib.Tactic.Abel

/-!
# The buffer of a received frame is disposed of once

A buffer is freed, passed on to the next higher layer, or waits for one
callback of the MAC layer.
-/

namespace Zboss

open TransitionSystem Multiset MacRxEvent

namespace MacRxCtx

variable {ctx next : MacRxCtx} {event : MacRxEvent} {param : ℕ} {room : Bool}

def TakesCommand (ctx : MacRxCtx) (frame : MacRxFrame) (room : Bool) : Prop :=
  match frame.command with
  | .beaconRequest => ctx.edRole = false ∧ ctx.joinedPro = false
  | .associationRequest => ctx.edRole = false ∧ room = true
  | .associationResponse => ctx.assRequest = true → room = true
  | .dataRequest => ctx.edRole = false ∧ room = true
  | .orphanNotification => frame.srcAddrMode = .long ∧ room = true
  | _ => False

def TakesCall (ctx : MacRxCtx) (room : Bool) : MacRxCall → Prop
  | .handleDataFrame _ => room = true
  | .mlmeAckAccept _ => True
  | .mlmeCommandAccept param => ctx.TakesCommand (ctx.frames param) room
  | .acceptAssRequestCmd _ => room = true

/-- An accepted frame has a known type and there is room for its callback, a
command is one the device handles, and the end of an exchange finds its own
buffer in `pending_buf` and room for the status of an association response. -/
def Allows (ctx : MacRxCtx) : MacRxEvent → Prop
  | .macParseRecvData _ frame room =>
      ctx.canAcceptFrame frame = true → frame.frameType ≠ .reserved ∧ room = true
  | .callback room => ∀ call ∈ ctx.cbQ.head?, ctx.TakesCall room call
  | .handleDataRequestCmdContinue response room =>
      ctx.pendingBuf = ctx.exchange ∧ (response = true → room = true)
  | _ => True

def Meets (ctx : MacRxCtx) (event : MacRxEvent) : Prop :=
  ctx.step event ≠ none → ctx.Allows event

theorem held_eq (ctx : MacRxCtx) :
    ctx.held = ↑(ctx.cbQ.map MacRxCall.param) + ↑ctx.polls + ↑ctx.exchange.toList := by
  rw [held, ← coe_add, ← coe_add]

theorem held_schedule (call : MacRxCall) (room : Bool) :
    (ctx.schedule call room).held = ctx.held + indicate call.param room := by
  rw [schedule, indicate]
  cases room with
  | false => exact (add_zero _).symm
  | true =>
    rw [if_pos rfl, if_pos rfl, held_eq, held_eq]
    dsimp only
    rw [List.map_append, ← coe_add]
    simp only [List.map_cons, List.map_nil, coe_singleton]
    abel

theorem held_scheduleTxCb (param : ℕ) (room : Bool) :
    (ctx.scheduleTxCb param room).held = ctx.held + indicate param room := by
  rw [scheduleTxCb, indicate]
  cases room with
  | false => exact (add_zero _).symm
  | true =>
    rw [if_pos rfl, if_pos rfl, held_eq, held_eq]
    dsimp only
    rw [← coe_add, coe_singleton]
    abel

theorem singleton_eq_indicate_iff :
    ({param} : Multiset ℕ) = indicate param room ↔ room = true := by
  rw [indicate]
  cases room with
  | false => simp
  | true => simp

theorem moves_of_step_zero {out : Multiset ℕ} (hreceived : event.received = 0)
    (hstep : ctx.step event = some (next, out)) :
    Ledger.Moves step received held ctx event ↔ ctx.held = next.held + out := by
  rw [Ledger.moves_of_eq_some hstep, hreceived, add_zero]

theorem meets_of_step {out : Multiset ℕ} (hstep : ctx.step event = some (next, out)) :
    ctx.Meets event ↔ ctx.Allows event :=
  forall_prop_of_true (hstep ▸ Option.some_ne_none _)

theorem exact_of_none (hstep : ctx.step event = none) :
    Ledger.Moves step received held ctx event ↔ ctx.Meets event :=
  iff_of_true (Ledger.moves_of_eq_none hstep) (absurd hstep)

theorem moves_macParseRecvData (frame : MacRxFrame) :
    Ledger.Moves step received held ctx (.macParseRecvData param frame room) ↔
      ctx.Meets (.macParseRecvData param frame room) := by
  have hstep : ctx.step (.macParseRecvData param frame room) =
      some ((ctx.macParseRecvData param frame room).1,
        (ctx.macParseRecvData param frame room).2) := rfl
  rw [Ledger.moves_of_eq_some hstep, meets_of_step hstep, Allows, received,
    macParseRecvData]
  have hsame : canAcceptFrame { ctx with
      frames := Function.update ctx.frames param frame } frame =
      ctx.canAcceptFrame frame := rfl
  have hheld : held { ctx with
      frames := Function.update ctx.frames param frame } = ctx.held := rfl
  rw [hsame]
  cases haccept : ctx.canAcceptFrame frame with
  | false => exact iff_of_true rfl (fun hfalse => nomatch hfalse)
  | true =>
    rw [forall_prop_of_true rfl, if_pos rfl]
    cases frame.frameType with
    | reserved =>
      dsimp only
      rw [hheld, add_zero]
      simp
    | beacon =>
      dsimp only
      rw [hheld, add_right_inj, singleton_eq_indicate_iff]
      simp
    | data =>
      dsimp only
      rw [held_schedule, hheld, add_zero, add_right_inj,
        MacRxCall.param, singleton_eq_indicate_iff]
      simp
    | acknowledgment =>
      dsimp only
      rw [held_schedule, hheld, add_zero, add_right_inj,
        MacRxCall.param, singleton_eq_indicate_iff]
      simp
    | command =>
      dsimp only
      rw [held_schedule, hheld, add_zero, add_right_inj,
        MacRxCall.param, singleton_eq_indicate_iff]
      simp

theorem held_of_cbQ
    {call : MacRxCall} {rest : List MacRxCall} (hcbQ : ctx.cbQ = call :: rest) :
    ctx.held = held { ctx with cbQ := rest } + {call.param} := by
  rw [held_eq, held_eq, hcbQ]
  dsimp only
  rw [List.map_cons, ← cons_coe, ← singleton_add]
  abel

theorem mlmeCommandAccept_held_iff {out : Multiset ℕ}
    (haccept : ctx.mlmeCommandAccept param room = some (next, out)) :
    ctx.held + {param} = next.held + out ↔ ctx.TakesCommand (ctx.frames param) room := by
  have hlost : ¬ ctx.held + {param} = ctx.held + 0 := by
    rw [add_right_inj]
    exact singleton_ne_zero param
  have hindicated : ctx.held + {param} = ctx.held + indicate param room ↔ room = true := by
    rw [add_right_inj, singleton_eq_indicate_iff]
  rw [mlmeCommandAccept] at haccept
  rw [TakesCommand]
  cases hcommand : (ctx.frames param).command with
  | beaconRequest =>
    simp only [hcommand, true_and, reduceCtorEq, and_false, if_false] at haccept
    split at haccept
    case isTrue hfree =>
      obtain ⟨rfl, rfl⟩ := some_pair_inj haccept
      exact iff_of_true rfl (by simpa using hfree)
    case isFalse hfree =>
      obtain ⟨rfl, rfl⟩ := some_pair_inj haccept
      exact iff_of_false hlost (by simpa using hfree)
  | associationRequest =>
    simp only [hcommand, and_true, reduceCtorEq, false_and, and_false, if_false] at haccept
    split at haccept
    case isTrue hrouter =>
      obtain ⟨rfl, rfl⟩ := some_pair_inj haccept
      rw [held_schedule, MacRxCall.param, add_zero, hindicated]
      exact (and_iff_right (by simpa using hrouter)).symm
    case isFalse hrouter =>
      obtain ⟨rfl, rfl⟩ := some_pair_inj haccept
      exact iff_of_false hlost (fun h => hrouter (by simpa using h.1))
  | associationResponse =>
    simp only [hcommand, reduceCtorEq, false_and, and_false, if_false] at haccept
    split at haccept
    case isTrue hrequest =>
      obtain ⟨rfl, rfl⟩ := some_pair_inj haccept
      dsimp only
      rw [forall_prop_of_true hrequest, ← hindicated]
      rfl
    case isFalse hrequest =>
      obtain ⟨rfl, rfl⟩ := some_pair_inj haccept
      exact iff_of_true rfl (fun h => absurd h hrequest)
  | dataRequest =>
    simp only [hcommand, reduceCtorEq, false_and, and_false, if_false] at haccept
    obtain ⟨rfl, rfl⟩ := some_pair_inj haccept
    cases ctx.edRole with
    | true => exact iff_of_false hlost (fun h => nomatch h.1)
    | false =>
      rw [if_neg Bool.false_ne_true, held_scheduleTxCb, add_zero, hindicated]
      exact (and_iff_right rfl).symm
  | orphanNotification =>
    simp only [hcommand, reduceCtorEq, false_and, and_false, if_false] at haccept
    split at haccept
    case isTrue hlong =>
      obtain ⟨rfl, rfl⟩ := some_pair_inj haccept
      dsimp only
      rw [hindicated]
      exact (and_iff_right hlong).symm
    case isFalse hlong =>
      obtain ⟨rfl, rfl⟩ := some_pair_inj haccept
      exact iff_of_false hlost (fun h => hlong h.1)
  | coordinatorRealignment =>
    simp only [hcommand, reduceCtorEq, false_and, and_false, if_false] at haccept
    split at haccept
    · contradiction
    · obtain ⟨rfl, rfl⟩ := some_pair_inj haccept
      exact iff_of_false hlost id
  | disassociationNotification =>
    simp only [hcommand, reduceCtorEq, false_and, and_false, if_false] at haccept
    obtain ⟨rfl, rfl⟩ := some_pair_inj haccept
    exact iff_of_false hlost id
  | panIdConflictNotification =>
    simp only [hcommand, reduceCtorEq, false_and, and_false, if_false] at haccept
    obtain ⟨rfl, rfl⟩ := some_pair_inj haccept
    exact iff_of_false hlost id
  | gtsRequest =>
    simp only [hcommand, reduceCtorEq, false_and, and_false, if_false] at haccept
    obtain ⟨rfl, rfl⟩ := some_pair_inj haccept
    exact iff_of_false hlost id
  | other id =>
    simp only [hcommand, reduceCtorEq, false_and, and_false, if_false] at haccept
    obtain ⟨rfl, rfl⟩ := some_pair_inj haccept
    exact iff_of_false hlost fun hfalse => hfalse

theorem moves_callback : Ledger.Moves step received held ctx (.callback room) ↔
      ctx.Meets (.callback room) := by
  cases hstep : ctx.step (.callback room) with
  | none => exact exact_of_none hstep
  | some result =>
    obtain ⟨next, out⟩ := result
    rw [moves_of_step_zero rfl hstep, meets_of_step hstep, Allows]
    rw [step, callback] at hstep
    cases hcbQ : ctx.cbQ with
    | nil =>
      rw [hcbQ] at hstep
      contradiction
    | cons call rest =>
      have hcall : (∀ other ∈ (call :: rest).head?,
          ctx.TakesCall room other) ↔ ctx.TakesCall room call := by
        simp
      rw [hcall, held_of_cbQ hcbQ]
      rw [hcbQ] at hstep
      cases call with
      | handleDataFrame param =>
        obtain ⟨rfl, rfl⟩ := some_pair_inj hstep
        exact (add_right_inj _).trans singleton_eq_indicate_iff
      | mlmeAckAccept param =>
        obtain ⟨rfl, rfl⟩ := some_pair_inj hstep
        exact iff_of_true rfl trivial
      | mlmeCommandAccept param => exact mlmeCommandAccept_held_iff hstep
      | acceptAssRequestCmd param =>
        obtain ⟨rfl, rfl⟩ := some_pair_inj hstep
        exact (add_right_inj _).trans singleton_eq_indicate_iff

theorem moves_acceptDataRequestCmd (found : Bool) :
    Ledger.Moves step received held ctx (.acceptDataRequestCmd found) ↔
      ctx.Meets (.acceptDataRequestCmd found) := by
  refine iff_of_true ?_ (fun _ => trivial)
  intro next out hstep
  refine (add_zero _).trans ?_
  rw [step, acceptDataRequestCmd] at hstep
  split at hstep
  case h_1 param rest hexchange hpolls =>
    have htaken : ctx.held =
        held { ctx with polls := rest } + {param} := by
      rw [held_eq, held_eq, hpolls]
      dsimp only
      rw [← cons_coe, ← singleton_add]
      abel
    rw [htaken]
    split at hstep
    · obtain ⟨rfl, rfl⟩ := some_pair_inj hstep
      rw [held_eq, held_eq, hexchange, add_zero]
      simp
    · obtain ⟨rfl, rfl⟩ := some_pair_inj hstep
      rfl
  case h_2 => contradiction

theorem moves_handleDataRequestCmdContinue (response room : Bool) :
    Ledger.Moves step received held ctx (.handleDataRequestCmdContinue response room) ↔
      ctx.Meets (.handleDataRequestCmdContinue response room) := by
  cases hstep : ctx.step (.handleDataRequestCmdContinue response room) with
  | none => exact exact_of_none hstep
  | some result =>
    obtain ⟨next, out⟩ := result
    rw [moves_of_step_zero rfl hstep, meets_of_step hstep, Allows]
    rw [step, handleDataRequestCmdContinue] at hstep
    cases hexchange : ctx.exchange with
    | none =>
      rw [hexchange] at hstep
      contradiction
    | some param =>
      rw [hexchange] at hstep
      dsimp only at hstep
      have hheld : ctx.held = held { ctx with pendingBuf := none, exchange := none } +
          {param} := by
        rw [held_eq, held_eq, hexchange]
        dsimp only
        rw [Option.toList_none, coe_nil, add_zero]
        rfl
      rw [hheld]
      split at hstep
      · rename_i hresponse
        obtain ⟨buf, hbuf, heq⟩ := Option.map_eq_some_iff.mp hstep
        obtain ⟨rfl, rfl⟩ := Prod.mk.inj heq
        rw [add_right_inj, hbuf, forall_prop_of_true hresponse, indicate]
        cases room with
        | true => simp [eq_comm]
        | false => simp
      · rename_i hdata
        obtain ⟨rfl, rfl⟩ := some_pair_inj hstep
        rw [add_right_inj, and_iff_left fun h => absurd h hdata]
        cases ctx.pendingBuf with
        | none => simp
        | some buf => simp [eq_comm]

theorem moves_iff_meets (ctx : MacRxCtx) (event : MacRxEvent) :
    Ledger.Moves step received held ctx event ↔ ctx.Meets event := by
  cases event with
  | macParseRecvData param frame room => exact moves_macParseRecvData frame
  | callback room => exact moves_callback
  | acceptDataRequestCmd found => exact moves_acceptDataRequestCmd found
  | handleDataRequestCmdContinue response room =>
    exact moves_handleDataRequestCmdContinue response room
  | setPendingBuf buf =>
    refine iff_of_true (fun next out hstep => ?_) (fun _ => trivial)
    obtain ⟨rfl, rfl⟩ := some_pair_inj hstep
    rfl
  | setFlags joinedPro assRequest mlmeScanInProgress =>
    refine iff_of_true (fun next out hstep => ?_) (fun _ => trivial)
    obtain ⟨rfl, rfl⟩ := some_pair_inj hstep
    rfl

def opened (ctx : MacRxCtx) : Ledger.Book MacRxCtx ℕ := ⟨ctx, ctx.held, 0⟩

/-- Every buffer of a stream of frames is disposed of once in exactly the runs
in which each accepted frame has a type and a command the device handles, there
is room for its callback, and an exchange ends with its own buffer in
`pending_buf` and room for its status. -/
theorem everyState_disposedOnce_iff (ctx : MacRxCtx) (events : List MacRxEvent) :
    EveryState (Ledger.step step received) (Ledger.Balanced held) ctx.opened events ↔
      AlongRun (Ledger.step step received)
        (fun book event => book.state.Meets event) ctx.opened events := by
  refine @Ledger.everyState_balanced_iff _ _ _ step received held
    (fun _ => True) (fun ctx event => ctx.Meets event) ?_ ?_ ctx.opened events
    (add_zero _).symm trivial
  · intro ctx event _
    exact moves_iff_meets ctx event
  · intros
    trivial

/-- A realignment command of a coordinator nearby is accepted and lost. -/
theorem not_everyState_disposedOnce_realignment :
    ¬ EveryState (Ledger.step step received) (Ledger.Balanced held)
      (start false true).opened
      [.macParseRecvData 1
          ⟨.command, false, 0, 0xffff, .long, .coordinatorRealignment⟩ true,
        .callback true] := by
  intro hevery
  have hlast : (TransitionSystem.run (Ledger.step step received) (start false true).opened
      [.macParseRecvData 1
          ⟨.command, false, 0, 0xffff, .long, .coordinatorRealignment⟩ true,
        .callback true]).map (fun last =>
          (last.received, held last.state + last.disposed)) =
      some ({1}, 0) := by
    decide +kernel
  obtain ⟨last, hrun, heq⟩ := Option.map_eq_some_iff.mp hlast
  obtain ⟨hreceived, hnothing⟩ := Prod.mk.inj heq
  have hbalanced := hevery.last hrun
  rw [Ledger.Balanced, hreceived, hnothing] at hbalanced
  exact singleton_ne_zero 1 hbalanced

end MacRxCtx

end Zboss
