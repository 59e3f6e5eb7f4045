import Zboss.DataConfirms
import Zboss.LeaveRequests
import Zboss.MacReception
import Zboss.PendingBuffer

/-!
# Functions with several models

`zb_nwk_do_leave`, `zb_nlme_leave_confirm` and
`zb_handle_data_request_cmd_continue` touch the tables, the server and the buffers,
each of which has a model of its own.  Where two models have a part in common they
agree on it.
-/

namespace Zboss

theorem NwkMain.zbNwkDoLeave_tables (nwk : NwkMain) (parent : ParentRouter) (param : ℕ)
    (rejoin : Bool) (hzg : nwk.mesh.zg = parent.router.zg)
    (haddress : nwk.mesh.address = parent.router.nib.macShortAddress) :
    (nwk.zbNwkDoLeave param rejoin).1.mesh.zg = (Zboss.zbNwkDoLeave parent rejoin).router.zg ∧
      (nwk.zbNwkDoLeave param rejoin).1.mesh.address =
        (Zboss.zbNwkDoLeave parent rejoin).router.nib.macShortAddress := by
  cases rejoin with
  | true => exact ⟨by rw [NwkMain.zbNwkDoLeave, Zboss.zbNwkDoLeave, ← hzg]; rfl, haddress⟩
  | false => exact ⟨by rw [NwkMain.zbNwkDoLeave, Zboss.zbNwkDoLeave, ← hzg, ← haddress]; rfl, rfl⟩

theorem ConfirmNode.zbNlmeLeaveConfirm_server {node : ConfirmNode} {param i : ℕ}
    (device : ZdpDevice) (status : UInt8) (own : Bool)
    (hfind : node.server.findLeave param = some i) :
    (node.zbNlmeLeaveConfirm device param status own).1.server =
      (node.server.nlmeLeaveConfirm device param status (decide (status = 0) && own)).1 := by
  rw [ConfirmNode.zbNlmeLeaveConfirm, ZdpServer.nlmeLeaveConfirm, hfind]
  rfl

/-- The buffer of the poll is indicated or freed by the one model if it is by the
other. -/
theorem PendingCtx.handleDataRequestCmdContinue_received {ctx next : PendingCtx}
    {received : MacRxCtx} {index : ℕ} {frame : MacFrame} {radio : RadioStatus}
    {outputs : List MacOutput} (hbuf : received.pendingBuf = ctx.pendingBuf)
    (hexchange : received.exchange.isSome)
    (hcontinue : ctx.handleDataRequestCmdContinue index frame radio =
      some (next, outputs)) :
    ∃ received' disposed,
      received.handleDataRequestCmdContinue (frame = .command) true =
        some (received', disposed) ∧
      received'.pendingBuf = next.pendingBuf ∧
        ∀ buf ∈ disposed, .freeBuf buf .command ∈ outputs ∨
          ∃ status, .commStatusIndication buf status .command ∈ outputs := by
  obtain ⟨exchange, hexchange⟩ := Option.isSome_iff_exists.mp hexchange
  unfold handleDataRequestCmdContinue at hcontinue
  rw [MacRxCtx.handleDataRequestCmdContinue, hexchange, hbuf]
  cases hpending : ctx.pendingBuf with
  | some buf =>
    rw [hpending] at hcontinue
    obtain ⟨⟨mac, calls⟩, hmac, heq⟩ := Option.bind_eq_some_iff.mp hcontinue
    obtain ⟨rfl, rfl⟩ := Prod.mk.inj (Option.some.inj heq)
    unfold MacCtx.handleDataRequestCmdContinue at hmac
    obtain ⟨pending, -, hcalls⟩ := Option.bind_eq_some_iff.mp hmac
    cases frame with
    | command =>
      obtain ⟨rfl, rfl⟩ := Prod.mk.inj (Option.some.inj hcalls)
      refine ⟨_, _, rfl, rfl, ?_⟩
      intro other hother
      obtain rfl := Multiset.mem_singleton.mp hother
      exact Or.inr ⟨_, List.mem_cons_self⟩
    | data =>
      obtain ⟨rfl, rfl⟩ := Prod.mk.inj (Option.some.inj hcalls)
      refine ⟨_, _, rfl, rfl, ?_⟩
      intro other hother
      obtain rfl := List.mem_singleton.mp hother
      exact Or.inl (List.mem_cons_of_mem _ (List.mem_singleton_self _))
  | none =>
    rw [hpending] at hcontinue
    cases frame with
    | command => contradiction
    | data =>
      obtain ⟨pending, -, heq⟩ := Option.bind_eq_some_iff.mp hcontinue
      obtain ⟨rfl, rfl⟩ := Prod.mk.inj (Option.some.inj heq)
      exact ⟨_, _, rfl, rfl, fun _ hnone => absurd hnone List.not_mem_nil⟩

end Zboss
